import Nexum.Lib.Hex
import Nexum.Lib.Table

/-!
# Digests written as text

What a proof may assume of a cryptographic digest: that no two inputs share one, and that it is
written in one way only, in lower case and without blanks. A real digest also has a fixed length,
which contradicts the first as soon as it is taken literally; so the length is never assumed, and
code that insists on 64 digits is taken to check it.

`tableDigest` is such a digest with prescribed values at finitely many inputs. It shows that the
assumptions can be met, also together with the length check where it matters.
-/

namespace Nexum.Lib

structure DigestLike (h : List UInt8 → String) : Prop where
  injective : Function.Injective h
  canonical : ∀ b, toAsciiLowercase (trim (h b)) = h b

/-- A text for every input, outside the hexadecimal alphabet. -/
def spell (b : List UInt8) : String :=
  String.ofList ('x' :: b.map fun n => Char.ofNat (256 + n.toNat))

/-- The prescribed digest, or else the input spelled out. -/
def tableDigest (table : List (List UInt8 × String)) (b : List UInt8) : String :=
  (table.lookup b).getD (spell b)

theorem toNat_spelled (n : UInt8) : (Char.ofNat (256 + n.toNat)).toNat = 256 + n.toNat := by
  have hn : n.toNat < 256 := n.toNat_lt
  have hvalid : (256 + n.toNat).isValidChar := by
    left
    omega
  rw [Char.ofNat, dif_pos hvalid]
  rfl

theorem spell_injective : Function.Injective spell := by
  intro a b h
  have hl := congrArg String.toList h
  simp only [spell, String.toList_ofList, List.cons.injEq, true_and] at hl
  refine List.map_injective_iff.mpr ?_ hl
  intro m n hmn
  have htoNat := congrArg Char.toNat hmn
  simp only [toNat_spelled] at htoNat
  exact UInt8.toNat_inj.mp (by omega)

theorem spell_canonical (b : List UInt8) : toAsciiLowercase (trim (spell b)) = spell b := by
  have hchars : ∀ c ∈ 'x' :: b.map fun n => Char.ofNat (256 + n.toNat),
      isWhitespace c = false ∧ c.toLower = c := by
    intro c hc
    rcases List.mem_cons.mp hc with rfl | hc
    · decide
    · obtain ⟨n, -, rfl⟩ := List.mem_map.mp hc
      have hn : n.toNat < 256 := n.toNat_lt
      refine ⟨?_, Char.toNat_inj.mp ?_⟩
      · simp only [isWhitespace, toNat_spelled, Bool.or_eq_false_iff, Bool.and_eq_false_iff,
          decide_eq_false_iff_not, beq_eq_false_iff_ne]
        omega
      · rw [toNat_toLower, toNat_spelled]
        split <;> omega
  unfold toAsciiLowercase trim spell
  rw [chars_eq, chars_eq, String.toList_ofList, String.toList_ofList,
    trimChars_of_all fun c hc => (hchars c hc).1,
    List.map_congr_left fun c hc => (hchars c hc).2, List.map_id']

/-- Every value of the table is written in lower case without blanks and starts with a character
    that no spelled-out text starts with; and no two inputs share a value. -/
def WellFormedTable (table : List (List UInt8 × String)) : Prop :=
  (∀ x ∈ table, toAsciiLowercase (trim x.2) = x.2 ∧ x.2.toList.head? ≠ some 'x')
    ∧ table.Pairwise fun x y => x.2 ≠ y.2

/-- One digit, sixty-four times. -/
def digit64 (c : Char) : String := String.ofList (List.replicate 64 c)

/-- A table whose values repeat one digit each, no two of them the same. -/
theorem wellFormedTable_digit64 {entries : List (List UInt8 × Char)}
    (hc : ∀ x ∈ entries, isWhitespace x.2 = false ∧ x.2.toLower = x.2 ∧ x.2 ≠ 'x')
    (hnodup : (entries.map Prod.snd).Nodup) :
    WellFormedTable (entries.map fun x => (x.1, digit64 x.2)) := by
  constructor
  · intro y hy
    obtain ⟨x, hx, rfl⟩ := List.mem_map.mp hy
    obtain ⟨hblank, hlow, hne⟩ := hc x hx
    have hdigit : ∀ c ∈ List.replicate 64 x.2, c = x.2 := fun c h => List.eq_of_mem_replicate h
    refine ⟨?_, ?_⟩
    · unfold toAsciiLowercase trim digit64
      rw [chars_eq, chars_eq, String.toList_ofList, String.toList_ofList,
        trimChars_of_all fun c h => (hdigit c h).symm ▸ hblank, List.map_replicate, hlow]
    · unfold digit64
      rw [String.toList_ofList, List.replicate_succ, List.head?_cons]
      simpa using hne
  · refine List.pairwise_map.mpr ((List.pairwise_map.mp hnodup).imp ?_)
    intro x y hxy heq
    have hl := congrArg String.toList heq
    unfold digit64 at hl
    rw [String.toList_ofList, String.toList_ofList, List.replicate_succ, List.replicate_succ] at hl
    exact hxy (List.cons.inj hl).1

/-- **The assumptions can be met.** -/
theorem tableDigest_digestLike {table : List (List UInt8 × String)} (h : WellFormedTable table) :
    DigestLike (tableDigest table) := by
  obtain ⟨hvalues, hpair⟩ := h
  constructor
  · refine lookup_getD_injective spell_injective ?_ hpair
    intro x hx b heq
    refine (hvalues x hx).2 ?_
    rw [heq]
    simp [spell]
  · intro b
    unfold tableDigest
    cases hb : table.lookup b with
    | none => exact spell_canonical b
    | some d => exact (hvalues _ (mem_of_lookup hb)).1

/-! ## Digests in bytes -/

/-- The prescribed digest of thirty-two bytes, or else the input behind more zeros than that. -/
def tableHash (table : List (List UInt8 × List UInt8)) (b : List UInt8) : List UInt8 :=
  (table.lookup b).getD (List.replicate 33 0 ++ b)

theorem tableHash_injective {table : List (List UInt8 × List UInt8)}
    (hlen : ∀ x ∈ table, x.2.length = 32) (hpair : table.Pairwise fun x y => x.2 ≠ y.2) :
    Function.Injective (tableHash table) := by
  refine lookup_getD_injective (List.append_right_injective _) ?_ hpair
  intro x hx b heq
  have hlong := congrArg List.length heq
  rw [hlen x hx, List.length_append, List.length_replicate] at hlong
  omega

/-- A table of texts and their digests as they are usually printed. -/
def printedHash (entries : List (String × String)) : List UInt8 → List UInt8 :=
  tableHash (entries.map fun entry => (utf8 entry.1, (hexDecode entry.2).getD []))

end Nexum.Lib
