import Nexum.Lib.Check
import Nexum.Lib.Text

/-!
# Digests and identifiers in hexadecimal

The same three functions are written out in almost every crate: trim, check the length and the
alphabet, lower the case. They are stated once here; the crates' own wording of the error is an
argument.
-/

namespace Nexum.Lib

open Check

/-- Trimmed and lowered, or the error `err` when it is not exactly `len` hexadecimal digits. -/
def normalizeHex (value : String) (len : Nat) (err : String) : Except String String :=
  let trimmed := trim value
  if trimmed.utf8ByteSize ≠ len ∨ ¬ (chars trimmed).all isAsciiHexdigit then .error err
  else .ok (toAsciiLowercase trimmed)

/-- The value of an optional field, trimmed, when something is left of it. -/
def trimmedNonEmpty (o : Option String) : Option String :=
  (o.map trim).filter (· ≠ "")

/-- The decoder's own complaint about a text that is not hexadecimal: an odd number of digits
    first, otherwise the first character that is none. -/
def hexError (s : String) : String :=
  if s.utf8ByteSize % 2 ≠ 0 then "Odd number of digits"
  else
    let i := (chars s).findIdx (! isAsciiHexdigit ·)
    match (chars s)[i]? with
    | none => "Invalid string length"
    | some c => s!"Invalid character '{c}' at position {i}"

/-- Two lower-case digits to the byte. -/
def hexEncode (bytes : List UInt8) : String :=
  String.ofList
    (bytes.flatMap fun b => [Nat.digitChar (b.toNat / 16), Nat.digitChar (b.toNat % 16)])

/-! ## Normalising is idempotent -/

theorem trimChars_of_all {cs : List Char} (h : ∀ c ∈ cs, isWhitespace c = false) :
    trimChars cs = cs := by
  have hdrop : ∀ ds : List Char, (∀ c ∈ ds, isWhitespace c = false) →
      ds.dropWhile isWhitespace = ds := by
    intro ds hds
    cases ds with
    | nil => rfl
    | cons d ds => simp [hds d (by simp)]
  unfold trimChars
  rw [hdrop cs h, hdrop cs.reverse (by simpa using h), List.reverse_reverse]

theorem isWhitespace_digitChar {n : Nat} (h : n < 16) :
    isWhitespace (Nat.digitChar n) = false := by
  have hall : ∀ n < 16, isWhitespace (Nat.digitChar n) = false := by decide
  exact hall n h

/-- What is encoded has no blanks. -/
theorem trim_hexEncode (bytes : List UInt8) : trim (hexEncode bytes) = hexEncode bytes := by
  unfold trim hexEncode
  rw [chars_eq, String.toList_ofList, trimChars_of_all]
  intro c hc
  obtain ⟨b, -, hc⟩ := List.mem_flatMap.mp hc
  have hb := b.toNat_lt
  simp only [List.mem_cons, List.not_mem_nil, or_false] at hc
  rcases hc with rfl | rfl
  · exact isWhitespace_digitChar (by omega)
  · exact isWhitespace_digitChar (by omega)

theorem isAsciiHexdigit_digitChar {n : Nat} (h : n < 16) :
    isAsciiHexdigit (Nat.digitChar n) = true := by
  have hall : ∀ n < 16, isAsciiHexdigit (Nat.digitChar n) = true := by decide
  exact hall n h

theorem digitChar_inj {m n : Nat} (hm : m < 16) (hn : n < 16)
    (h : Nat.digitChar m = Nat.digitChar n) : m = n := by
  have hall : ∀ m < 16, ∀ n < 16, Nat.digitChar m = Nat.digitChar n → m = n := by decide
  exact hall m hm n hn h

/-- What is encoded is made of digits. -/
theorem hexdigit_of_mem_hexEncode {bytes : List UInt8} {c : Char}
    (h : c ∈ (hexEncode bytes).toList) : isAsciiHexdigit c = true := by
  rw [hexEncode, String.toList_ofList] at h
  obtain ⟨b, -, hc⟩ := List.mem_flatMap.mp h
  have hb := b.toNat_lt
  simp only [List.mem_cons, List.not_mem_nil, or_false] at hc
  cases hc with
  | inl hc =>
    rw [hc]
    exact isAsciiHexdigit_digitChar (by omega)
  | inr hc =>
    rw [hc]
    exact isAsciiHexdigit_digitChar (by omega)

/-- **What is encoded can be told from the text.** -/
theorem hexEncode_injective : Function.Injective hexEncode := by
  intro bytes bytes' h
  have hlist := congrArg String.toList h
  rw [hexEncode, hexEncode, String.toList_ofList, String.toList_ofList] at hlist
  clear h
  induction bytes generalizing bytes' with
  | nil =>
    cases bytes' with
    | nil => rfl
    | cons b' bytes' => simp at hlist
  | cons b bytes ih =>
    cases bytes' with
    | nil => simp at hlist
    | cons b' bytes' =>
      have hb := b.toNat_lt
      have hb' := b'.toNat_lt
      simp only [List.flatMap_cons, List.cons_append, List.nil_append, List.cons.injEq] at hlist
      have hhigh := digitChar_inj (by omega) (by omega) hlist.1
      have hlow := digitChar_inj (by omega) (by omega) hlist.2.1
      have hbyte : b = b' := UInt8.toNat_inj.mp (by omega)
      rw [hbyte, ih hlist.2.2]

theorem hexEncode_ne_empty {bytes : List UInt8} (h : bytes ≠ []) : hexEncode bytes ≠ "" := by
  intro hempty
  have hlist := congrArg String.toList hempty
  rw [hexEncode, String.toList_ofList] at hlist
  cases bytes with
  | nil => exact h rfl
  | cons b bytes => simp at hlist

/-- The three intervals of the hexadecimal digits. -/
theorem isAsciiHexdigit_iff {c : Char} : isAsciiHexdigit c = true ↔
    (48 ≤ c.toNat ∧ c.toNat ≤ 57) ∨ (97 ≤ c.toNat ∧ c.toNat ≤ 102)
      ∨ (65 ≤ c.toNat ∧ c.toNat ≤ 70) := by
  unfold isAsciiHexdigit hexValue
  dsimp only
  split
  · simp_all
  · split
    · simp_all
    · split <;> simp_all

theorem toNat_toLower {c : Char} :
    c.toLower.toNat = if 65 ≤ c.toNat ∧ c.toNat ≤ 90 then c.toNat + 32 else c.toNat := by
  unfold Char.toLower
  split
  · rename_i h
    have h : 65 ≤ c.toNat ∧ c.toNat ≤ 90 := h
    rw [if_pos h]
    show (c.val + 32).toNat = c.toNat + 32
    rw [UInt32.toNat_add]
    show (c.toNat + 32) % 2 ^ 32 = c.toNat + 32
    omega
  · rename_i h
    exact (if_neg h).symm

/-- A digit lowered is a digit, no blank, one byte long, and cannot be lowered further. -/
theorem toLower_hexdigit {c : Char} (h : isAsciiHexdigit c = true) :
    isAsciiHexdigit c.toLower = true ∧ isWhitespace c.toLower = false
      ∧ c.utf8Size = 1 ∧ c.toLower.utf8Size = 1 ∧ c.toLower.toLower = c.toLower := by
  rw [isAsciiHexdigit_iff] at h
  have hn := toNat_toLower (c := c)
  have hlow : (48 ≤ c.toLower.toNat ∧ c.toLower.toNat ≤ 57)
      ∨ (97 ≤ c.toLower.toNat ∧ c.toLower.toNat ≤ 102) := by
    rw [hn]; split <;> omega
  refine ⟨isAsciiHexdigit_iff.mpr ?_, ?_, ?_, ?_, ?_⟩
  · omega
  · simp only [isWhitespace, Bool.or_eq_false_iff, Bool.and_eq_false_iff, decide_eq_false_iff_not,
      beq_eq_false_iff_ne]
    omega
  · rw [Char.utf8Size_eq_one_iff, UInt32.le_iff_toNat_le]
    show c.toNat ≤ 127
    omega
  · rw [Char.utf8Size_eq_one_iff, UInt32.le_iff_toNat_le]
    show c.toLower.toNat ≤ 127
    omega
  · apply Char.toNat_inj.mp
    rw [toNat_toLower]
    split <;> omega

theorem utf8ByteSize_map_toLower {cs : List Char} (h : ∀ c ∈ cs, isAsciiHexdigit c = true) :
    (String.ofList (cs.map Char.toLower)).utf8ByteSize = (String.ofList cs).utf8ByteSize := by
  induction cs with
  | nil => rfl
  | cons c cs ih =>
    obtain ⟨-, -, hc, hl, -⟩ := toLower_hexdigit (h c (by simp))
    have ih := ih fun d hd => h d (by simp [hd])
    simp only [List.map_cons, String.ofList_cons, String.utf8ByteSize_append,
      String.utf8ByteSize_singleton, hc, hl, ih]

theorem normalizeHex_eq_ok {value s err : String} {len : Nat} :
    normalizeHex value len err = .ok s ↔ (trim value).utf8ByteSize = len
      ∧ (∀ c ∈ (trim value).toList, isAsciiHexdigit c = true)
      ∧ toAsciiLowercase (trim value) = s := by
  unfold normalizeHex
  simp only [chars_eq]
  generalize trim value = t
  by_cases hbad : t.utf8ByteSize ≠ len ∨ ¬ t.toList.all isAsciiHexdigit
  · simp only [if_pos hbad, reduceCtorEq, false_iff, not_and]
    intro hlen hall
    rcases hbad with hbad | hbad
    · exact absurd hlen hbad
    · exact absurd (List.all_eq_true.mpr hall) hbad
  · rw [not_or, not_not, not_not, List.all_eq_true] at hbad
    rw [if_neg (by rw [not_or, not_not, not_not, List.all_eq_true]; exact hbad)]
    simp only [Except.ok.injEq]
    exact ⟨fun h => ⟨hbad.1, hbad.2, h⟩, fun h => h.2.2⟩

/-- What is left after lowering has no blanks and cannot be lowered further. -/
theorem toAsciiLowercase_digits {t : String} (h : ∀ c ∈ t.toList, isAsciiHexdigit c = true) :
    trim (toAsciiLowercase t) = toAsciiLowercase t
      ∧ toAsciiLowercase (toAsciiLowercase t) = toAsciiLowercase t := by
  have hlow : ∀ d ∈ t.toList.map Char.toLower, isWhitespace d = false ∧ d.toLower = d := by
    intro d hd
    obtain ⟨c, hc, rfl⟩ := List.mem_map.mp hd
    obtain ⟨-, hblank, -, -, hsame⟩ := toLower_hexdigit (h c hc)
    exact ⟨hblank, hsame⟩
  unfold toAsciiLowercase trim
  simp only [chars_eq, String.toList_ofList]
  generalize t.toList.map Char.toLower = ds at hlow
  rw [trimChars_of_all fun d hd => (hlow d hd).1, List.map_congr_left fun d hd => (hlow d hd).2,
    List.map_id']
  exact ⟨rfl, rfl⟩

theorem digits_of_normalizeHex {value s err : String} {len : Nat}
    (h : normalizeHex value len err = .ok s) : ∀ c ∈ s.toList, isAsciiHexdigit c = true := by
  obtain ⟨-, hall, rfl⟩ := normalizeHex_eq_ok.mp h
  unfold toAsciiLowercase
  rw [chars_eq, String.toList_ofList]
  intro d hd
  obtain ⟨c, hc, rfl⟩ := List.mem_map.mp hd
  exact (toLower_hexdigit (hall c hc)).1

/-- **Normalising twice is normalising once.** -/
theorem normalizeHex_idem {value s err err' : String} {len : Nat}
    (h : normalizeHex value len err = .ok s) : normalizeHex s len err' = .ok s := by
  have hdigits := digits_of_normalizeHex h
  obtain ⟨hlen, hall, rfl⟩ := normalizeHex_eq_ok.mp h
  obtain ⟨htrim, hlow⟩ := toAsciiLowercase_digits hall
  refine normalizeHex_eq_ok.mpr ⟨?_, ?_, ?_⟩
  · rw [htrim]
    unfold toAsciiLowercase
    rw [chars_eq, utf8ByteSize_map_toLower hall, String.ofList_toList, hlen]
  · rw [htrim]
    exact hdigits
  · rw [htrim, hlow]

/-! ## Texts that differ in case only -/

theorem eqIgnoreAsciiCase_iff {a b : String} :
    eqIgnoreAsciiCase a b = true ↔ toAsciiLowercase a = toAsciiLowercase b := by
  simp [eqIgnoreAsciiCase]

/-- A character that is a digit once lowered was one before. -/
theorem hexdigit_of_toLower {c d : Char} (hd : isAsciiHexdigit d = true)
    (h : c.toLower = d.toLower) : isAsciiHexdigit c = true := by
  obtain ⟨hlow, -⟩ := toLower_hexdigit hd
  rw [← h, isAsciiHexdigit_iff, toNat_toLower] at hlow
  rw [isAsciiHexdigit_iff]
  split at hlow <;> omega

/-- Hexadecimal digits are no blanks. -/
theorem trim_of_digits {t : String} (h : ∀ c ∈ t.toList, isAsciiHexdigit c = true) :
    trim t = t := by
  unfold trim
  rw [chars_eq, trimChars_of_all, String.ofList_toList]
  intro c hc
  have hdigit := isAsciiHexdigit_iff.mp (h c hc)
  simp only [isWhitespace, Bool.or_eq_false_iff, Bool.and_eq_false_iff, decide_eq_false_iff_not,
    beq_eq_false_iff_ne]
  omega

/-- **Texts that differ in case only are normalised alike.** -/
theorem normalizeHex_congr {a b s err : String} {len : Nat} (h : normalizeHex a len err = .ok s)
    (heq : eqIgnoreAsciiCase (trim a) b = true) (err' : String) :
    normalizeHex b len err' = .ok s ∧ eqIgnoreAsciiCase s b = true := by
  obtain ⟨hlen, hall, rfl⟩ := normalizeHex_eq_ok.mp h
  rw [eqIgnoreAsciiCase_iff] at heq
  have hmap : (trim a).toList.map Char.toLower = b.toList.map Char.toLower := by
    simpa [toAsciiLowercase] using congrArg String.toList heq
  have hdigits : ∀ c ∈ b.toList, isAsciiHexdigit c = true := by
    intro c hc
    have hmem : c.toLower ∈ (trim a).toList.map Char.toLower := by
      rw [hmap]
      exact List.mem_map_of_mem hc
    obtain ⟨d, hd, hlow⟩ := List.mem_map.mp hmem
    exact hexdigit_of_toLower (hall d hd) hlow.symm
  have hsize : b.utf8ByteSize = len := by
    rw [← hlen]
    conv_lhs => rw [← String.ofList_toList (s := b)]
    conv_rhs => rw [← String.ofList_toList (s := trim a)]
    rw [← utf8ByteSize_map_toLower hdigits, ← utf8ByteSize_map_toLower hall, hmap]
  refine ⟨normalizeHex_eq_ok.mpr ?_, ?_⟩
  · rw [trim_of_digits hdigits]
    exact ⟨hsize, hdigits, heq.symm⟩
  · rw [eqIgnoreAsciiCase_iff, (toAsciiLowercase_digits hall).2, heq]

/-! ## Lengths and values of digits -/

/-- A text of digits has as many characters as bytes. -/
theorem length_of_digits {cs : List Char} (h : ∀ c ∈ cs, isAsciiHexdigit c = true) :
    (String.ofList cs).utf8ByteSize = cs.length := by
  induction cs with
  | nil => rfl
  | cons c cs ih =>
    obtain ⟨-, -, hc, -, -⟩ := toLower_hexdigit (h c (by simp))
    have ih := ih fun d hd => h d (by simp [hd])
    simp only [String.ofList_cons, String.utf8ByteSize_append, String.utf8ByteSize_singleton, hc,
      ih, List.length_cons]
    omega

/-- What comes out of `normalizeHex` has the length that was asked for. -/
theorem length_of_normalizeHex {value s err : String} {len : Nat}
    (h : normalizeHex value len err = .ok s) : s.toList.length = len := by
  obtain ⟨hlen, hall, rfl⟩ := normalizeHex_eq_ok.mp h
  unfold toAsciiLowercase
  rw [chars_eq, String.toList_ofList, List.length_map, ← length_of_digits hall,
    String.ofList_toList, hlen]

/-- What comes out of `normalizeHex` is left alone by trimming. -/
theorem trimmedNonEmpty_of_normalizeHex {value s err : String} {len : Nat} (hlen : 0 < len)
    (h : normalizeHex value len err = .ok s) : trimmedNonEmpty (some s) = some s := by
  have hne : s ≠ "" := by
    rintro rfl
    rw [← length_of_normalizeHex h] at hlen
    exact absurd hlen (by decide)
  obtain ⟨-, hall, rfl⟩ := normalizeHex_eq_ok.mp h
  obtain ⟨htrim, -⟩ := toAsciiLowercase_digits hall
  simp [trimmedNonEmpty, htrim, hne]

/-- The case of a digit does not matter to its value. -/
theorem hexValue_toLower {c : Char} (h : isAsciiHexdigit c = true) :
    hexValue c.toLower = hexValue c := by
  rw [isAsciiHexdigit_iff] at h
  unfold hexValue
  dsimp only
  rcases h with h | h | h
  · rw [toNat_toLower, if_neg (c := 65 ≤ _ ∧ _) (by omega)]
  · rw [toNat_toLower, if_neg (c := 65 ≤ _ ∧ _) (by omega)]
  · have hlow : c.toLower.toNat = c.toNat + 32 := by
      rw [toNat_toLower, if_pos (by omega)]
    have hval : c.toNat + 32 - 87 = c.toNat - 55 := by omega
    rw [hlow, if_neg (by omega), if_pos (by omega), if_neg (by omega), if_neg (by omega),
      if_pos (by omega), hval]

theorem hexDecodeChars_toLower {cs : List Char} (h : ∀ c ∈ cs, isAsciiHexdigit c = true) :
    hexDecodeChars (cs.map Char.toLower) = hexDecodeChars cs := by
  induction cs using hexDecodeChars.induct with
  | case1 => rfl
  | case2 c => rfl
  | case3 hi lo rest ih =>
    have ih := ih fun c hc => h c (by simp [hc])
    simp only [List.map_cons, hexDecodeChars, hexValue_toLower (h hi (by simp)),
      hexValue_toLower (h lo (by simp)), ih]

/-- Lowering and trimming a text of digits does not change what it decodes to. -/
theorem hexDecode_toAsciiLowercase {t : String} (h : ∀ c ∈ t.toList, isAsciiHexdigit c = true) :
    hexDecode (trim (toAsciiLowercase t)) = hexDecode t := by
  rw [(toAsciiLowercase_digits h).1]
  unfold hexDecode toAsciiLowercase
  rw [chars_eq, chars_eq, String.toList_ofList, hexDecodeChars_toLower h]

/-! ## Encoding and decoding -/

theorem hexValue_digitChar {n : Nat} (h : n < 16) : hexValue (Nat.digitChar n) = some n := by
  have hall : ∀ n < 16, hexValue (Nat.digitChar n) = some n := by decide
  exact hall n h

theorem toLower_digitChar {n : Nat} (h : n < 16) :
    (Nat.digitChar n).toLower = Nat.digitChar n := by
  have hall : ∀ n < 16, (Nat.digitChar n).toLower = Nat.digitChar n := by decide
  exact hall n h

/-- **What is encoded decodes to itself.** -/
theorem hexDecode_hexEncode (bytes : List UInt8) : hexDecode (hexEncode bytes) = some bytes := by
  unfold hexDecode hexEncode
  rw [chars_eq, String.toList_ofList]
  induction bytes with
  | nil => rfl
  | cons b bytes ih =>
    have hb := b.toNat_lt
    simp only [List.flatMap_cons, List.cons_append, List.nil_append, hexDecodeChars, ih,
      hexValue_digitChar (show b.toNat / 16 < 16 by omega),
      hexValue_digitChar (show b.toNat % 16 < 16 by omega), Option.bind_eq_bind, Option.bind_some,
      Nat.div_add_mod, UInt8.ofNat_toNat]

theorem toAsciiLowercase_hexEncode (bytes : List UInt8) :
    toAsciiLowercase (hexEncode bytes) = hexEncode bytes := by
  unfold toAsciiLowercase hexEncode
  rw [chars_eq, String.toList_ofList, List.map_flatMap]
  congr 1
  apply List.flatMap_congr
  intro b _
  have hb := b.toNat_lt
  simp only [List.map_cons, List.map_nil, toLower_digitChar (show b.toNat / 16 < 16 by omega),
    toLower_digitChar (show b.toNat % 16 < 16 by omega)]

/-- Two digits to the byte. -/
theorem utf8ByteSize_hexEncode (bytes : List UInt8) :
    (hexEncode bytes).utf8ByteSize = 2 * bytes.length := by
  have hascii : isAscii (hexEncode bytes) = true := by
    rw [isAscii, List.all_eq_true, chars_eq]
    intro c hc
    have hdigit := isAsciiHexdigit_iff.mp (hexdigit_of_mem_hexEncode hc)
    exact decide_eq_true (by omega)
  rw [utf8ByteSize_of_isAscii hascii, chars_eq, hexEncode, String.toList_ofList,
    List.length_flatMap]
  simp [Nat.mul_comm]

end Nexum.Lib
