import Mathlib.Data.List.DropRight
import Mathlib.Data.Nat.Digits.Defs

/-!
# Text the way the code reads it

The programs modelled in this development validate almost everything they are handed as
*text*: identifiers, digests, addresses, reasons. The functions here are the handful of `str`
operations those checks are written with, on Lean's own `String`.

Two of them differ from what Lean's library offers under a similar name. `trim` strips every
character with the Unicode `White_Space` property, not only the ASCII blanks; and lengths are
counted in UTF-8 bytes (`String.utf8ByteSize`). All of them go through `chars`, which is
`String.toList` computed in a way that evaluates fast on ASCII texts.
-/

namespace Nexum.Lib

/-! ## 1. Characters -/

/-- The UTF-8 bytes of a text. -/
def utf8 (s : String) : List UInt8 :=
  s.toByteArray.data.toList

/-- The text with these bytes, if they are one. -/
def readUtf8 (bytes : List UInt8) : Option String := String.fromUTF8? ⟨bytes.toArray⟩

theorem readUtf8_utf8 (s : String) : readUtf8 (utf8 s) = some s := by
  rw [readUtf8, String.fromUTF8?]
  exact dif_pos s.isValidUTF8

/-- The characters of a text. -/
def chars (s : String) : List Char :=
  let bytes := utf8 s
  if bytes.all fun b => Nat.blt b.toNat 128 then bytes.map fun b => Char.ofNat b.toNat
  else s.toList

theorem utf8_eq (s : String) : utf8 s = s.toList.flatMap String.utf8EncodeChar := by
  conv_lhs => rw [← String.ofList_toList (s := s)]
  simp [utf8, String.ofList, List.utf8Encode]

/-- The first byte of a character beyond ASCII is no ASCII byte. -/
theorem utf8EncodeChar_ascii {c : Char} (h : ∀ b ∈ String.utf8EncodeChar c, b.toNat < 128) :
    (String.utf8EncodeChar c).map (fun b => Char.ofNat b.toNat) = [c] := by
  have hc : c.val.toNat ≤ 127 := by
    by_contra hbig
    unfold String.utf8EncodeChar at h
    dsimp only at h
    rw [if_neg hbig] at h
    split at h
    · have := h _ List.mem_cons_self
      simp only [UInt8.toNat_ofNat'] at this
      omega
    · split at h
      · have := h _ List.mem_cons_self
        simp only [UInt8.toNat_ofNat'] at this
        omega
      · have := h _ List.mem_cons_self
        simp only [UInt8.toNat_ofNat'] at this
        omega
  unfold String.utf8EncodeChar
  dsimp only
  rw [if_pos hc]
  simp only [List.map_cons, List.map_nil, List.cons.injEq, and_true]
  apply Char.toNat_inj.mp
  rw [UInt8.toNat_ofNat', Nat.mod_eq_of_lt (by omega)]
  exact congrArg Char.toNat (Char.ofNat_toNat c)

@[simp] theorem chars_eq (s : String) : chars s = s.toList := by
  unfold chars
  dsimp only
  split
  · rename_i hall
    rw [utf8_eq] at hall ⊢
    generalize s.toList = cs at hall
    induction cs with
    | nil => rfl
    | cons c cs ih =>
      simp only [List.flatMap_cons, List.all_append, Bool.and_eq_true] at hall
      have hc : ∀ b ∈ String.utf8EncodeChar c, b.toNat < 128 := by
        simpa [Nat.blt_eq] using hall.1
      rw [List.flatMap_cons, List.map_append, utf8EncodeChar_ascii hc, ih hall.2]
      rfl
  · rfl

theorem utf8_injective : Function.Injective utf8 := by
  intro a b h
  exact String.toByteArray_inj.mp (ByteArray.ext (Array.toList_inj.mp h))

/-- Where the separator first stands, the first part ends. -/
theorem append_sep_inj {α : Type} {sep : α} {a a' b b' : List α} (ha : sep ∉ a) (ha' : sep ∉ a') :
    a ++ sep :: b = a' ++ sep :: b' ↔ a = a' ∧ b = b' := by
  constructor
  · intro h
    induction a generalizing a' with
    | nil =>
      cases a' with
      | nil => simpa using h
      | cons x' a' =>
        obtain ⟨rfl, -⟩ := List.cons.inj h
        exact absurd List.mem_cons_self ha'
    | cons x a ih =>
      cases a' with
      | nil =>
        obtain ⟨rfl, -⟩ := List.cons.inj h
        exact absurd List.mem_cons_self ha
      | cons x' a' =>
        obtain ⟨rfl, hrest⟩ := List.cons.inj h
        obtain ⟨rfl, hb⟩ := ih (fun hm => ha (List.mem_cons_of_mem _ hm))
          (fun hm => ha' (List.mem_cons_of_mem _ hm)) hrest
        exact ⟨rfl, hb⟩
  · intro h
    rw [h.1, h.2]

/-- Where the separator last stands, the last part starts. -/
theorem sep_append_inj {α : Type} {sep : α} {a a' b b' : List α} (hb : sep ∉ b) (hb' : sep ∉ b') :
    a ++ sep :: b = a' ++ sep :: b' ↔ a = a' ∧ b = b' := by
  have h : b.reverse ++ sep :: a.reverse = b'.reverse ++ sep :: a'.reverse ↔ _ :=
    append_sep_inj (mt List.mem_reverse.mp hb) (mt List.mem_reverse.mp hb')
  rw [List.reverse_inj, List.reverse_inj, and_comm] at h
  rw [← h, ← List.reverse_inj]
  simp

/-- Only ASCII characters. -/
def isAscii (s : String) : Bool :=
  (chars s).all fun c => c.toNat < 128

theorem length_utf8EncodeChar_ascii {c : Char} (h : c.toNat < 128) :
    (String.utf8EncodeChar c).length = 1 := by
  have hc : c.val.toNat ≤ 127 := Nat.le_of_lt_succ h
  unfold String.utf8EncodeChar
  dsimp only
  rw [if_pos hc]
  rfl

/-- An ASCII text has as many bytes as characters. -/
theorem utf8ByteSize_of_isAscii {s : String} (h : isAscii s = true) :
    s.utf8ByteSize = (chars s).length := by
  have hbytes : s.utf8ByteSize = (utf8 s).length := Array.length_toList.symm
  rw [hbytes, utf8_eq]
  simp only [isAscii, chars_eq] at h ⊢
  generalize s.toList = cs at h
  induction cs with
  | nil => rfl
  | cons c cs ih =>
    simp only [List.all_cons, Bool.and_eq_true, decide_eq_true_eq] at h
    rw [List.flatMap_cons, List.length_append, length_utf8EncodeChar_ascii h.1, ih h.2,
      List.length_cons]
    omega

/-- A number is written with decimal digits. -/
theorem digit_of_mem_toString {n : Nat} {c : Char} (h : c ∈ (toString n).toList) :
    48 ≤ c.toNat ∧ c.toNat ≤ 57 := by
  have hrepr : (toString n).toList = Nat.toDigits 10 n := by
    show (Nat.repr n).toList = _
    rw [Nat.repr_eq_ofList_toDigits, String.toList_ofList]
  rw [hrepr] at h
  exact Char.isDigit_iff_toNat.mp (Nat.isDigit_of_mem_toDigits (by omega) (by omega) h)

/-! ## 2. Trimming -/

/-- The characters with the Unicode `White_Space` property. -/
def isWhitespace (c : Char) : Bool :=
  let n := c.toNat
  (9 ≤ n && n ≤ 13) || n == 0x20 || n == 0x85 || n == 0xA0 || n == 0x1680
    || (0x2000 ≤ n && n ≤ 0x200A) || n == 0x2028 || n == 0x2029 || n == 0x202F
    || n == 0x205F || n == 0x3000

def trimChars (cs : List Char) : List Char :=
  ((cs.dropWhile isWhitespace).reverse.dropWhile isWhitespace).reverse

/-- Both ends stripped of white space. -/
def trim (s : String) : String :=
  String.ofList (trimChars (chars s))

theorem trimChars_trimChars (cs : List Char) : trimChars (trimChars cs) = trimChars cs := by
  have hfold : ∀ ds, trimChars ds = (ds.dropWhile isWhitespace).rdropWhile isWhitespace :=
    fun _ => rfl
  rw [hfold, hfold]
  generalize hds : cs.dropWhile isWhitespace = ds
  -- what is left is a first part of `ds`, which starts with no white space
  have hfront : (ds.rdropWhile isWhitespace).dropWhile isWhitespace
      = ds.rdropWhile isWhitespace := by
    rw [List.dropWhile_eq_self_iff]
    intro hlen
    have hpre := List.rdropWhile_prefix isWhitespace ds
    have hds' : ds.dropWhile isWhitespace = ds := by
      rw [← hds]
      exact List.dropWhile_idempotent _ _
    have hpos : 0 < ds.length := hlen.trans_le hpre.length_le
    rw [hpre.getElem hlen]
    exact List.dropWhile_eq_self_iff.mp hds' hpos
  rw [hfront]
  exact List.rdropWhile_idempotent _ _

/-- What is trimmed stays as it is. -/
theorem trim_trim (s : String) : trim (trim s) = trim s := by
  rw [trim, trim, chars_eq (String.ofList _), String.toList_ofList, trimChars_trimChars]

/-- Nothing is left of `s` once it is trimmed. -/
def isBlank (s : String) : Bool :=
  trim s == ""

/-- A text with a character that is no white space is not blank. -/
theorem isBlank_of_mem {s : String} {c : Char} (hc : c ∈ s.toList)
    (hblack : isWhitespace c = false) : isBlank s = false := by
  have hnil : ∀ {cs : List Char}, c ∈ cs → c ∈ cs.dropWhile isWhitespace := by
    intro cs hmem
    rw [← List.takeWhile_append_dropWhile (p := isWhitespace) (l := cs)] at hmem
    cases List.mem_append.mp hmem with
    | inl htake =>
      rw [List.mem_takeWhile_imp htake] at hblack
      cases hblack
    | inr hdrop => exact hdrop
  have hkept : c ∈ (trim s).toList := by
    rw [trim, String.toList_ofList, trimChars, chars_eq, List.mem_reverse]
    exact hnil (List.mem_reverse.mpr (hnil hc))
  rw [isBlank, beq_eq_false_iff_ne]
  intro hempty
  rw [hempty] at hkept
  exact absurd hkept List.not_mem_nil

/-- Letters and digits, by their codes. -/
theorem isAlphanum_iff {c : Char} : c.isAlphanum = true ↔ (65 ≤ c.toNat ∧ c.toNat ≤ 90)
    ∨ (97 ≤ c.toNat ∧ c.toNat ≤ 122) ∨ (48 ≤ c.toNat ∧ c.toNat ≤ 57) := by
  delta Char.isAlphanum Char.isAlpha Char.isUpper Char.isLower Char.isDigit
  simp only [Bool.or_eq_true, Bool.and_eq_true, decide_eq_true_eq, UInt32.le_iff_toNat_le, or_assoc]
  exact Iff.rfl

theorem isWhitespace_of_visible {c : Char} (h : 33 ≤ c.toNat ∧ c.toNat ≤ 126) :
    isWhitespace c = false := by
  rw [Bool.eq_false_iff]
  intro hblank
  simp only [isWhitespace, Bool.or_eq_true, Bool.and_eq_true, decide_eq_true_eq,
    beq_iff_eq] at hblank
  omega

/-- `sub` occurs somewhere in `s`. -/
def containsText (s sub : String) : Bool :=
  (chars s).tails.any ((chars sub).isPrefixOf ·)

/-- `s` ends with `sub`. -/
def endsWithText (s sub : String) : Bool :=
  (chars sub).isSuffixOf (chars s)

/-! ## 3. ASCII case -/

/-- `A`..`Z` lowered, every other character kept. -/
def toAsciiLowercase (s : String) : String :=
  String.ofList ((chars s).map Char.toLower)

/-- `a`..`z` raised, every other character kept. -/
def toAsciiUppercase (s : String) : String :=
  String.ofList ((chars s).map Char.toUpper)

def eqIgnoreAsciiCase (a b : String) : Bool :=
  toAsciiLowercase a == toAsciiLowercase b

/-! ## 4. Hexadecimal -/

/-- The value of one hexadecimal digit, of either case. -/
def hexValue (c : Char) : Option Nat :=
  let n := c.toNat
  if 48 ≤ n ∧ n ≤ 57 then some (n - 48)
  else if 97 ≤ n ∧ n ≤ 102 then some (n - 87)
  else if 65 ≤ n ∧ n ≤ 70 then some (n - 55)
  else none

def isAsciiHexdigit (c : Char) : Bool :=
  (hexValue c).isSome

/-- Two digits to the byte; an odd digit or a foreign character fails the whole text. -/
def hexDecodeChars : List Char → Option (List UInt8)
  | [] => some []
  | [_] => none
  | hi :: lo :: rest => do
    let h ← hexValue hi
    let l ← hexValue lo
    let bytes ← hexDecodeChars rest
    some (UInt8.ofNat (16 * h + l) :: bytes)

def hexDecode (s : String) : Option (List UInt8) :=
  hexDecodeChars (chars s)

end Nexum.Lib
