import Nexum.Lib.Hex

/-!
# Base64

The standard alphabet with padding, and a decoder that is strict: it takes no white space, no
missing or misplaced padding, and no stray bits before the padding. So **a text decodes to at most
one byte string, and only the text that the encoder writes decodes to it** (`b64Decode_eq_some`).
-/

namespace Nexum.Lib

/-! ## 1. The alphabet -/

def sextetChar (n : Nat) : Char :=
  if n < 26 then Char.ofNat (65 + n)
  else if n < 52 then Char.ofNat (71 + n)
  else if n < 62 then Char.ofNat (n - 4)
  else if n = 62 then '+'
  else '/'

def sextetValue (c : Char) : Option Nat :=
  let n := c.toNat
  if 65 ≤ n ∧ n ≤ 90 then some (n - 65)
  else if 97 ≤ n ∧ n ≤ 122 then some (n - 71)
  else if 48 ≤ n ∧ n ≤ 57 then some (n + 4)
  else if n = 43 then some 62
  else if n = 47 then some 63
  else none

theorem sextetValue_sextetChar {n : Nat} (h : n < 64) : sextetValue (sextetChar n) = some n := by
  have hall : ∀ n < 64, sextetValue (sextetChar n) = some n := by decide
  exact hall n h

/-- A character of the alphabet is the one that its value is written as. -/
theorem eq_of_sextetValue {c : Char} {n : Nat} (h : sextetValue c = some n) :
    n < 64 ∧ c = sextetChar n := by
  have hall : ∀ m < 128, ∀ n ∈ sextetValue (Char.ofNat m),
      n < 64 ∧ Char.ofNat m = sextetChar n := by
    decide
  have hascii : c.toNat < 128 := by
    unfold sextetValue at h
    dsimp only at h
    split at h
    · omega
    · split at h
      · omega
      · split at h
        · omega
        · split at h
          · omega
          · split at h
            · omega
            · cases h
  have hc := hall c.toNat hascii n
  rw [Char.ofNat_toNat] at hc
  exact hc h

theorem sextetChar_ne_pad {n : Nat} (h : n < 64) : sextetChar n ≠ '=' := by
  have hall : ∀ n < 64, sextetChar n ≠ '=' := by decide
  exact hall n h

theorem isWhitespace_sextetChar {n : Nat} (h : n < 64) : isWhitespace (sextetChar n) = false := by
  have hall : ∀ n < 64, isWhitespace (sextetChar n) = false := by decide
  exact hall n h

/-! ## 2. Encoding and decoding -/

/-- Four characters for three bytes. -/
def b64Chars : List UInt8 → List Char
  | [] => []
  | [a] => [sextetChar (a.toNat / 4), sextetChar (a.toNat % 4 * 16), '=', '=']
  | [a, b] =>
    [sextetChar (a.toNat / 4), sextetChar (a.toNat % 4 * 16 + b.toNat / 16),
      sextetChar (b.toNat % 16 * 4), '=']
  | a :: b :: c :: rest =>
    sextetChar (a.toNat / 4) :: sextetChar (a.toNat % 4 * 16 + b.toNat / 16)
      :: sextetChar (b.toNat % 16 * 4 + c.toNat / 64) :: sextetChar (c.toNat % 64)
      :: b64Chars rest

def b64Encode (bytes : List UInt8) : String :=
  String.ofList (b64Chars bytes)

/-- The last group, with its padding; the bits that are left over are zero. -/
def b64DecodeLast (w x y : Char) : Option (List UInt8) := do
  let w ← sextetValue w
  let x ← sextetValue x
  if y = '=' then
    if x % 16 = 0 then some [UInt8.ofNat (w * 4 + x / 16)] else none
  else do
    let y ← sextetValue y
    if y % 4 = 0 then
      some [UInt8.ofNat (w * 4 + x / 16), UInt8.ofNat (x % 16 * 16 + y / 4)]
    else none

def b64DecodeChars : List Char → Option (List UInt8)
  | [] => some []
  | w :: x :: y :: z :: rest =>
    if z = '=' then if rest = [] then b64DecodeLast w x y else none
    else do
      let w ← sextetValue w
      let x ← sextetValue x
      let y ← sextetValue y
      let z ← sextetValue z
      let bytes ← b64DecodeChars rest
      some (UInt8.ofNat (w * 4 + x / 16) :: UInt8.ofNat (x % 16 * 16 + y / 4)
        :: UInt8.ofNat (y % 4 * 64 + z) :: bytes)
  | _ => none

def b64Decode (s : String) : Option (List UInt8) :=
  b64DecodeChars (chars s)

/-! ## 3. The decoder is the inverse of the encoder -/

theorem ofNat_toNat_eq (a : UInt8) {n : Nat} (h : n = a.toNat) : UInt8.ofNat n = a := by
  rw [h]
  exact UInt8.ofNat_toNat

theorem toNat_ofNat_lt {n : Nat} (h : n < 256) : (UInt8.ofNat n).toNat = n := by
  rw [UInt8.toNat_ofNat']
  exact Nat.mod_eq_of_lt h

theorem b64DecodeChars_b64Chars (bytes : List UInt8) :
    b64DecodeChars (b64Chars bytes) = some bytes := by
  fun_induction b64Chars bytes with
  | case1 => rfl
  | case2 a =>
    have ha := a.toNat_lt
    simp only [b64DecodeChars, b64DecodeLast, if_true, sextetValue_sextetChar
      (show a.toNat / 4 < 64 by omega), sextetValue_sextetChar
      (show a.toNat % 4 * 16 < 64 by omega), Option.bind_eq_bind, Option.bind_some]
    rw [if_pos (by omega), ofNat_toNat_eq a (by omega)]
  | case3 a b =>
    have ha := a.toNat_lt
    have hb := b.toNat_lt
    have hy : b.toNat % 16 * 4 < 64 := by omega
    simp only [b64DecodeChars, b64DecodeLast, if_true, sextetValue_sextetChar
      (show a.toNat / 4 < 64 by omega), sextetValue_sextetChar
      (show a.toNat % 4 * 16 + b.toNat / 16 < 64 by omega), sextetValue_sextetChar hy,
      if_neg (sextetChar_ne_pad hy), Option.bind_eq_bind, Option.bind_some]
    rw [if_pos (by omega), ofNat_toNat_eq a (by omega), ofNat_toNat_eq b (by omega)]
  | case4 a b c rest ih =>
    have ha := a.toNat_lt
    have hb := b.toNat_lt
    have hc := c.toNat_lt
    have hz : c.toNat % 64 < 64 := by omega
    simp only [b64DecodeChars, if_neg (sextetChar_ne_pad hz), ih, sextetValue_sextetChar
      (show a.toNat / 4 < 64 by omega), sextetValue_sextetChar
      (show a.toNat % 4 * 16 + b.toNat / 16 < 64 by omega), sextetValue_sextetChar
      (show b.toNat % 16 * 4 + c.toNat / 64 < 64 by omega), sextetValue_sextetChar hz,
      Option.bind_eq_bind, Option.bind_some]
    rw [ofNat_toNat_eq a (by omega), ofNat_toNat_eq b (by omega), ofNat_toNat_eq c (by omega)]

/-- The last group is what one or two bytes are written as. -/
theorem eq_of_b64DecodeLast {w x y : Char} {bytes : List UInt8}
    (h : b64DecodeLast w x y = some bytes) : [w, x, y, '='] = b64Chars bytes := by
  simp only [b64DecodeLast, Option.bind_eq_bind, Option.bind_eq_some_iff] at h
  obtain ⟨w', hw, x', hx, h⟩ := h
  obtain ⟨hw', rfl⟩ := eq_of_sextetValue hw
  obtain ⟨hx', rfl⟩ := eq_of_sextetValue hx
  split at h
  · rename_i hy
    obtain ⟨hzero, hbytes⟩ := Option.ite_none_right_eq_some.mp h
    cases hbytes
    have hbyte := toNat_ofNat_lt (show w' * 4 + x' / 16 < 256 by omega)
    have h₁ : (w' * 4 + x' / 16) / 4 = w' := by omega
    have h₂ : (w' * 4 + x' / 16) % 4 * 16 = x' := by omega
    rw [b64Chars, hbyte, h₁, h₂, hy]
  · obtain ⟨y', hy, hlast⟩ := Option.bind_eq_some_iff.mp h
    obtain ⟨hy', rfl⟩ := eq_of_sextetValue hy
    obtain ⟨hzero, hbytes⟩ := Option.ite_none_right_eq_some.mp hlast
    cases hbytes
    have hbyte := toNat_ofNat_lt (show w' * 4 + x' / 16 < 256 by omega)
    have hbyte' := toNat_ofNat_lt (show x' % 16 * 16 + y' / 4 < 256 by omega)
    have h₁ : (w' * 4 + x' / 16) / 4 = w' := by omega
    have h₂ : (w' * 4 + x' / 16) % 4 * 16 + (x' % 16 * 16 + y' / 4) / 16 = x' := by omega
    have h₃ : (x' % 16 * 16 + y' / 4) % 16 * 4 = y' := by omega
    rw [b64Chars, hbyte, hbyte', h₁, h₂, h₃]

theorem eq_of_b64DecodeChars {cs : List Char} {bytes : List UInt8}
    (h : b64DecodeChars cs = some bytes) : cs = b64Chars bytes := by
  fun_induction b64DecodeChars cs generalizing bytes with
  | case1 =>
    cases h
    rfl
  | case2 w x y => exact eq_of_b64DecodeLast h
  | case3 => cases h
  | case4 w x y z rest hz ih =>
    simp only [Option.bind_eq_bind, Option.bind_eq_some_iff, Option.some.injEq] at h
    obtain ⟨w', hw, x', hx, y', hy, z', hz, rest', hrest, rfl⟩ := h
    obtain ⟨hw', rfl⟩ := eq_of_sextetValue hw
    obtain ⟨hx', rfl⟩ := eq_of_sextetValue hx
    obtain ⟨hy', rfl⟩ := eq_of_sextetValue hy
    obtain ⟨hz', rfl⟩ := eq_of_sextetValue hz
    have h₁ : (w' * 4 + x' / 16) / 4 = w' := by omega
    have h₂ : (w' * 4 + x' / 16) % 4 * 16 + (x' % 16 * 16 + y' / 4) / 16 = x' := by omega
    have h₃ : (x' % 16 * 16 + y' / 4) % 16 * 4 + (y' % 4 * 64 + z') / 64 = y' := by omega
    have h₄ : (y' % 4 * 64 + z') % 64 = z' := by omega
    rw [b64Chars, toNat_ofNat_lt (show w' * 4 + x' / 16 < 256 by omega),
      toNat_ofNat_lt (show x' % 16 * 16 + y' / 4 < 256 by omega),
      toNat_ofNat_lt (show y' % 4 * 64 + z' < 256 by omega), h₁, h₂, h₃, h₄, ← ih hrest]
  | case5 => cases h

/-- **Exactly the encoded texts decode.** -/
theorem b64Decode_eq_some {s : String} {bytes : List UInt8} :
    b64Decode s = some bytes ↔ s = b64Encode bytes := by
  unfold b64Decode b64Encode
  rw [chars_eq]
  constructor
  · intro h
    rw [← eq_of_b64DecodeChars h, String.ofList_toList]
  · rintro rfl
    rw [String.toList_ofList, b64DecodeChars_b64Chars]

theorem b64Encode_injective : Function.Injective b64Encode := by
  intro a b h
  have ha : b64Decode (b64Encode a) = some a := b64Decode_eq_some.mpr rfl
  have hb : b64Decode (b64Encode a) = some b := b64Decode_eq_some.mpr h
  exact Option.some.inj (ha.symm.trans hb)

/-- Something that is encoded is not blank. -/
theorem trim_b64Encode_ne {bytes : List UInt8} (h : bytes ≠ []) : trim (b64Encode bytes) ≠ "" := by
  obtain ⟨n, rest, hn, hchars⟩ : ∃ n rest, n < 64 ∧ b64Chars bytes = sextetChar n :: rest := by
    match bytes, h with
    | [a], _ => exact ⟨_, _, by have := a.toNat_lt; omega, rfl⟩
    | [a, b], _ => exact ⟨_, _, by have := a.toNat_lt; omega, rfl⟩
    | a :: b :: c :: rest, _ => exact ⟨_, _, by have := a.toNat_lt; omega, rfl⟩
  have hblack : isBlank (b64Encode bytes) = false := by
    refine isBlank_of_mem ?_ (isWhitespace_sextetChar hn)
    rw [b64Encode, String.toList_ofList, hchars]
    exact List.mem_cons_self
  rw [isBlank, beq_eq_false_iff_ne] at hblack
  exact hblack

end Nexum.Lib
