import Mathlib.Algebra.Order.Ring.Nat
import Mathlib.Data.List.Basic

/-!
# Bytes

What a packet format is made of: byte strings of a fixed length, numbers in big-endian order, and
a stream cipher that combines a buffer with a key stream by exclusive or. The cipher is applied a
block at a time; the blocks do not show in the result (`xorBlocks_eq`), and applying it twice gives
the buffer back (`xorStream_twice`).
-/

namespace Nexum.Lib

/-! ## 1. Fixed lengths -/

/-- A byte string of the length `n`. -/
structure Bytes (n : Nat) where
  data : List UInt8
  len : data.length = n
  deriving DecidableEq

theorem Bytes.ext_data {n : Nat} {a b : Bytes n} (h : a.data = b.data) : a = b := by
  cases a
  cases b
  cases h
  rfl

/-- The bytes, if there are `n` of them. -/
def Bytes.ofList (n : Nat) (data : List UInt8) : Option (Bytes n) :=
  if h : data.length = n then some ⟨data, h⟩ else none

/-- One byte, `n` times. -/
def Bytes.fill (n : Nat) (b : UInt8) : Bytes n := ⟨List.replicate n b, List.length_replicate⟩

/-- The first parts have one length: they are equal, and so are the rests. -/
theorem Bytes.append_inj {n : Nat} {a b : Bytes n} {s t : List UInt8}
    (h : a.data ++ s = b.data ++ t) : a = b ∧ s = t := by
  obtain ⟨hdata, hrest⟩ := List.append_inj h (a.len.trans b.len.symm)
  exact ⟨Bytes.ext_data hdata, hrest⟩

/-- Blocks of one length, written one after the other. -/
theorem Bytes.flatMap_data_injective {n : Nat} (hn : 0 < n) :
    Function.Injective fun blocks : List (Bytes n) => blocks.flatMap Bytes.data := by
  intro xs ys h
  have hne : ∀ (b : Bytes n) (s : List UInt8), b.data ++ s ≠ [] := by
    intro b s hnil
    have hlen := congrArg List.length hnil
    rw [List.length_append, b.len, List.length_nil] at hlen
    omega
  induction xs generalizing ys with
  | nil =>
    cases ys with
    | nil => rfl
    | cons y ys => exact absurd h.symm (hne y _)
  | cons x xs ih =>
    cases ys with
    | nil => exact absurd h (hne x _)
    | cons y ys =>
      obtain ⟨hxy, hrest⟩ := Bytes.append_inj h
      rw [hxy, ih hrest]

/-! ## 2. Numbers -/

/-- The eight bytes of a number, the most significant one first. -/
def u64be (x : UInt64) : List UInt8 :=
  [(x >>> 56).toUInt8, (x >>> 48).toUInt8, (x >>> 40).toUInt8, (x >>> 32).toUInt8,
    (x >>> 24).toUInt8, (x >>> 16).toUInt8, (x >>> 8).toUInt8, x.toUInt8]

@[simp] theorem length_u64be (x : UInt64) : (u64be x).length = 8 := rfl

/-- One byte of a number. -/
theorem toNat_byte (x : UInt64) {k : UInt64} {n : Nat} (hk : k.toNat = n) (hn : n < 64) :
    (x >>> k).toUInt8.toNat = x.toNat / 2 ^ n % 256 := by
  subst hk
  simp only [UInt64.toNat_toUInt8, UInt64.toNat_shiftRight, Nat.shiftRight_eq_div_pow,
    Nat.mod_eq_of_lt hn]

theorem u64be_injective : Function.Injective u64be := by
  intro x y h
  simp only [u64be, List.cons.injEq, and_true] at h
  obtain ⟨h7, h6, h5, h4, h3, h2, h1, h0⟩ := h
  have hbyte : ∀ {k : UInt64} (n : Nat), k.toNat = n → n < 64 →
      (x >>> k).toUInt8 = (y >>> k).toUInt8 → x.toNat / 2 ^ n % 256 = y.toNat / 2 ^ n % 256 := by
    intro k n hk hn heq
    rw [← toNat_byte x hk hn, ← toNat_byte y hk hn, heq]
  have h7 := hbyte 56 rfl (by decide) h7
  have h6 := hbyte 48 rfl (by decide) h6
  have h5 := hbyte 40 rfl (by decide) h5
  have h4 := hbyte 32 rfl (by decide) h4
  have h3 := hbyte 24 rfl (by decide) h3
  have h2 := hbyte 16 rfl (by decide) h2
  have h1 := hbyte 8 rfl (by decide) h1
  have h0 : x.toNat % 256 = y.toNat % 256 := by
    simpa using congrArg UInt8.toNat h0
  have hx := x.toNat_lt
  have hy := y.toNat_lt
  apply UInt64.toNat_inj.mp
  omega

/-- The `k` low bytes of a number, the least significant one first. -/
def leBytes : (k : Nat) → Nat → List UInt8
  | 0, _ => []
  | k + 1, n => UInt8.ofNat n :: leBytes k (n / 256)

@[simp] theorem length_leBytes (k n : Nat) : (leBytes k n).length = k := by
  induction k generalizing n with
  | zero => rfl
  | succ k ih => rw [leBytes, List.length_cons, ih]

/-- The number that the bytes stand for, the least significant one first. -/
def leNat : List UInt8 → Nat
  | [] => 0
  | b :: bs => b.toNat + 256 * leNat bs

theorem leNat_leBytes {k n : Nat} (h : n < 256 ^ k) : leNat (leBytes k n) = n := by
  induction k generalizing n with
  | zero => simpa [leBytes, leNat] using (Nat.lt_one_iff.mp h).symm
  | succ k ih =>
    have hrest : n / 256 < 256 ^ k := by
      rw [Nat.div_lt_iff_lt_mul (by decide), ← Nat.pow_succ]
      exact h
    rw [leBytes, leNat, ih hrest, UInt8.toNat_ofNat']
    omega

theorem leBytes_eq_map (k n : Nat) :
    leBytes k n = (List.range k).map fun i => UInt8.ofNat (n / 256 ^ i) := by
  induction k generalizing n with
  | zero => rfl
  | succ k ih =>
    rw [leBytes, ih, List.range_succ_eq_map, List.map_cons, List.map_map, Nat.pow_zero, Nat.div_one]
    congr 1
    apply List.map_congr_left
    intro i _
    rw [Function.comp_apply, Nat.succ_eq_add_one, Nat.pow_succ', Nat.div_div_eq_div_mul]

theorem leBytes_leNat (bytes : List UInt8) : leBytes bytes.length (leNat bytes) = bytes := by
  induction bytes with
  | nil => rfl
  | cons b bytes ih =>
    have hb := b.toNat_lt
    have hrest : (b.toNat + 256 * leNat bytes) / 256 = leNat bytes := by omega
    rw [List.length_cons, leBytes, leNat, hrest, ih]
    congr 1
    apply UInt8.toNat_inj.mp
    rw [UInt8.toNat_ofNat']
    omega

theorem leNat_lt (bytes : List UInt8) : leNat bytes < 256 ^ bytes.length := by
  induction bytes with
  | nil => exact Nat.one_pos
  | cons b bytes ih =>
    have hb := b.toNat_lt
    rw [leNat, List.length_cons, Nat.pow_succ']
    omega

theorem leBytes_toNat_inj {x y : UInt64} (h : leBytes 8 x.toNat = leBytes 8 y.toNat) : x = y := by
  have hx := leNat_leBytes (show x.toNat < 256 ^ 8 from x.toNat_lt)
  have hy := leNat_leBytes (show y.toNat < 256 ^ 8 from y.toNat_lt)
  apply UInt64.toNat_inj.mp
  rw [← hx, ← hy, h]

/-- The `k` low bytes of a number, the most significant one first. -/
def beBytes (k n : Nat) : List UInt8 := (leBytes k n).reverse

@[simp] theorem length_beBytes (k n : Nat) : (beBytes k n).length = k := by
  simp [beBytes]

def u32be (n : Nat) : List UInt8 := beBytes 4 n

@[simp] theorem length_u32be (n : Nat) : (u32be n).length = 4 :=
  length_beBytes 4 n

theorem u32be_inj {m n : Nat} (hm : m < 2 ^ 32) (hn : n < 2 ^ 32) (h : u32be m = u32be n) :
    m = n := by
  rw [← leNat_leBytes (show m < 256 ^ 4 by simpa using hm),
    ← leNat_leBytes (show n < 256 ^ 4 by simpa using hn), List.reverse_inj.mp h]

/-! ## 3. Reading -/

/-- The next `n` bytes, and what follows them. -/
def readBytes (n : Nat) (s : List UInt8) : Option (Bytes n × List UInt8) :=
  if h : n ≤ s.length then some (⟨s.take n, by simp [h]⟩, s.drop n) else none

@[simp] theorem readBytes_append {n : Nat} (b : Bytes n) (rest : List UInt8) :
    readBytes n (b.data ++ rest) = some (b, rest) := by
  obtain ⟨data, rfl⟩ := b
  simp [readBytes]

/-- The next `n` bytes, if there are as many, and what follows them. -/
def readRaw (n : Nat) (s : List UInt8) : Option (List UInt8 × List UInt8) :=
  if n ≤ s.length then some (s.take n, s.drop n) else none

@[simp] theorem readRaw_append (a rest : List UInt8) :
    readRaw a.length (a ++ rest) = some (a, rest) := by
  simp [readRaw]

/-- The next number of `k` bytes, the most significant one first. -/
def readBe (k : Nat) (s : List UInt8) : Option (Nat × List UInt8) :=
  (readRaw k s).map fun x => (leNat x.1.reverse, x.2)

theorem readBe_append {k n : Nat} (h : n < 256 ^ k) (rest : List UInt8) :
    readBe k (beBytes k n ++ rest) = some (n, rest) := by
  have hread : readRaw k (beBytes k n ++ rest) = some (beBytes k n, rest) := by
    simpa using readRaw_append (beBytes k n) rest
  rw [readBe, hread, Option.map_some, beBytes, List.reverse_reverse, leNat_leBytes h]

/-! ## 4. Stream ciphers -/

section
variable (stream : Nat → UInt8)

/-- The buffer combined with the stream, from the position `off` of the stream. -/
def xorStream : (off : Nat) → List UInt8 → List UInt8
  | _, [] => []
  | off, b :: buf => (b ^^^ stream off) :: xorStream (off + 1) buf

/-- The same in blocks of `size` bytes; `fuel` bounds their number. -/
def xorBlocks (size : Nat) : (fuel off : Nat) → List UInt8 → List UInt8
  | 0, _, _ => []
  | fuel + 1, off, buf =>
    if buf.isEmpty then []
    else
      let n := min buf.length size
      xorStream stream off (buf.take n) ++ xorBlocks size fuel (off + n) (buf.drop n)

variable {stream}

@[simp] theorem length_xorStream (off : Nat) (buf : List UInt8) :
    (xorStream stream off buf).length = buf.length := by
  induction buf generalizing off with
  | nil => rfl
  | cons b buf ih => simp only [xorStream, List.length_cons, ih]

theorem xorStream_append (off : Nat) (a b : List UInt8) :
    xorStream stream off (a ++ b)
      = xorStream stream off a ++ xorStream stream (off + a.length) b := by
  induction a generalizing off with
  | nil => rfl
  | cons x a ih =>
    simp only [List.cons_append, xorStream, ih, List.length_cons]
    rw [Nat.add_assoc, Nat.add_comm 1]

/-- **Twice is not at all.** -/
theorem xorStream_twice (off : Nat) (buf : List UInt8) :
    xorStream stream off (xorStream stream off buf) = buf := by
  induction buf generalizing off with
  | nil => rfl
  | cons b buf ih =>
    simp only [xorStream, ih, UInt8.xor_assoc, UInt8.xor_self, UInt8.xor_zero]

/-- **The blocks do not show.** -/
theorem xorBlocks_eq {size fuel off : Nat} {buf : List UInt8} (hsize : 0 < size)
    (hfuel : buf.length ≤ fuel) :
    xorBlocks stream size fuel off buf = xorStream stream off buf := by
  -- by the fuel; a block takes at least one byte off a buffer that is not empty
  induction fuel generalizing off buf with
  | zero =>
    obtain rfl := List.length_eq_zero_iff.mp (Nat.le_zero.mp hfuel)
    rfl
  | succ fuel ih =>
    unfold xorBlocks
    split
    · rename_i hempty
      obtain rfl := List.isEmpty_iff.mp hempty
      rfl
    · rename_i hempty
      have hpos : 0 < buf.length := by
        cases buf with
        | nil => exact absurd rfl hempty
        | cons b buf => exact Nat.succ_pos _
      have hlen : (buf.take (min buf.length size)).length = min buf.length size := by
        rw [List.length_take]
        omega
      have hrest : (buf.drop (min buf.length size)).length ≤ fuel := by
        rw [List.length_drop]
        omega
      dsimp only
      rw [ih hrest]
      conv_rhs => rw [← List.take_append_drop (min buf.length size) buf, xorStream_append, hlen]

end

end Nexum.Lib
