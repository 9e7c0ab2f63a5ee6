import Mathlib.Algebra.BigOperators.Group.List.Basic
import Mathlib.Algebra.Order.Ring.Nat

/-!
# Saturating arithmetic on machine words

Totals of 64-bit quantities are kept with `saturating_add`. `toNat_satSum` is the closed form:
**saturating along the way is clamping the true sum once at the end.** What it costs is
exactly the sums past the top of the range, which all read as the top.
-/

namespace Nexum.Lib

/-- The largest 64-bit word. -/
def u64Max : Nat := 2 ^ 64 - 1

def satAdd (a b : UInt64) : UInt64 :=
  UInt64.ofNat (min (a.toNat + b.toNat) u64Max)

/-- Add the words of `xs` to `acc`, in order. -/
def satSum (acc : UInt64) (xs : List UInt64) : UInt64 :=
  xs.foldl satAdd acc

theorem toNat_le_u64Max (a : UInt64) : a.toNat ≤ u64Max :=
  Nat.le_sub_one_of_lt a.toNat_lt

@[simp] theorem toNat_satAdd (a b : UInt64) :
    (satAdd a b).toNat = min (a.toNat + b.toNat) u64Max := by
  have hlt : min (a.toNat + b.toNat) u64Max < 2 ^ 64 :=
    Nat.lt_of_le_of_lt (Nat.min_le_right _ _) (by simp [u64Max])
  exact UInt64.toNat_ofNat_of_lt hlt

/-- **One clamp at the end.** -/
theorem toNat_satSum (acc : UInt64) (xs : List UInt64) :
    (satSum acc xs).toNat = min (acc.toNat + (xs.map UInt64.toNat).sum) u64Max := by
  induction xs generalizing acc with
  | nil => simp [satSum, toNat_le_u64Max]
  | cons x xs ih =>
    have hstep : satSum acc (x :: xs) = satSum (satAdd acc x) xs := rfl
    rw [hstep, ih, toNat_satAdd, List.map_cons, List.sum_cons]
    omega

/-! ## Signed words

A database column holds a signed 64-bit word. An unsigned quantity is **clamped** on its way
there, and times are added with `saturating_add`. -/

def i64Max : Int := 2 ^ 63 - 1
def i64Min : Int := -2 ^ 63

/-- `i64::try_from(n).unwrap_or(i64::MAX)`. -/
def clampI64 (n : Nat) : Int := min (n : Int) i64Max

def satAddI64 (a b : Int) : Int := max i64Min (min (a + b) i64Max)

/-- Two words read the same exactly if they are equal or both at or past the top. -/
theorem clampI64_eq_iff {m n : Nat} :
    clampI64 m = clampI64 n ↔ m = n ∨ i64Max ≤ m ∧ i64Max ≤ n := by
  unfold clampI64
  omega

end Nexum.Lib
