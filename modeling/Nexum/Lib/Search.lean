import Mathlib.Logic.Function.Iterate
import Mathlib.Tactic.Common

/-!
# Searching along an orbit

A loop that takes one candidate after the other and stops at the first one that passes. Nothing
bounds it but the fuel. With enough fuel it stops at the first candidate that passes, if there is
one (`search_eq_some_iff`), and otherwise no fuel is enough (`search_eq_none_iff`).
-/

namespace Nexum.Lib

section
variable {α : Type} (passes : α → Bool) (next : α → α)

/-- The first of `a`, `next a`, … that passes; `none` if the fuel is used up. -/
def search : (fuel : Nat) → α → Option α
  | 0, _ => none
  | fuel + 1, a => if passes a then some a else search fuel (next a)

variable {passes next}

theorem search_eq_none_iff {fuel : Nat} {a : α} :
    search passes next fuel a = none ↔ ∀ k < fuel, passes (next^[k] a) = false := by
  induction fuel generalizing a with
  | zero => simp [search]
  | succ fuel ih =>
    rw [search, Nat.forall_lt_succ_left', Function.iterate_zero_apply]
    simp only [Function.iterate_succ_apply, ← ih]
    cases passes a <;> simp

theorem search_eq_some_iff {fuel : Nat} {a b : α} :
    search passes next fuel a = some b ↔ ∃ k < fuel, next^[k] a = b ∧ passes b = true
      ∧ ∀ j < k, passes (next^[j] a) = false := by
  induction fuel generalizing a with
  | zero => simp [search]
  | succ fuel ih =>
    rw [search]
    cases hpass : passes a with
    | true =>
      rw [if_pos rfl, Option.some.injEq]
      constructor
      · intro h
        subst h
        exact ⟨0, Nat.succ_pos _, rfl, hpass, fun j hj => absurd hj (Nat.not_lt_zero j)⟩
      · intro h
        obtain ⟨k, -, hk, -, hbefore⟩ := h
        cases k with
        | zero => exact hk
        | succ k => exact absurd (hbefore 0 (Nat.succ_pos k)) (by simp [hpass])
    | false =>
      rw [if_neg Bool.false_ne_true, ih]
      constructor
      · intro h
        obtain ⟨k, hk, hb, hb', hbefore⟩ := h
        refine ⟨k + 1, Nat.succ_lt_succ hk, hb, hb', ?_⟩
        intro j hj
        cases j with
        | zero => exact hpass
        | succ j => exact hbefore j (Nat.lt_of_succ_lt_succ hj)
      · intro h
        obtain ⟨k, hk, hb, hb', hbefore⟩ := h
        cases k with
        | zero =>
          rw [Function.iterate_zero_apply] at hb
          rw [hb, hb'] at hpass
          exact absurd hpass Bool.noConfusion
        | succ k =>
          exact ⟨k, Nat.lt_of_succ_lt_succ hk, hb, hb',
            fun j hj => hbefore (j + 1) (Nat.succ_lt_succ hj)⟩

end

end Nexum.Lib
