import Mathlib.Data.List.Pairwise
import Mathlib.Order.Lattice
import Mathlib.Tactic.Common

/-!
# Watermarks

A guard against replays keeps, for every sender, the largest number it has let through, and lets a
number through when it is larger. Where the number is stored in a narrower word it is clamped on
its way there, and what is compared are the clamped numbers.

`Marks` relates what is stored to what was let through, and is kept by letting a number through.
`Marks.exact_iff` says what the clamp costs: **the guard decides as it would on the numbers
themselves, except for numbers past one that was let through at or above the top.**
-/

namespace Nexum.Lib

variable {κ τ : Type} [LinearOrder τ] {clamp : Nat → τ} {top : Nat}

/-- Order is kept below the top, and lost from there on. -/
def SaturatesAt (clamp : Nat → τ) (top : Nat) : Prop :=
  ∀ m n, clamp m < clamp n ↔ m < n ∧ m < top

/-- `mark` holds the largest clamped number let through for each key. The numbers of a key are
    told apart by the clamp. -/
structure Marks (clamp : Nat → τ) (passed : List (κ × Nat)) (mark : κ → Option τ) : Prop where
  upper : ∀ k m, (k, m) ∈ passed → ∃ t, mark k = some t ∧ clamp m ≤ t
  attained : ∀ k t, mark k = some t → ∃ m, (k, m) ∈ passed ∧ clamp m = t
  apart : passed.Pairwise fun x y => x.1 = y.1 → clamp x.2 ≠ clamp y.2

namespace Marks

variable {passed : List (κ × Nat)} {mark mark' : κ → Option τ} {k : κ} {n : Nat}

theorem empty : Marks clamp [] fun _ : κ => none where
  upper _ _ h := by cases h
  attained _ _ h := by cases h
  apart := .nil

/-- Passing the mark is passing every number that was let through. -/
theorem passes_iff (h : Marks clamp passed mark) :
    (∀ t, mark k = some t → t < clamp n) ↔ ∀ m, (k, m) ∈ passed → clamp m < clamp n := by
  constructor
  · intro hpass m hm
    obtain ⟨t, ht, hmt⟩ := h.upper k m hm
    exact lt_of_le_of_lt hmt (hpass t ht)
  · intro hpass t ht
    obtain ⟨m, hm, rfl⟩ := h.attained k t ht
    exact hpass m hm

/-- **Letting a number through** moves the mark to it. -/
theorem snoc (h : Marks clamp passed mark) (hpass : ∀ t, mark k = some t → t < clamp n)
    (hself : mark' k = some (clamp n)) (hother : ∀ k', k' ≠ k → mark' k' = mark k') :
    Marks clamp (passed ++ [(k, n)]) mark' := by
  have hless := h.passes_iff.mp hpass
  refine ⟨?_, ?_, ?_⟩
  · intro k' m hm
    by_cases hk : k' = k
    · subst hk
      refine ⟨clamp n, hself, ?_⟩
      rcases List.mem_append.mp hm with hold | hnew
      · exact le_of_lt (hless m hold)
      · rw [(Prod.mk.inj (List.mem_singleton.mp hnew)).2]
    · rw [hother k' hk]
      refine h.upper k' m ((List.mem_append.mp hm).resolve_right ?_)
      intro hnew
      exact hk (Prod.mk.inj (List.mem_singleton.mp hnew)).1
  · intro k' t ht
    by_cases hk : k' = k
    · subst hk
      rw [hself, Option.some.injEq] at ht
      exact ⟨n, List.mem_append_right _ List.mem_cons_self, ht⟩
    · rw [hother k' hk] at ht
      obtain ⟨m, hm, hmt⟩ := h.attained k' t ht
      exact ⟨m, List.mem_append_left _ hm, hmt⟩
  · refine List.pairwise_append.mpr ⟨h.apart, List.pairwise_singleton .., ?_⟩
    intro x hx y hy hkey
    obtain rfl := List.mem_singleton.mp hy
    have hkey : x.1 = k := hkey
    refine ne_of_lt (hless x.2 ?_)
    rw [← hkey]
    exact hx

/-- A number let through at or above the top is the largest of its key. -/
theorem le_of_top_le (hs : SaturatesAt clamp top) (h : Marks clamp passed mark) {m m' : Nat}
    (hm : (k, m) ∈ passed) (htop : top ≤ m) (hm' : (k, m') ∈ passed) : m' ≤ m := by
  by_contra hlt
  have hsym : Std.Symm fun x y : κ × Nat => x.1 = y.1 → clamp x.2 ≠ clamp y.2 :=
    ⟨fun _ _ hxy heq => (hxy heq.symm).symm⟩
  have hne : ((k, m') : κ × Nat) ≠ (k, m) := by
    intro heq
    exact hlt (Nat.le_of_eq (Prod.mk.inj heq).2)
  rcases lt_or_gt_of_ne (h.apart.forall hm' hm hne rfl) with hless | hmore
  · exact hlt (Nat.le_of_lt ((hs m' m).mp hless).1)
  · exact absurd ((hs m m').mp hmore).2 (Nat.not_lt.mpr htop)

/-- **What the clamp costs.** -/
theorem exact_iff (hs : SaturatesAt clamp top) (h : Marks clamp passed mark) :
    ((∀ t, mark k = some t → t < clamp n) ↔ ∀ m, (k, m) ∈ passed → m < n)
      ↔ ¬ ∃ m, (k, m) ∈ passed ∧ top ≤ m ∧ m < n := by
  rw [h.passes_iff]
  constructor
  · intro hexact hbeyond
    obtain ⟨m, hm, htop, hmn⟩ := hbeyond
    -- `m` is the largest, so `n` is larger than all and would have to pass
    have hpass := hexact.mpr fun m' hm' =>
      Nat.lt_of_le_of_lt (le_of_top_le hs h hm htop hm') hmn
    exact absurd ((hs m n).mp (hpass m hm)).2 (Nat.not_lt.mpr htop)
  · intro hnone
    constructor
    · intro hpass m hm
      exact ((hs m n).mp (hpass m hm)).1
    · intro hlarger m hm
      refine (hs m n).mpr ⟨hlarger m hm, ?_⟩
      by_contra htop
      exact hnone ⟨m, hm, Nat.not_lt.mp htop, hlarger m hm⟩

end Marks

end Nexum.Lib
