import Mathlib.Data.Finset.Card

/-!
# First quorum wins

A *ballot* collects votes for mutually exclusive outcomes. Several outcomes may gather votes
side by side while nothing is decided; the first one to reach `quorum` distinct voters is
decided, and from then on only votes for that same outcome are taken.

The one property that matters is `Ballot.Sound`: **an outcome has a quorum exactly when it is
the decided one.** It holds of an empty ballot, every step keeps it, and it makes the outcomes
exclusive — two outcomes cannot both have a quorum — without any argument about the order the
votes came in. Nothing here says what the outcomes or the voters are.
-/

namespace Nexum.Lib

/-- Votes by outcome, and the outcome decided so far. -/
structure Ballot (O V : Type) where
  decided : Option O
  votes : O → Finset V

namespace Ballot

variable {O V : Type} [DecidableEq O] [DecidableEq V]

/-- Voter `v` for outcome `o`; the outcome is decided once `quorum` distinct voters stand
    behind it. -/
def vote (quorum : Nat) (b : Ballot O V) (o : O) (v : V) : Ballot O V where
  decided := if quorum ≤ (insert v (b.votes o)).card then some o else b.decided
  votes := Function.update b.votes o (insert v (b.votes o))

/-- One step of a ballot: nothing happens, or a vote is taken for an outcome that no other
    outcome has already beaten. -/
inductive Step (quorum : Nat) (b : Ballot O V) : Ballot O V → Prop
  | stay : Step quorum b b
  | vote (o : O) (v : V) (hopen : ∀ d ∈ b.decided, d = o) : Step quorum b (b.vote quorum o v)

/-- **The invariant.** An outcome has a quorum exactly when it is the decided one. -/
def Sound (quorum : Nat) (b : Ballot O V) : Prop :=
  ∀ o, quorum ≤ (b.votes o).card ↔ b.decided = some o

theorem Sound.vote {quorum : Nat} {b : Ballot O V} (h : b.Sound quorum) {o : O} (v : V)
    (hopen : ∀ d ∈ b.decided, d = o) : (b.vote quorum o v).Sound quorum := by
  intro o'
  by_cases ho : o' = o
  · -- the outcome voted for: it is decided now, or it was not decided before either
    subst ho
    have hgrow : (b.votes o').card ≤ (insert v (b.votes o')).card :=
      Finset.card_le_card (Finset.subset_insert _ _)
    simp only [Ballot.vote, Function.update_self]
    by_cases hc : quorum ≤ (insert v (b.votes o')).card
    · simp [hc]
    · have hnot : ¬ quorum ≤ (b.votes o').card := by omega
      rw [if_neg hc]
      exact ⟨fun hq => absurd hq hc, fun hd => absurd ((h o').mpr hd) hnot⟩
  · -- any other outcome keeps its votes, and cannot have been the decided one
    have hd : b.decided ≠ some o' := fun hd => ho (hopen o' hd)
    have hno : ¬ quorum ≤ (b.votes o').card := fun hq => hd ((h o').mp hq)
    have hne : ¬ o = o' := fun he => ho he.symm
    simp only [Ballot.vote, Function.update_of_ne ho]
    split
    · simp [hno, hne]
    · simp [hno, hd]

theorem Step.sound {quorum : Nat} {b b' : Ballot O V} (hs : Step quorum b b')
    (h : b.Sound quorum) : b'.Sound quorum := by
  cases hs with
  | stay => exact h
  | vote o v hopen => exact h.vote v hopen

/-- A decided outcome is never revised. -/
theorem Step.decided {quorum : Nat} {b b' : Ballot O V} (hs : Step quorum b b') {o : O}
    (hd : b.decided = some o) : b'.decided = some o := by
  cases hs with
  | stay => exact hd
  | vote o' v hopen =>
    have ho : o = o' := hopen o hd
    subst ho
    simp [Ballot.vote, hd]

omit [DecidableEq O] [DecidableEq V] in
/-- **Exclusivity.** At most one outcome has a quorum. -/
theorem Sound.unique {quorum : Nat} {b : Ballot O V} (h : b.Sound quorum) {o o' : O}
    (ho : quorum ≤ (b.votes o).card) (ho' : quorum ≤ (b.votes o').card) : o = o' := by
  have hd := (h o).mp ho
  have hd' := (h o').mp ho'
  rw [hd] at hd'
  exact Option.some.inj hd'

end Ballot

end Nexum.Lib
