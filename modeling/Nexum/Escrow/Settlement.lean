import Nexum.Escrow.Effects

/-!
# How an escrow settles

Release and refund are confirmed by the same three parties, in two independent sets that both
grow while the escrow is funded or disputed. Seen from far enough away the contract is a
**ballot between two outcomes with a quorum of two** (`EscrowContract.ballot`): `Released` and
`Refunded` are the decided outcomes, every other state is undecided.

Each of the eleven operations, whether it succeeds or stops halfway, is one step of that ballot
(`apply_step`): the set-up operations, funding and the dispute leave it alone, and a confirmation
is a vote. Exclusivity and finality of the settlement are then facts about ballots.
-/

namespace Nexum.Escrow

open Nexum.Lib

/-- **Refinement.** Whatever operation is called, and however it ends, the contract it leaves
    behind is one ballot step away. -/
theorem apply_step (keccak256 : List UInt8 → List UInt8) (c : EscrowContract) (op : EscrowOp) :
    Ballot.Step 2 c.ballot (op.apply keccak256 c).ballot :=
  (apply_does keccak256 c op).2.2

theorem run_sound (keccak256 : List UInt8 → List UInt8) {c : EscrowContract}
    (h : c.ballot.Sound 2) (ops : List EscrowOp) : (c.run keccak256 ops).ballot.Sound 2 := by
  induction ops generalizing c with
  | nil => exact h
  | cons op ops ih => exact ih ((apply_step keccak256 c op).sound h)

theorem run_decided (keccak256 : List UInt8 → List UInt8) {c : EscrowContract} {o : Outcome}
    (h : c.ballot.decided = some o) (ops : List EscrowOp) :
    (c.run keccak256 ops).ballot.decided = some o := by
  induction ops generalizing c with
  | nil => exact h
  | cons op ops ih => exact ih ((apply_step keccak256 c op).decided h)

theorem newXmr_sound (id : Nat) (buyer seller arbiter : String) (amount : Nat) :
    (newXmr id buyer seller arbiter amount).ballot.Sound 2 := by
  intro o
  cases o <;> simp [newXmr, EscrowContract.ballot, EscrowContract.confirmations,
    EscrowState.outcome]

/-- **Settlement is exclusive and final.** In every contract reached from `new_xmr`, two
    confirmations stand behind an outcome exactly when the contract is in that outcome's state,
    so never behind both; and a settled contract stays settled the same way, whatever is called
    on it next. -/
theorem settlement_exclusive (keccak256 : List UInt8 → List UInt8) (id : Nat)
    (buyer seller arbiter : String) (amount : Nat) (ops : List EscrowOp) :
    let c := (newXmr id buyer seller arbiter amount).run keccak256 ops
    (2 ≤ c.releaseConfirmations.card ↔ c.state = .released) ∧
    (2 ≤ c.refundConfirmations.card ↔ c.state = .refunded) ∧
    ¬ (2 ≤ c.releaseConfirmations.card ∧ 2 ≤ c.refundConfirmations.card) ∧
    (c.state = .released → ∀ more, (c.run keccak256 more).state = .released) ∧
    (c.state = .refunded → ∀ more, (c.run keccak256 more).state = .refunded) := by
  intro c
  have hsound : c.ballot.Sound 2 :=
    run_sound keccak256 (newXmr_sound id buyer seller arbiter amount) ops
  refine ⟨(hsound .release).trans outcome_eq_release, (hsound .refund).trans outcome_eq_refund,
    ?_, ?_, ?_⟩
  · rintro ⟨hrel, href⟩
    have hsame : Outcome.release = Outcome.refund := hsound.unique hrel href
    exact Outcome.noConfusion hsame
  · intro hstate more
    exact outcome_eq_release.mp (run_decided keccak256 (outcome_eq_release.mpr hstate) more)
  · intro hstate more
    exact outcome_eq_refund.mp (run_decided keccak256 (outcome_eq_refund.mpr hstate) more)

end Nexum.Escrow
