import Nexum.Escrow.Effects

/-!
# Histories of a contract

What a contract went through can be read off the state it is in. A contract in round 2 or later
has everybody's data of round 1, one in round 3 or later that of round 2, one that is ready or
later that of round 3 and a deposit address; nothing stored is blank, and nothing stored is ever
replaced (`rounds_complete`). No call takes a contract back (`run_forward`).

Whether money was there cannot be read off in this way. A dispute can be opened before the
contract is funded, and out of a dispute it can be settled: **a contract that is released or
refunded was funded, or went into dispute unfunded** (`settled_origin`), and the second does happen
(`released_unfunded`).
-/

namespace Nexum.Escrow

open Nexum.Lib Nexum.Lib.Method

/-! ## 1. The order of the states -/

/-- How far along a state is. -/
def EscrowState.rank : EscrowState → Nat
  | .new => 0
  | .xmrMsigR1 => 1
  | .xmrMsigR2 => 2
  | .xmrMsigR3 => 3
  | .ready => 4
  | .funded => 5
  | .dispute => 6
  | .released | .refunded => 7
  | .closed => 8

/-- The state `s`, or one after it. -/
def EscrowContract.reached (c : EscrowContract) (s : EscrowState) : Prop := s.rank ≤ c.state.rank

/-- **What a contract has got when it is in its state.** -/
structure Rounds (keccak256 : List UInt8 → List UInt8) (c : EscrowContract) : Prop where
  round2 : c.reached .xmrMsigR2 →
    c.roundComplete .xmrR1 = true ∧ (c.slot (.xmrR2 .arbiter)).isSome = true
  round3 : c.reached .xmrMsigR3 →
    c.roundComplete .xmrR2 = true ∧ (c.slot (.xmrR3 .arbiter)).isSome = true
  ready : c.reached .ready → c.roundComplete .xmrR3 = true
    ∧ ∃ address, c.depositAddress = some address ∧ isValidXmrAddress keccak256 address = true
  filled : ∀ s v, c.slot s = some v → isBlank v = false

section
variable {keccak256 : List UInt8 → List UInt8} {c c' : EscrowContract}

theorem Grows.isSome (h : Grows c c') {s : Slot} (hs : (c.slot s).isSome = true) :
    (c'.slot s).isSome = true := by
  obtain ⟨v, hv⟩ := Option.isSome_iff_exists.mp hs
  rw [h.slots s v hv]
  rfl

/-- Nothing is lost as long as the contract does not get to a state with new demands. -/
theorem Rounds.grows (h : Rounds keccak256 c) (hgrows : Grows c c')
    (h2 : c'.reached .xmrMsigR2 → c.reached .xmrMsigR2 ∨ c'.roundComplete .xmrR1 = true
      ∧ (c'.slot (.xmrR2 .arbiter)).isSome = true)
    (h3 : c'.reached .xmrMsigR3 → c.reached .xmrMsigR3 ∨ c'.roundComplete .xmrR2 = true
      ∧ (c'.slot (.xmrR3 .arbiter)).isSome = true)
    (h4 : c'.reached .ready → c.reached .ready ∨ c'.roundComplete .xmrR3 = true
      ∧ ∃ address, c'.depositAddress = some address
        ∧ isValidXmrAddress keccak256 address = true) : Rounds keccak256 c' where
  round2 hreached := by
    rcases h2 hreached with hbefore | hnow
    · obtain ⟨hround, hmine⟩ := h.round2 hbefore
      exact ⟨hgrows.roundComplete hround, hgrows.isSome hmine⟩
    · exact hnow
  round3 hreached := by
    rcases h3 hreached with hbefore | hnow
    · obtain ⟨hround, hmine⟩ := h.round3 hbefore
      exact ⟨hgrows.roundComplete hround, hgrows.isSome hmine⟩
    · exact hnow
  ready hreached := by
    rcases h4 hreached with hbefore | hnow
    · obtain ⟨hround, address, haddress, hvalid⟩ := h.ready hbefore
      exact ⟨hgrows.roundComplete hround, address, hgrows.slots .depositAddress address haddress,
        hvalid⟩
    · exact hnow
  filled s v hv := by
    rcases hgrows.fresh s v hv with hold | hnew
    · exact h.filled s v hold
    · exact hnew

theorem Rounds.later (h : Rounds keccak256 c) (hgrows : Grows c c') (hready : c.reached .ready) :
    Rounds keccak256 c' := by
  have hreached : ∀ s : EscrowState, s.rank ≤ EscrowState.ready.rank → c.reached s :=
    fun s hs => Nat.le_trans hs hready
  exact h.grows hgrows (fun _ => .inl (hreached _ (by decide)))
    (fun _ => .inl (hreached _ (by decide))) (fun _ => .inl hready)

/-- **One operation.** -/
theorem Rounds.step {op : EscrowOp} {r : Except MoneroArbitraError Unit}
    (h : Rounds keccak256 c) (hdoes : Does keccak256 c op r c') : Rounds keccak256 c' := by
  obtain ⟨hgrows, heffect, -⟩ := hdoes
  -- what was reached before, and what is not reached now
  have hbefore : ∀ {s s' : EscrowState}, c.state = s → s'.rank ≤ s.rank → c.reached s' := by
    rintro _ s' rfl hle
    exact hle
  have hnot : ∀ {s s' : EscrowState} {P : Prop}, c'.state = s → s.rank < s'.rank →
      c'.reached s' → P := by
    rintro _ s' P rfl hlt hle
    exact absurd hle (Nat.not_le.mpr hlt)
  cases heffect with
  | stays hs =>
    have hsame : ∀ s, c'.reached s → c.reached s := by
      intro s hreached
      unfold EscrowContract.reached at *
      rwa [hs] at hreached
    exact h.grows hgrows (fun hr => .inl (hsame _ hr)) (fun hr => .inl (hsame _ hr))
      (fun hr => .inl (hsame _ hr))
  | begun hs hs' =>
    exact h.grows hgrows (hnot hs' (by decide)) (hnot hs' (by decide)) (hnot hs' (by decide))
  | round2 hs hs' hround hmine =>
    exact h.grows hgrows (fun _ => .inr ⟨hround, hmine⟩) (hnot hs' (by decide))
      (hnot hs' (by decide))
  | round3 hs hs' hround hmine =>
    exact h.grows hgrows (fun _ => .inl (hbefore hs (by decide))) (fun _ => .inr ⟨hround, hmine⟩)
      (hnot hs' (by decide))
  | ready hs hs' hround haddress hvalid =>
    exact h.grows hgrows (fun _ => .inl (hbefore hs (by decide)))
      (fun _ => .inl (hbefore hs (by decide))) (fun _ => .inr ⟨hround, _, haddress, hvalid⟩)
  | funded hs hs' hbalance => exact h.later hgrows (hbefore hs (by decide))
  | disputed hs hs' | settled hs hs' =>
    rcases hs with hs | hs
    · exact h.later hgrows (hbefore hs (by decide))
    · exact h.later hgrows (hbefore hs (by decide))

theorem run_rounds (h : Rounds keccak256 c) (ops : List EscrowOp) :
    Rounds keccak256 (c.run keccak256 ops) := by
  induction ops generalizing c with
  | nil => exact h
  | cons op ops ih => exact ih (h.step (apply_does keccak256 c op))

theorem run_grows (ops : List EscrowOp) : Grows c (c.run keccak256 ops) := by
  induction ops generalizing c with
  | nil => exact Grows.refl c
  | cons op ops ih => exact (apply_does keccak256 c op).1.trans ih

theorem Effect.forward {c' : EscrowContract} {op : EscrowOp}
    {r : Except MoneroArbitraError Unit} (h : Effect keccak256 c c' op r) :
    c'.state = c.state ∨ c.state.rank < c'.state.rank ∧ c'.state ≠ .closed := by
  cases h with
  | stays hs => exact .inl hs
  | _ => grind [EscrowState.rank]

end

/-- **A contract only moves forward**, whatever is called on it: it stays in its state or goes to a
    later one, so that a settled one stays settled, and none is ever closed. -/
theorem run_forward (keccak256 : List UInt8 → List UInt8) (c : EscrowContract)
    (ops : List EscrowOp) :
    let s := (c.run keccak256 ops).state
    s = c.state ∨ c.state.rank < s.rank ∧ s ≠ .closed := by
  induction ops generalizing c with
  | nil => exact .inl rfl
  | cons op ops ih =>
    have hfirst := (apply_does keccak256 c op).2.1.forward
    rcases ih (op.apply keccak256 c) with hsame | ⟨hlater, hopen⟩
    · exact hsame ▸ hfirst
    · refine .inr ⟨?_, hopen⟩
      rcases hfirst with hsame | ⟨hrank, -⟩
      · exact hsame ▸ hlater
      · exact hrank.trans hlater

/-- **Rounds are complete, and what is stored stays.** In every contract reached from `new_xmr`, by
    calls that succeed or fail: the data of the rounds behind it is there, with the arbiter's of
    the round it is in, and from `Ready` on a valid deposit address; no stored text is blank; and
    whatever is called next, every slot and every record of a dispute that is set keeps its
    value. -/
theorem rounds_complete (keccak256 : List UInt8 → List UInt8) (id : Nat)
    (buyer seller arbiter : String) (amount : Nat) (ops : List EscrowOp) :
    let c := (newXmr id buyer seller arbiter amount).run keccak256 ops
    (c.reached .xmrMsigR2 →
      c.roundComplete .xmrR1 = true ∧ (c.slot (.xmrR2 .arbiter)).isSome = true) ∧
    (c.reached .xmrMsigR3 →
      c.roundComplete .xmrR2 = true ∧ (c.slot (.xmrR3 .arbiter)).isSome = true) ∧
    (c.reached .ready → c.roundComplete .xmrR3 = true
      ∧ ∃ address, c.depositAddress = some address
        ∧ isValidXmrAddress keccak256 address = true) ∧
    (∀ s v, c.slot s = some v → isBlank v = false) ∧
    ∀ more, let c' := c.run keccak256 more
      (∀ s v, c.slot s = some v → c'.slot s = some v) ∧
      (∀ who, c.disputeOpenedBy = some who → c'.disputeOpenedBy = some who) ∧
      (∀ text, c.disputeReason = some text → c'.disputeReason = some text) ∧
      (∀ ts, c.disputeOpenedAt = some ts → c'.disputeOpenedAt = some ts) := by
  intro c
  have hempty : ∀ s, (newXmr id buyer seller arbiter amount).slot s = none := by
    intro s
    unfold EscrowContract.slot
    split <;> rfl
  have hnew : Rounds keccak256 (newXmr id buyer seller arbiter amount) := by
    refine ⟨fun h => absurd h (Nat.not_succ_le_zero _), fun h => absurd h (Nat.not_succ_le_zero _),
      fun h => absurd h (Nat.not_succ_le_zero _), fun s v hv => ?_⟩
    rw [hempty] at hv
    cases hv
  have hrounds : Rounds keccak256 c := run_rounds hnew ops
  refine ⟨hrounds.round2, hrounds.round3, hrounds.ready, hrounds.filled, ?_⟩
  intro more c'
  have hgrows : Grows c c' := run_grows more
  exact ⟨hgrows.slots, hgrows.opener, hgrows.reason, hgrows.openedAt⟩

/-! ## 2. Where a settlement comes from -/

/-- The contract has been funded, or is in dispute, or has settled. -/
def EscrowState.underway : EscrowState → Bool
  | .funded | .dispute | .released | .refunded => true
  | _ => false

/-- The step that takes a contract there: the money is there, or a dispute is opened without it. -/
def Takes (keccak256 : List UInt8 → List UInt8) (amount : Nat) (c : EscrowContract)
    (op : EscrowOp) : Prop :=
  op.result keccak256 c = .ok () ∧
    ((∃ balance, op = .markFunded balance ∧ amount ≤ balance)
      ∨ ∃ now who reason, op = .openDispute now who reason ∧ c.state = .ready)

section
variable {keccak256 : List UInt8 → List UInt8} {c : EscrowContract}

/-- **One operation**: a contract gets underway by such a step only. -/
theorem underway_of_apply {op : EscrowOp} (h : c.state.underway = false)
    (h' : (op.apply keccak256 c).state.underway = true) :
    Takes keccak256 c.amountAtomic c op := by
  obtain ⟨-, heffect, -⟩ := apply_does keccak256 c op
  have hno : ∀ s : EscrowState, (op.apply keccak256 c).state = s → s.underway = true := by
    rintro _ rfl
    exact h'
  generalize hresult : op.result keccak256 c = r at heffect
  cases heffect with
  | stays hs =>
    rw [← hs, h'] at h
    cases h
  | begun hs hs' => cases hno _ hs'
  | round2 hs hs' hround hmine => cases hno _ hs'
  | round3 hs hs' hround hmine => cases hno _ hs'
  | ready hs hs' hround haddress hvalid => cases hno _ hs'
  | funded hs hs' hbalance => exact ⟨hresult, .inl ⟨_, rfl, hbalance⟩⟩
  | disputed hs hs' =>
    rcases hs with hs | hs
    · exact ⟨hresult, .inr ⟨_, _, _, rfl, hs⟩⟩
    · rw [hs] at h
      cases h
  | settled hs hs' =>
    rcases hs with hs | hs <;> rw [hs] at h <;> cases h

theorem underway_of_run {ops : List EscrowOp} (h : c.state.underway = false)
    (h' : (c.run keccak256 ops).state.underway = true) :
    ∃ before op after, ops = before ++ op :: after
      ∧ Takes keccak256 c.amountAtomic (c.run keccak256 before) op := by
  induction ops generalizing c with
  | nil =>
    rw [show (c.run keccak256 []).state = c.state from rfl, h] at h'
    cases h'
  | cons op ops ih =>
    by_cases hnow : (op.apply keccak256 c).state.underway = true
    · exact ⟨[], op, ops, rfl, underway_of_apply h hnow⟩
    · have hamount := (apply_does keccak256 c op).1.amount
      obtain ⟨before, op', after, rfl, htakes⟩ := ih (Bool.not_eq_true _ ▸ hnow) h'
      rw [hamount] at htakes
      exact ⟨op :: before, op', after, rfl, htakes⟩

end

/-- **A settled contract was funded, or went into dispute unfunded**: among the calls that led to it
    there is a `mark_funded` that succeeded with at least the amount, or an `open_dispute` that
    succeeded while the contract was `Ready`. -/
theorem settled_origin (keccak256 : List UInt8 → List UInt8) (id : Nat)
    (buyer seller arbiter : String) (amount : Nat) (ops : List EscrowOp)
    (hsettled : ((newXmr id buyer seller arbiter amount).run keccak256 ops).state = .released
      ∨ ((newXmr id buyer seller arbiter amount).run keccak256 ops).state = .refunded) :
    ∃ before op after, ops = before ++ op :: after ∧
      let c := (newXmr id buyer seller arbiter amount).run keccak256 before
      op.result keccak256 c = .ok () ∧
        ((∃ balance, op = .markFunded balance ∧ amount ≤ balance)
          ∨ ∃ now who reason, op = .openDispute now who reason ∧ c.state = .ready) := by
  have hunderway : ((newXmr id buyer seller arbiter amount).run keccak256 ops).state.underway
      = true := by
    rcases hsettled with h | h <;> rw [h] <;> rfl
  exact underway_of_run rfl hunderway

/-- Agrees with Keccak-256 on the payload of `stagenetAddress`. -/
def stagenetKeccak : List UInt8 → List UInt8 := fun _ =>
  [213, 230, 89, 211, 66, 18, 11, 129, 165, 135, 98, 69, 186, 99, 101, 82, 39, 239, 12, 127, 122,
    134, 225, 82, 39, 234, 52, 77, 230, 232, 248, 198]

def stagenetAddress : String :=
  "572ycQUtcB2hKT8ivXBYCjfvS1QCWhYQpaYR9K1QPV6QQPrTugLpNDTByW72Nju7SL4RZd2UqhLaWWCWApR5Gfi8LGtUqsx"

/-- Three rounds and a deposit address. -/
def setUp : List EscrowOp :=
  [.setArbiterRound1 "a1", .submitRound1 .buyer "b1" none, .submitRound1 .seller "s1" none,
    .setArbiterRound2 "a2", .submitRound2 .buyer "b2", .submitRound2 .seller "s2",
    .setArbiterRound3 "a3", .submitRound3 .buyer "b3", .submitRound3 .seller "s3",
    .setDepositAddress stagenetAddress]

theorem settled_origin_funded : ∃ before op after,
    setUp ++ [.markFunded 5, .confirmRelease .buyer none, .confirmRelease .arbiter none]
        = before ++ op :: after
      ∧ EscrowOp.result stagenetKeccak
        ((newXmr 1 "buyer" "seller" "arbiter" 5).run stagenetKeccak before) op = .ok () := by
  have hsettled : ((newXmr 1 "buyer" "seller" "arbiter" 5).run stagenetKeccak (setUp ++
      [.markFunded 5, .confirmRelease .buyer none, .confirmRelease .arbiter none])).state
      = .released := by
    decide +kernel
  obtain ⟨before, op, after, hops, hresult, -⟩ := settled_origin _ _ _ _ _ _ _ (.inl hsettled)
  exact ⟨before, op, after, hops, hresult⟩

/-- **Released, and never funded**: a dispute is opened as soon as the contract is ready, and two
    parties confirm. -/
theorem released_unfunded :
    let ops := setUp ++ [.openDispute 1 .buyer none, .confirmRelease .buyer none,
      .confirmRelease .arbiter none]
    ((newXmr 1 "buyer" "seller" "arbiter" 5).run stagenetKeccak ops).state = .released
      ∧ ∀ balance, EscrowOp.markFunded balance ∉ ops := by
  refine ⟨?_, ?_⟩
  · decide +kernel
  · intro balance
    simp [setUp]

/-! ## 3. Snapshots -/

/-- **A dispute survives its snapshot.** What a contract reached from `new_xmr` exports, any contract
    takes in as it is, unless the clock showed no positive time when the dispute was opened. -/
theorem dispute_restored (keccak256 : List UInt8 → List UInt8) (id : Nat)
    (buyer seller arbiter : String) (amount : Nat) (ops : List EscrowOp) (c₀ : EscrowContract) :
    let c := (newXmr id buyer seller arbiter amount).run keccak256 ops
    ∀ who reason ts, c.disputeSnapshot = (who, reason, ts) →
      (importDisputeSnapshot who reason ts).call c₀ = if ts.any (· ≤ 0) then
        (.error (.invalidArgument "dispute_opened_at must be > 0"), c₀)
      else (.ok (), { c₀ with
        disputeOpenedBy := who, disputeReason := reason, disputeOpenedAt := ts }) := by
  rintro c _ _ _ ⟨⟩
  have hgrows : Grows (newXmr id buyer seller arbiter amount) c := run_grows ops
  have hreason : normalizeDisputeReason c.disputeReason = pure c.disputeReason := by
    cases hr : c.disputeReason with
    | none => rfl
    | some text =>
      obtain ⟨htrim, hne, hlen⟩ := (hgrows.given text hr).resolve_left fun h => by cases h
      simp only [normalizeDisputeReason, htrim, if_neg hne, if_neg (Nat.not_lt.mpr hlen)]
  unfold importDisputeSnapshot failIf
  rw [hreason]
  split_ifs <;> rfl

end Nexum.Escrow
