import Nexum.Escrow.Contract
import Nexum.Lib.Check
import Nexum.Lib.Saturating

/-!
# When an escrow is funded

`funded_check`: the fee on top of the amount is a share of it, rounded up, or a floor if that is
more; the escrow is funded as soon as the unlocked balance covers both. The share is computed in 128
bits and has to fit into 64, which it always does for a share of at most the whole
(`percentFee_le`), so **the sum of amount and fee is the only thing that can overflow**. The state
machine has a check of its own, against the amount alone, and it never fails here.
-/

namespace Nexum.Escrow

open Nexum.Lib Nexum.Lib.Method

structure EscrowFeePolicy where
  minEscrowAmountAtomic : UInt64
  feeFloorAtomic : UInt64
  feeBps : UInt32

structure EscrowFundingQuote where
  feeAtomic : Nat
  requiredFundingAtomic : Nat

def bpsDenominator : Nat := 10000

def u128Max : Nat := 2 ^ 128 - 1

def EscrowFeePolicy.percentFee (p : EscrowFeePolicy) (amount : UInt64) : Nat :=
  if p.feeBps = 0 then 0
  else min (amount.toNat * p.feeBps.toNat + (bpsDenominator - 1)) u128Max / bpsDenominator

def EscrowFeePolicy.quote (p : EscrowFeePolicy) (amount : UInt64) :
    Except MoneroArbitraError EscrowFundingQuote := do
  Check.failIf (p.percentFee amount > u64Max) (.invalidArgument
    s!"computed percent fee does not fit u64 for amount_atomic={amount}, fee_bps={p.feeBps}")
  let feeAtomic := max p.feeFloorAtomic.toNat (p.percentFee amount)
  Check.failIf (amount.toNat + feeAtomic > u64Max) (.invalidArgument
    s!"required funding overflow: amount_atomic={amount}, fee_atomic={feeAtomic}")
  pure ⟨feeAtomic, amount.toNat + feeAtomic⟩

/-- The environment's variables, each as a number or the error that reading it gives. -/
structure FeeEnv where
  minAmount : Except MoneroArbitraError UInt64
  feeFloor : Except MoneroArbitraError UInt64
  feeBps : Except MoneroArbitraError UInt64

def escrowFeePolicyFromEnv (env : FeeEnv) : Except MoneroArbitraError EscrowFeePolicy := do
  let minEscrowAmountAtomic ← env.minAmount
  let feeFloorAtomic ← env.feeFloor
  let feeBps ← env.feeBps
  Check.failIf (feeBps.toNat ≥ 2 ^ 32)
    (.invalidArgument s!"ESCROW_FEE_BPS out of range for u32: {feeBps}")
  Check.failIf (feeBps.toNat > 10000)
    (.invalidArgument s!"ESCROW_FEE_BPS must be <= 10000, got {feeBps}")
  pure ⟨minEscrowAmountAtomic, feeFloorAtomic, feeBps.toUInt32⟩

/-- `funded_check`, on the state that was parsed. -/
def fundedCheck (env : FeeEnv) (state : EscrowState) (amount unlockedBalance : UInt64) :
    Except MoneroArbitraError EscrowState := do
  let c := (newXmr 0 "buyer" "seller" "server" amount.toNat).withState state
  let policy ← escrowFeePolicyFromEnv env
  let quote ← policy.quote amount
  if c.state = .ready ∧ unlockedBalance.toNat ≥ quote.requiredFundingAtomic then
    match (markFunded unlockedBalance.toNat).call c with
    | (.ok _, c) => pure c.state
    | (.error e, _) => throw e
  else pure c.state

variable {p : EscrowFeePolicy} {amount : UInt64}

/-! ## The fee -/

/-- **The share is the least number that is enough.** -/
theorem percentFee_le_iff (hbps : p.feeBps.toNat ≤ 10000) {f : Nat} :
    p.percentFee amount ≤ f ↔ amount.toNat * p.feeBps.toNat ≤ 10000 * f := by
  have hamount := amount.toNat_lt
  have hproduct : amount.toNat * p.feeBps.toNat ≤ 2 ^ 64 * 10000 :=
    Nat.mul_le_mul (Nat.le_of_lt hamount) hbps
  unfold EscrowFeePolicy.percentFee
  split
  · rename_i hzero
    simp [hzero]
  · have hmin : min (amount.toNat * p.feeBps.toNat + (bpsDenominator - 1)) u128Max
        = amount.toNat * p.feeBps.toNat + (bpsDenominator - 1) := by
      refine Nat.min_eq_left ?_
      simp only [bpsDenominator, u128Max]
      omega
    rw [hmin, bpsDenominator]
    omega

theorem percentFee_le (hbps : p.feeBps.toNat ≤ 10000) : p.percentFee amount ≤ amount.toNat := by
  rw [percentFee_le_iff hbps, Nat.mul_comm]
  exact Nat.mul_le_mul_right _ hbps

/-- The fee on top of an amount, over the unbounded numbers. -/
def EscrowFeePolicy.fee (p : EscrowFeePolicy) (amount : UInt64) : Nat :=
  max p.feeFloorAtomic.toNat (p.percentFee amount)

theorem quote_eq_ok (hbps : p.feeBps.toNat ≤ 10000) {q : EscrowFundingQuote} :
    p.quote amount = .ok q
      ↔ amount.toNat + p.fee amount ≤ u64Max ∧ q = ⟨p.fee amount, amount.toNat + p.fee amount⟩ := by
  have hfits : ¬ p.percentFee amount > u64Max :=
    Nat.not_lt.mpr ((percentFee_le hbps).trans (toNat_le_u64Max amount))
  simp only [EscrowFeePolicy.quote, Check.bind_eq_ok, Check.failIf_eq_ok, Check.exists_unit,
    Check.pure_eq_ok, hfits, not_false_eq_true, true_and, Nat.not_lt, EscrowFeePolicy.fee]
  exact and_congr_right fun _ => eq_comm

theorem escrowFeePolicyFromEnv_bps {env : FeeEnv} (h : escrowFeePolicyFromEnv env = .ok p) :
    p.feeBps.toNat ≤ 10000 := by
  simp only [escrowFeePolicyFromEnv, Check.bind_eq_ok, Check.failIf_eq_ok, Check.exists_unit,
    Check.pure_eq_ok] at h
  obtain ⟨_, -, _, -, bps, -, -, hle, rfl⟩ := h
  show bps.toUInt32.toNat ≤ 10000
  rw [UInt64.toNat_toUInt32]
  omega

/-- The state machine's own check passes after the gate. -/
theorem markFunded_call {c : EscrowContract} {balance : Nat} (hready : c.state = .ready)
    (hbalance : c.amountAtomic ≤ balance) :
    (markFunded balance).call c = (.ok ⟨.ready, .funded, "funded"⟩, c.withState .funded) := by
  have hends : (markFunded balance).Ends c fun r c' =>
      r = .ok ⟨.ready, .funded, "funded"⟩ ∧ c' = c.withState .funded := by
    simp [markFunded, ensureStateIn, transition, setState, ends_bind, hready, hbalance,
      EscrowContract.withState, -bind_pure_comp]
  exact Prod.ext hends.1 hends.2

/-- **The funding check is exact**, for every policy the environment can give. -/
theorem funding_exact (env : FeeEnv) (policy : EscrowFeePolicy)
    (henv : escrowFeePolicyFromEnv env = .ok policy) (amount balance : UInt64) :
    -- the fee is the least one that is enough
    IsLeast {f : Nat | policy.feeFloorAtomic.toNat ≤ f
      ∧ amount.toNat * policy.feeBps.toNat ≤ 10000 * f} (policy.fee amount)
    ∧ (fundedCheck env .ready amount balance = .ok .funded
      ↔ amount.toNat + policy.fee amount ≤ balance.toNat)
    ∧ (∀ state, (∃ e, fundedCheck env state amount balance = .error e)
      ↔ u64Max < amount.toNat + policy.fee amount)
    ∧ (∀ state, amount.toNat + policy.fee amount ≤ u64Max →
      (state ≠ .ready ∨ balance.toNat < amount.toNat + policy.fee amount) →
      fundedCheck env state amount balance = .ok state)
    ∧ ∀ more : UInt64, amount ≤ more →
      amount.toNat + policy.fee amount ≤ more.toNat + policy.fee more := by
  have hbps := escrowFeePolicyFromEnv_bps henv
  -- what the check comes to, once the sum fits
  have hrun : ∀ state, amount.toNat + policy.fee amount ≤ u64Max →
      fundedCheck env state amount balance
        = .ok (if state = .ready ∧ amount.toNat + policy.fee amount ≤ balance.toNat then .funded
          else state) := by
    intro state hsum
    have hquote := (quote_eq_ok hbps).mpr ⟨hsum, rfl⟩
    simp only [fundedCheck, henv, hquote, bind, Except.bind]
    show (if state = .ready ∧ amount.toNat + policy.fee amount ≤ balance.toNat then _ else _) = _
    by_cases hgate : state = .ready ∧ amount.toNat + policy.fee amount ≤ balance.toNat
    · have hcall := markFunded_call
        (c := (newXmr 0 "buyer" "seller" "server" amount.toNat).withState state) hgate.1
        ((Nat.le_add_right _ _).trans hgate.2)
      rw [if_pos hgate, if_pos hgate, hcall]
      rfl
    · rw [if_neg hgate, if_neg hgate]
      rfl
  have hover : ∀ state, u64Max < amount.toNat + policy.fee amount →
      ∃ e, fundedCheck env state amount balance = .error e := by
    intro state hsum
    cases hquote : policy.quote amount with
    | ok q => exact absurd ((quote_eq_ok hbps).mp hquote).1 (Nat.not_le.mpr hsum)
    | error e =>
      refine ⟨e, ?_⟩
      simp only [fundedCheck, henv, hquote, bind, Except.bind]
  have herror : ∀ state, (∃ e, fundedCheck env state amount balance = .error e)
      ↔ u64Max < amount.toNat + policy.fee amount := by
    intro state
    refine ⟨fun ⟨e, he⟩ => Nat.lt_of_not_le fun hsum => ?_, hover state⟩
    rw [hrun state hsum] at he
    cases he
  refine ⟨⟨⟨Nat.le_max_left .., ?_⟩, fun f hf => ?_⟩, ?_, herror, fun state hsum hno => ?_, ?_⟩
  · exact (percentFee_le_iff hbps).mp (Nat.le_max_right ..)
  · exact Nat.max_le.mpr ⟨hf.1, (percentFee_le_iff hbps).mpr hf.2⟩
  · by_cases hsum : amount.toNat + policy.fee amount ≤ u64Max
    · rw [hrun _ hsum]
      by_cases hbalance : amount.toNat + policy.fee amount ≤ balance.toNat <;> simp [hbalance]
    · obtain ⟨e, he⟩ := hover .ready (Nat.lt_of_not_le hsum)
      have hbalance : ¬ amount.toNat + policy.fee amount ≤ balance.toNat := fun hle =>
        hsum (hle.trans (toNat_le_u64Max balance))
      simp [he, hbalance]
  · rw [hrun state hsum, if_neg]
    rintro ⟨hready, hbalance⟩
    rcases hno with hno | hno
    · exact hno hready
    · omega
  · intro more hle
    have hle := UInt64.le_iff_toNat_le.mp hle
    have hpercent : policy.percentFee amount ≤ policy.percentFee more :=
      (percentFee_le_iff hbps).mpr ((Nat.mul_le_mul_right _ hle).trans
        ((percentFee_le_iff hbps).mp le_rfl))
    exact Nat.add_le_add hle (max_le_max le_rfl hpercent)

theorem funding_exact_sample :
    fundedCheck ⟨.ok 1, .ok 10, .ok 250⟩ .ready 10000 10250 = .ok .funded :=
  (funding_exact ⟨.ok 1, .ok 10, .ok 250⟩ ⟨1, 10, 250⟩ rfl 10000 10250).2.1.mpr
    (by decide)

end Nexum.Escrow
