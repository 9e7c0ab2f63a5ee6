import Mathlib.Data.List.Nodup
import Nexum.Signer.Payout

/-!
# What a signer proposes

`proposal_recipients_from_snapshot` turns the rules of a snapshot into the recipients of a transfer:
the required rules, or all of them if none is required, each with its exact amount or with the
amount the caller chose. It **goes through the rules**, where `validate_transfer_against_snapshot`
**looks an address up** and takes the first rule that names it. The two agree as long as the first
rule for an address allows what a later one proposes (`proposal_accepted_iff`), and so whenever no
address is named twice.
-/

namespace Nexum.Signer

open Nexum.Lib.Check
open Nexum.Transport (EscrowAction)

/-- The rules that are paid: the required ones, or all if there is none. -/
def PayoutPolicy.candidateRules (policy : PayoutPolicy) : List RecipientRule :=
  if policy.allowedRecipients.any (·.required) then policy.allowedRecipients.filter (·.required)
  else policy.allowedRecipients

def proposedAmount (amountOverride : Option UInt64) (rule : RecipientRule) :
    Except String UInt64 :=
  match rule.amount with
  | .exact amount => pure amount
  | .range min max => do
    let amount ← okOr amountOverride
      s!"amount_override_atomic is required for range recipient '{rule.address}'"
    failIf (amount < min ∨ amount > max)
      s!"amount_override_atomic={amount} outside [{min}..{max}] for '{rule.address}'"
    pure amount

def proposedRecipients (amountOverride : Option UInt64) :
    List RecipientRule → Except String (List TransferRecipient)
  | [] => pure []
  | rule :: rest => do
    let amount ← proposedAmount amountOverride rule
    let out ← proposedRecipients amountOverride rest
    pure (⟨rule.address, amount⟩ :: out)

def proposalRecipientsFromSnapshot (snapshot : ContractSnapshot) (action : EscrowAction)
    (amountOverride : Option UInt64) : Except String (List TransferRecipient) := do
  let rules := (snapshot.policy action).candidateRules
  failIf (rules.isEmpty = true) "snapshot policy has no recipients"
  proposedRecipients amountOverride rules

/-- Every rule has its recipient, and every recipient its rule. -/
theorem proposedRecipients_eq_ok {o : Option UInt64} {rules : List RecipientRule}
    {rs : List TransferRecipient} (h : proposedRecipients o rules = .ok rs) :
    (∀ rule ∈ rules, ∃ amount, proposedAmount o rule = .ok amount)
      ∧ ∀ r, r ∈ rs ↔ ∃ rule ∈ rules, ∃ amount, proposedAmount o rule = .ok amount
          ∧ r = ⟨rule.address, amount⟩ := by
  induction rules generalizing rs with
  | nil =>
    cases h
    simp
  | cons rule rest ih =>
    simp only [proposedRecipients, bind_eq_ok, pure_eq_ok] at h
    obtain ⟨amount, hamount, out, hout, rfl⟩ := h
    obtain ⟨hall, hmem⟩ := ih hout
    constructor
    · intro rule' hrule
      rcases List.mem_cons.mp hrule with rfl | hrule
      · exact ⟨amount, hamount⟩
      · exact hall rule' hrule
    · intro r
      simp [hmem, hamount]

/-- The checks, for a transfer of the kind that is proposed. -/
theorem validate_plain_iff {snapshot : ContractSnapshot} {action : EscrowAction} {t : TransferCheck}
    (hcount : t.txCount = 1) (hfee : t.fee ≤ snapshot.feeCapAtomic) (hunlock : t.unlockTime = 0)
    (hdummy : t.dummyOutputs = 0) :
    validateTransferAgainstSnapshot snapshot action t = .ok ()
      ↔ (∀ r ∈ t.recipients, ∃ rule, (snapshot.policy action).ruleFor r.address = some rule
          ∧ rule.amount.Allows r.amount.toNat)
        ∧ ∀ rule ∈ (snapshot.policy action).allowedRecipients, rule.required = true →
          ∃ r ∈ t.recipients, r.address = rule.address := by
  have hcap : ¬ t.fee > snapshot.feeCapAtomic := UInt64.not_lt.mpr hfee
  simp only [validateTransferAgainstSnapshot, bind_eq_ok, failIf_eq_ok, exists_unit, forM_eq_ok,
    checkRecipient, checkRequired, okOr_eq_ok, checkAmount_eq_ok, hcount, hcap, hunlock, hdummy]
  simp

/-- The candidates, said of the rules themselves. -/
theorem mem_candidateRules {policy : PayoutPolicy} {rule : RecipientRule} :
    rule ∈ policy.candidateRules ↔ rule ∈ policy.allowedRecipients
      ∧ (rule.required = true ∨ ∀ other ∈ policy.allowedRecipients, other.required = false) := by
  unfold PayoutPolicy.candidateRules
  split
  · rename_i hany
    obtain ⟨other, hother, hrequired⟩ := List.any_eq_true.mp hany
    rw [List.mem_filter]
    refine and_congr_right fun _ => ⟨.inl, fun h => h.resolve_right fun hnone => ?_⟩
    exact absurd (hnone other hother) (by simp [hrequired])
  · rename_i hany
    refine ⟨fun h => ⟨h, .inr ?_⟩, fun h => h.1⟩
    simpa using hany

/-- What a rule asks for: its own amount, or the one the caller chose if it leaves a range. -/
def RecipientRule.Asks (rule : RecipientRule) (amountOverride : Option UInt64)
    (amount : UInt64) : Prop :=
  match rule.amount with
  | .exact own => amount = own
  | .range _ _ => amountOverride = some amount

/-- Of the rules that are paid (those that are required, or all if none is), each asks for an
    amount that the first rule for its address allows. -/
def PayoutPolicy.FirstAllows (policy : PayoutPolicy) (amountOverride : Option UInt64) : Prop :=
  ∀ rule ∈ policy.allowedRecipients,
    (rule.required = true ∨ ∀ other ∈ policy.allowedRecipients, other.required = false) →
    ∀ amount, rule.Asks amountOverride amount →
      ∀ first, policy.ruleFor rule.address = some first → first.amount.Allows amount.toNat

/-- If an amount is proposed at all, it is the one that is asked for. -/
theorem asks_iff {o : Option UInt64} {rule : RecipientRule} {amount amount' : UInt64}
    (h : proposedAmount o rule = .ok amount) : rule.Asks o amount' ↔ amount' = amount := by
  unfold proposedAmount at h
  unfold RecipientRule.Asks
  split at h
  · cases h
    exact .rfl
  · simp only [bind_eq_ok, okOr_eq_ok, failIf_eq_ok, exists_unit, pure_eq_ok] at h
    obtain ⟨_, ho, -, rfl⟩ := h
    rw [ho, Option.some.injEq, eq_comm]

/-- What a rule proposes it allows. -/
theorem proposedAmount_allowed {o : Option UInt64} {rule : RecipientRule} {amount : UInt64}
    (h : proposedAmount o rule = .ok amount) : rule.amount.Allows amount.toNat := by
  unfold proposedAmount at h
  split at h
  · rename_i hexact
    cases h
    rw [hexact]
    rfl
  · rename_i min max hrange
    simp only [bind_eq_ok, okOr_eq_ok, failIf_eq_ok, exists_unit, pure_eq_ok, not_or] at h
    obtain ⟨_, -, ⟨hmin, hmax⟩, rfl⟩ := h
    rw [hrange]
    exact ⟨UInt64.le_iff_toNat_le.mp (UInt64.not_lt.mp hmin),
      UInt64.le_iff_toNat_le.mp (UInt64.not_lt.mp hmax)⟩

/-- The transfers that a proposal stands for: these recipients in any order, one transaction, the
    fee within the cap, no unlock time and no dummy outputs. -/
structure Proposed (snapshot : ContractSnapshot) (rs : List TransferRecipient)
    (t : TransferCheck) : Prop where
  recipients : t.recipients.Perm rs
  count : t.txCount = 1
  fee : t.fee ≤ snapshot.feeCapAtomic
  unlock : t.unlockTime = 0
  dummy : t.dummyOutputs = 0

/-- **A proposal is accepted exactly if** the first rule for the address of each rule that is paid
    allows the amount that rule asks for. That is so if no two rules name one address. -/
theorem proposal_accepted_iff (snapshot : ContractSnapshot) (action : EscrowAction)
    (o : Option UInt64) {rs : List TransferRecipient}
    (h : proposalRecipientsFromSnapshot snapshot action o = .ok rs) :
    ((∀ t, Proposed snapshot rs t → validateTransferAgainstSnapshot snapshot action t = .ok ())
      ↔ (snapshot.policy action).FirstAllows o)
    ∧ (((snapshot.policy action).allowedRecipients.map (·.address)).Nodup →
      ∀ t, Proposed snapshot rs t →
        validateTransferAgainstSnapshot snapshot action t = .ok ()) := by
  simp only [proposalRecipientsFromSnapshot, bind_eq_ok, failIf_eq_ok, exists_unit] at h
  obtain ⟨hall, hmem⟩ := proposedRecipients_eq_ok h.2
  -- every address that is paid has a rule, and every required rule is paid
  have hrule : ∀ r ∈ rs, ∃ rule, (snapshot.policy action).ruleFor r.address = some rule := by
    intro r hr
    obtain ⟨rule, hcandidate, _, -, rfl⟩ := (hmem r).mp hr
    refine Option.isSome_iff_exists.mp (List.find?_isSome.mpr ⟨rule, ?_, ?_⟩)
    · exact (mem_candidateRules.mp hcandidate).1
    · simp
  have hpaid : ∀ rule ∈ (snapshot.policy action).allowedRecipients, rule.required = true →
      ∃ r ∈ rs, r.address = rule.address := by
    intro rule hallowed hrequired
    have hcandidate := mem_candidateRules.mpr ⟨hallowed, .inl hrequired⟩
    obtain ⟨amount, hamount⟩ := hall rule hcandidate
    exact ⟨_, (hmem _).mpr ⟨rule, hcandidate, amount, hamount, rfl⟩, rfl⟩
  have hiff : (∀ t, Proposed snapshot rs t →
        validateTransferAgainstSnapshot snapshot action t = .ok ())
      ↔ (snapshot.policy action).FirstAllows o := by
    constructor
    · intro haccepted rule hallowed hpays amount hasks first hfirst
      have hcandidate := mem_candidateRules.mpr ⟨hallowed, hpays⟩
      obtain ⟨proposed, hproposed⟩ := hall rule hcandidate
      obtain rfl := (asks_iff hproposed).mp hasks
      have hvalid := haccepted ⟨1, rs, 0, 0, 0⟩
        ⟨.refl _, rfl, UInt64.le_iff_toNat_le.mpr (Nat.zero_le _), rfl, rfl⟩
      obtain ⟨hamounts, -⟩ := (validate_plain_iff rfl
        (UInt64.le_iff_toNat_le.mpr (Nat.zero_le _)) rfl rfl).mp hvalid
      obtain ⟨first', hfirst', hallows⟩ :=
        hamounts _ ((hmem _).mpr ⟨rule, hcandidate, amount, hproposed, rfl⟩)
      cases hfirst.symm.trans hfirst'
      exact hallows
    · intro hallows t ht
      refine (validate_plain_iff ht.count ht.fee ht.unlock ht.dummy).mpr ⟨fun r hr => ?_, ?_⟩
      · have hr := ht.recipients.mem_iff.mp hr
        obtain ⟨first, hfirst⟩ := hrule r hr
        obtain ⟨rule, hcandidate, amount, hamount, rfl⟩ := (hmem r).mp hr
        obtain ⟨hallowed, hpays⟩ := mem_candidateRules.mp hcandidate
        exact ⟨first, hfirst,
          hallows rule hallowed hpays amount ((asks_iff hamount).mpr rfl) first hfirst⟩
      · intro rule hallowed hrequired
        obtain ⟨r, hr, haddress⟩ := hpaid rule hallowed hrequired
        exact ⟨r, ht.recipients.mem_iff.mpr hr, haddress⟩
  refine ⟨hiff, fun hnodup => hiff.mpr fun rule hallowed hpays amount hasks first hfirst => ?_⟩
  -- the first rule for the address is the one that is paid
  have hsame : first.address = rule.address := by
    simpa using List.find?_some hfirst
  obtain rfl : first = rule :=
    List.inj_on_of_nodup_map hnodup (List.mem_of_find?_eq_some hfirst) hallowed hsame
  obtain ⟨proposed, hproposed⟩ := hall first (mem_candidateRules.mpr ⟨hallowed, hpays⟩)
  obtain rfl := (asks_iff hproposed).mp hasks
  exact proposedAmount_allowed hproposed

/-- A snapshot that pays these rules on release. -/
def payingRules (rules : List RecipientRule) : ContractSnapshot :=
  { sellerGets100 with
    releasePolicy := { sellerGets100.releasePolicy with allowedRecipients := rules } }

/-- Two rules are paid, one of them an amount the caller chose, and one is not. -/
def threeRules : ContractSnapshot :=
  payingRules [⟨"seller", .exact 100, true⟩, ⟨"arbiter", .range 1 10, true⟩,
    ⟨"buyer", .exact 7, false⟩]

theorem proposal_accepted_iff_sample :
    proposalRecipientsFromSnapshot threeRules .release (some 5)
        = .ok [⟨"seller", 100⟩, ⟨"arbiter", 5⟩]
      ∧ validateTransferAgainstSnapshot threeRules .release
        ⟨1, [⟨"arbiter", 5⟩, ⟨"seller", 100⟩], 0, 0, 0⟩ = .ok ()
      ∧ (threeRules.policy .release).FirstAllows (some 5) := by
  have hproposed : proposalRecipientsFromSnapshot threeRules .release (some 5)
      = .ok [⟨"seller", 100⟩, ⟨"arbiter", 5⟩] := by
    decide +kernel
  obtain ⟨hiff, hnodup⟩ := proposal_accepted_iff threeRules .release (some 5) hproposed
  have haccepted := hnodup (by decide +kernel)
  exact ⟨hproposed, haccepted _ ⟨.swap _ _ _, rfl, by decide, rfl, rfl⟩, hiff.mp haccepted⟩

/-- **Proposed and refused.** Two rules name the seller, and the first one does not allow what the
    second proposes. -/
theorem proposal_refused :
    proposalRecipientsFromSnapshot
        (payingRules [⟨"seller", .exact 100, true⟩, ⟨"seller", .exact 5, true⟩]) .release none
      = .ok [⟨"seller", 100⟩, ⟨"seller", 5⟩]
    ∧ validateTransferAgainstSnapshot
        (payingRules [⟨"seller", .exact 100, true⟩, ⟨"seller", .exact 5, true⟩]) .release
        ⟨1, [⟨"seller", 100⟩, ⟨"seller", 5⟩], 0, 0, 0⟩
      = .error "amount mismatch for 'seller': expected 100, got 5" := by
  decide +kernel

end Nexum.Signer
