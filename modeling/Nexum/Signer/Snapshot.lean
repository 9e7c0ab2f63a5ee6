import Nexum.Lib.Saturating
import Nexum.Transport.Wire

/-!
# Contract snapshots and the payout policy

A contract snapshot is what the parties agreed to: for each of the two actions, who may be paid
and how much, together with a fee cap and restrictions on the shape of the transaction. Before
the signer lets its wallet touch a transaction set it asks the wallet to *describe* it
(`transfer_check_from_desc` condenses the answer into a `TransferCheck`) and holds the result
against the snapshot (`validate_transfer_against_snapshot`).

All amounts are 64-bit words. The condensation keeps the outputs one by one but totals the fees
and the dummy outputs, saturating.
-/

namespace Nexum.Signer

open Nexum.Lib Nexum.Lib.Check
open Nexum.Transport (EscrowAction)

/-! ## 1. The snapshot -/

inductive AmountRule
  | exact (amount : UInt64)
  | range (min max : UInt64)
  deriving DecidableEq

structure RecipientRule where
  address : String
  amount : AmountRule
  required : Bool
  deriving DecidableEq

structure PayoutPolicy where
  allowedRecipients : List RecipientRule
  allowSplitTx : Bool
  allowDummyOutputs : Bool
  deriving DecidableEq

structure ContractSnapshot where
  appProto : String
  escrowIdHex : String
  buyerId : String
  sellerId : String
  arbiterId : String
  releasePolicy : PayoutPolicy
  refundPolicy : PayoutPolicy
  feeCapAtomic : UInt64
  requireUnlockTimeZero : Bool
  createdAtUnixMs : UInt64
  updatedAtUnixMs : UInt64
  deriving DecidableEq

def ContractSnapshot.policy (s : ContractSnapshot) : EscrowAction → PayoutPolicy
  | .release => s.releasePolicy
  | .refund => s.refundPolicy

/-- The rule an output to `address` is held against: the first one that names it. -/
def PayoutPolicy.ruleFor (p : PayoutPolicy) (address : String) : Option RecipientRule :=
  p.allowedRecipients.find? (·.address == address)

/-! ## 2. Describing a transfer -/

structure TransferRecipient where
  address : String
  amount : UInt64
  deriving DecidableEq

structure TransferCheck where
  txCount : UInt64
  recipients : List TransferRecipient
  fee : UInt64
  unlockTime : UInt64
  dummyOutputs : UInt64
  deriving DecidableEq

/-- A recipient as the wallet reports it; either field may be missing. -/
structure DescribeTransferRecipient where
  address : Option String
  amount : Option UInt64
  deriving DecidableEq

/-- One transaction of the set, as the wallet reports it. -/
structure DescribeTransferRow where
  recipients : Option (List DescribeTransferRecipient)
  fee : Option UInt64
  unlockTime : Option UInt64
  dummyOutputs : Option UInt64
  deriving DecidableEq

/-- The running totals of the loop over the rows. -/
structure DescribeTotals where
  recipients : List TransferRecipient
  feeTotal : UInt64
  unlockTime : Option UInt64
  dummyOutputsTotal : UInt64

def DescribeTotals.start : DescribeTotals := ⟨[], 0, none, 0⟩

def readRecipient (i rIdx : Nat) (r : DescribeTransferRecipient) :
    Except String TransferRecipient := do
  let address ← okOr r.address s!"describe_transfer row {i} recipient {rIdx} missing address"
  failIf (isBlank address) s!"describe_transfer row {i} recipient {rIdx} has empty address"
  let amount ← okOr r.amount s!"describe_transfer row {i} recipient {rIdx} missing amount"
  pure ⟨address, amount⟩

/-- The recipients of row `i`, from the one numbered `rIdx` on. -/
def readRecipients (i : Nat) : Nat → List DescribeTransferRecipient →
    Except String (List TransferRecipient)
  | _, [] => pure []
  | rIdx, r :: rest => do
    let recipient ← readRecipient i rIdx r
    let others ← readRecipients i (rIdx + 1) rest
    pure (recipient :: others)

/-- The unlock time the set has shown so far must be the row's own. -/
def checkUnlock (known : Option UInt64) (item : UInt64) : Except String Unit :=
  match known with
  | none => pure ()
  | some v =>
    failIf (v ≠ item) s!"describe_transfer unlock_time mismatch across txs: {v} vs {item}"

def addRow (i : Nat) (item : DescribeTransferRow) (t : DescribeTotals) :
    Except String DescribeTotals := do
  let fee ← okOr item.fee s!"describe_transfer row {i} missing fee"
  let itemUnlock ← okOr item.unlockTime s!"describe_transfer row {i} missing unlock_time"
  let dummyOutputs ← okOr item.dummyOutputs s!"describe_transfer row {i} missing dummy_outputs"
  let rowRecipients ← okOr item.recipients s!"describe_transfer row {i} missing recipients"
  failIf (rowRecipients = []) s!"describe_transfer row {i} has empty recipients"
  checkUnlock t.unlockTime itemUnlock
  let recipients ← readRecipients i 0 rowRecipients
  pure ⟨t.recipients ++ recipients, satAdd t.feeTotal fee, some itemUnlock,
    satAdd t.dummyOutputsTotal dummyOutputs⟩

def addRows : Nat → List DescribeTransferRow → DescribeTotals → Except String DescribeTotals
  | _, [], t => pure t
  | i, item :: rest, t => do
    let t' ← addRow i item t
    addRows (i + 1) rest t'

def transferCheckFromDesc (desc : List DescribeTransferRow) : Except String TransferCheck := do
  failIf (desc = []) "describe_transfer returned empty desc"
  let t ← addRows 0 desc DescribeTotals.start
  failIf (t.recipients = []) "describe_transfer has no recipients"
  pure {
    txCount := UInt64.ofNat (min desc.length u64Max)
    recipients := t.recipients
    fee := t.feeTotal
    unlockTime := t.unlockTime.getD 0
    dummyOutputs := t.dummyOutputsTotal }

/-! ## 3. Holding a transfer against the policy -/

/-- One output against the amount rule of its address. -/
def checkAmount (recipient : TransferRecipient) : AmountRule → Except String Unit
  | .exact amount =>
    failIf (recipient.amount ≠ amount)
      s!"amount mismatch for '{recipient.address}': expected {amount}, got {recipient.amount}"
  | .range min max =>
    failIf (recipient.amount < min ∨ recipient.amount > max)
      s!"amount out of range for '{recipient.address}': [{min}..{max}], got {recipient.amount}"

def checkRecipient (policy : PayoutPolicy) (recipient : TransferRecipient) :
    Except String Unit := do
  let rule ← okOr (policy.ruleFor recipient.address)
    s!"recipient '{recipient.address}' is not in allowed policy"
  checkAmount recipient rule.amount

/-- A required rule is met by any output to its address. -/
def checkRequired (transfer : TransferCheck) (rule : RecipientRule) : Except String Unit :=
  failIf (rule.required = true ∧ ¬ ∃ r ∈ transfer.recipients, r.address = rule.address)
    s!"required recipient '{rule.address}' missing from tx"

def validateTransferAgainstSnapshot (snapshot : ContractSnapshot) (action : EscrowAction)
    (transfer : TransferCheck) : Except String Unit := do
  let policy := snapshot.policy action
  failIf (¬ policy.allowSplitTx ∧ transfer.txCount ≠ 1)
    s!"split policy violation: expected exactly one tx, got {transfer.txCount}"
  failIf (transfer.fee > snapshot.feeCapAtomic)
    s!"fee cap violation: fee {transfer.fee} > cap {snapshot.feeCapAtomic}"
  failIf (snapshot.requireUnlockTimeZero ∧ transfer.unlockTime ≠ 0)
    s!"unlock_time policy violation: expected 0, got {transfer.unlockTime}"
  failIf (¬ policy.allowDummyOutputs ∧ transfer.dummyOutputs > 0)
    s!"dummy_outputs policy violation: got {transfer.dummyOutputs}"
  transfer.recipients.forM (checkRecipient policy)
  policy.allowedRecipients.forM (checkRequired transfer)

end Nexum.Signer
