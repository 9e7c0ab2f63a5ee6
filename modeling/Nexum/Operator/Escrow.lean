import Mathlib.Data.List.Dedup
import Nexum.Lib.Bytes
import Nexum.Lib.Hex

/-!
# The operator's side of an escrow

The control plane of an escrow on the privAI chain: the operator checks a funding note against its
own view of the ledger, takes a snapshot, proposes a spend, collects the approvals of the parties
and turns them into the authorisation of an input.

Two things that the steps hand on are not checked against each other.

* **The policy.** The funding step compares the note's policy with the descriptor's, if the ledger
  reports one; the proposal opens a policy made of key hashes that come as arguments of their own.
  The note, the snapshot and the opened policy agree exactly if the ledger does report a policy and
  the arguments are those of the descriptor (`funding_binds_policy_iff`).
* **The signers.** Approvals are told apart by an index that the caller chooses, while the chain
  sees keys. A quorum stands for that many keys exactly if every approval that is taken brings a key
  of its own (`quorum_of_keys_iff`).

The chain's own functions and BLAKE3 are parameters.
-/

namespace Nexum.Operator

open Nexum.Lib Nexum.Lib.Check

abbrev Hash32 := Bytes 32

/-! ## 1. The chain -/

/-- The spend policies that occur here. -/
inductive SpendPolicy
  | escrow2of3 (buyerPkHash merchantPkHash operatorPkHash : Hash32) (timeoutBlock : UInt64)
  | single (falconPkHash : Hash32)
  deriving DecidableEq

structure RecipientBox where
  kemCt : List UInt8
  nonce : Bytes 24
  ciphertext : List UInt8
  tag : Bytes 16
  hint : Bytes 16
  deriving DecidableEq

/-- A note that a transaction makes; the placeholder ciphertext of its amount is left out. -/
structure OutputNote where
  spendPolicyCommit : Hash32
  rangeCommit : Hash32
  recipientBox : RecipientBox
  deriving DecidableEq

structure InputAuth where
  policyTag : UInt8
  signerPks : List (List UInt8)
  signatures : List (List UInt8)
  policyOpening : Option (List UInt8)
  escrowAction : Option UInt8
  deriving DecidableEq

structure TxCore where
  version : Nat
  txType : Nat
  inputs : List Hash32
  inputNullifiers : List Hash32
  outputs : List OutputNote
  fee : UInt64
  statementCommit : Hash32
  auth : List InputAuth
  deriving DecidableEq

inductive Transaction
  | transferNote (core : TxCore)
  deriving DecidableEq

/-- What the chain's library provides. -/
structure PrivaiChain where
  privaiV0 : Nat
  txTypeTransferNote : Nat
  escrow2of3Tag : UInt8
  commitment : SpendPolicy → Hash32
  toCanonicalBytes : SpendPolicy → List UInt8
  txSigningHash : TxCore → Hash32

/-- What the inputs of the transaction open. -/
def Transaction.openings : Transaction → List (Option (List UInt8))
  | .transferNote core => core.auth.map (·.policyOpening)

/-! ## 2. The operator's objects -/

inductive EscrowAction
  | release | refund | recoveryRelease
  deriving DecidableEq

def EscrowAction.toU8 : EscrowAction → UInt8
  | .release => 0x01
  | .refund => 0x02
  | .recoveryRelease => 0x03

inductive OperatorEscrowError
  | fundingNotConfirmed (text : String)
  | duplicateApproval (signerIndex : Nat)
  | quorumNotMet (have_ need : Nat)
  | proposalHashMismatch (expected got : String)
  | hashCollisionInvariant
  deriving DecidableEq

/-- The operator's own view of the ledger. -/
structure LedgerObserver where
  isNoteUnspent : Hash32 → Bool
  noteSpendPolicyCommit : Hash32 → Option Hash32

structure EscrowFundingDescriptor where
  escrowId : Hash32
  buyerPk : Hash32
  merchantPk : Hash32
  operatorPk : Hash32
  amount : UInt64
  spendPolicyCommit : Hash32
  timeoutBlocks : UInt64
  deriving DecidableEq

structure EscrowSnapshot where
  escrowId : Hash32
  buyerPk : Hash32
  merchantPk : Hash32
  operatorPk : Hash32
  fundingNoteCommit : Hash32
  spendPolicyCommit : Hash32
  amount : UInt64
  timeoutBlock : UInt64
  snapshotHash : Hash32
  status : UInt8
  deriving DecidableEq

structure EscrowSpendProposal where
  proposalHash : Hash32
  escrowId : Hash32
  snapshotHash : Hash32
  action : UInt8
  inputNoteCommits : List Hash32
  outputRecipientPk : Hash32
  fee : UInt64
  txSigningHash : Hash32
  deriving DecidableEq

structure SignerEntry where
  signerIndex : UInt8
  signerRole : String
  signerPk : List UInt8
  signature : List UInt8
  deriving DecidableEq

structure EscrowApprovalBundle where
  proposalHash : Hash32
  txSigningHash : Hash32
  signerEntries : List SignerEntry
  createdAtMs : UInt64
  deriving DecidableEq

structure ApprovalBundleBuilder where
  proposalHash : Hash32
  txSigningHash : Hash32
  signerEntries : List SignerEntry
  createdAtMs : UInt64
  deriving DecidableEq

/-! ## 3. Hashes -/

section
variable (blake3 : List UInt8 → Hash32)

/-- A part with its length before it, in 32 bits. -/
def lenPrefixed (bytes : List UInt8) : List UInt8 :=
  leBytes 4 bytes.length ++ bytes

def domainHash (domain : List UInt8) (parts : List (List UInt8)) : Hash32 :=
  blake3 ((domain :: parts).flatMap lenPrefixed)

def snapshotHashDomain : String := "privai:nxms:escrow-snapshot:v1"
def proposalHashDomain : String := "privai:nxms:escrow-proposal:v1"

def computeSnapshotHash (escrowId buyerPk merchantPk operatorPk fundingNoteCommit
    spendPolicyCommit : Hash32) (amount timeoutBlock : UInt64) : Hash32 :=
  domainHash blake3 (utf8 snapshotHashDomain)
    [escrowId.data, buyerPk.data, merchantPk.data, operatorPk.data, fundingNoteCommit.data,
      spendPolicyCommit.data, leBytes 8 amount.toNat, leBytes 8 timeoutBlock.toNat]

def computeProposalHash (escrowId snapshotHash : Hash32) (action : UInt8)
    (inputNoteCommits : List Hash32) (outputRecipientPk : Hash32) (fee : UInt64) : Hash32 :=
  domainHash blake3 (utf8 proposalHashDomain)
    [escrowId.data, snapshotHash.data, [action], inputNoteCommits.flatMap Bytes.data,
      outputRecipientPk.data, leBytes 8 fee.toNat]

/-! ## 4. From the funding note to the proposal -/

def processFundingEvent (descriptor : EscrowFundingDescriptor) (fundingNoteCommit : Hash32)
    (observer : LedgerObserver) : Except OperatorEscrowError Hash32 := do
  failIf (¬ observer.isNoteUnspent fundingNoteCommit)
    (OperatorEscrowError.fundingNotConfirmed (hexEncode fundingNoteCommit.data))
  match observer.noteSpendPolicyCommit fundingNoteCommit with
  | some observedPolicy =>
    failIf (observedPolicy ≠ descriptor.spendPolicyCommit)
      (OperatorEscrowError.fundingNotConfirmed
        ("policy mismatch: descriptor=" ++ hexEncode descriptor.spendPolicyCommit.data
          ++ ", ledger=" ++ hexEncode observedPolicy.data))
  -- a note the ledger has no policy for passes
  | none => pure ()
  pure fundingNoteCommit

def buildSnapshot (descriptor : EscrowFundingDescriptor) (fundingNoteCommit : Hash32) :
    EscrowSnapshot where
  escrowId := descriptor.escrowId
  buyerPk := descriptor.buyerPk
  merchantPk := descriptor.merchantPk
  operatorPk := descriptor.operatorPk
  fundingNoteCommit := fundingNoteCommit
  spendPolicyCommit := descriptor.spendPolicyCommit
  amount := descriptor.amount
  timeoutBlock := descriptor.timeoutBlocks
  snapshotHash := computeSnapshotHash blake3 descriptor.escrowId descriptor.buyerPk
    descriptor.merchantPk descriptor.operatorPk fundingNoteCommit descriptor.spendPolicyCommit
    descriptor.amount descriptor.timeoutBlocks
  status := 1

def zeros (n : Nat) : Bytes n := ⟨List.replicate n 0, List.length_replicate⟩

variable (chain : PrivaiChain)

def buildTxSkeleton (fundingNoteCommit recipientPkHash : Hash32) (fee : UInt64)
    (buyerPkHash merchantPkHash operatorPkHash : Hash32) (timeoutBlock : UInt64)
    (signerPks signatures : List (List UInt8)) (escrowActionByte : UInt8) : Transaction :=
  let policy := SpendPolicy.escrow2of3 buyerPkHash merchantPkHash operatorPkHash timeoutBlock
  let outputNote : OutputNote :=
    { spendPolicyCommit := chain.commitment (.single recipientPkHash)
      rangeCommit := zeros 32
      recipientBox := ⟨[0], zeros 24, [0], zeros 16, zeros 16⟩ }
  let inputAuth : InputAuth :=
    { policyTag := chain.escrow2of3Tag
      signerPks := signerPks
      signatures := signatures
      policyOpening := some (chain.toCanonicalBytes policy)
      escrowAction := some escrowActionByte }
  .transferNote
    { version := chain.privaiV0
      txType := chain.txTypeTransferNote
      inputs := [fundingNoteCommit]
      inputNullifiers := [zeros 32]
      outputs := [outputNote]
      fee := fee
      statementCommit := zeros 32
      auth := [inputAuth] }

/-- The transaction of a proposal, without signers yet. -/
def proposalTx (snapshot : EscrowSnapshot) (action : EscrowAction) (outputRecipientPk : Hash32)
    (fee : UInt64) (buyerPkHash merchantPkHash operatorPkHash : Hash32) : Transaction :=
  buildTxSkeleton chain snapshot.fundingNoteCommit outputRecipientPk fee buyerPkHash merchantPkHash
    operatorPkHash snapshot.timeoutBlock [] [] action.toU8

def buildProposal (snapshot : EscrowSnapshot) (action : EscrowAction) (outputRecipientPk : Hash32)
    (fee : UInt64) (buyerPkHash merchantPkHash operatorPkHash : Hash32) :
    Except OperatorEscrowError EscrowSpendProposal := do
  let proposalHash := computeProposalHash blake3 snapshot.escrowId snapshot.snapshotHash action.toU8
    [snapshot.fundingNoteCommit] outputRecipientPk fee
  let .transferNote core := proposalTx chain snapshot action outputRecipientPk fee buyerPkHash
    merchantPkHash operatorPkHash
  let txSigningHash := chain.txSigningHash core
  failIf (proposalHash = txSigningHash) OperatorEscrowError.hashCollisionInvariant
  pure
    { proposalHash := proposalHash
      escrowId := snapshot.escrowId
      snapshotHash := snapshot.snapshotHash
      action := action.toU8
      inputNoteCommits := [snapshot.fundingNoteCommit]
      outputRecipientPk := outputRecipientPk
      fee := fee
      txSigningHash := txSigningHash }

variable {blake3 chain}

theorem processFundingEvent_eq_ok {descriptor : EscrowFundingDescriptor} {note out : Hash32}
    {observer : LedgerObserver} : processFundingEvent descriptor note observer = .ok out
      ↔ observer.isNoteUnspent note = true
        ∧ (∀ policy, observer.noteSpendPolicyCommit note = some policy →
          policy = descriptor.spendPolicyCommit) ∧ note = out := by
  simp only [processFundingEvent, bind_eq_ok, failIf_eq_ok, exists_unit, not_not]
  cases hpolicy : observer.noteSpendPolicyCommit note with
  | none => simp
  | some policy => simp only [bind_eq_ok, failIf_eq_ok, exists_unit, pure_eq_ok, not_not,
      Option.some.injEq, forall_eq']

theorem buildProposal_eq_ok {snapshot : EscrowSnapshot} {action : EscrowAction}
    {recipient : Hash32} {fee : UInt64} {buyer merchant operator : Hash32}
    {proposal : EscrowSpendProposal}
    (h : buildProposal blake3 chain snapshot action recipient fee buyer merchant operator
      = .ok proposal) {core : TxCore}
    (hcore : proposalTx chain snapshot action recipient fee buyer merchant operator
      = .transferNote core) :
    proposal.txSigningHash = chain.txSigningHash core := by
  simp only [buildProposal, hcore, bind_eq_ok, exists_unit, pure_eq_ok] at h
  obtain ⟨-, rfl⟩ := h
  rfl

/-- **The parts agree on the policy**: the ledger reports the note as unspent with the snapshot's
    policy, and what the transaction opens is a policy with that commitment. -/
structure PolicyBound (chain : PrivaiChain) (observer : LedgerObserver) (snapshot : EscrowSnapshot)
    (tx : Transaction) (policy : SpendPolicy) : Prop where
  unspent : observer.isNoteUnspent snapshot.fundingNoteCommit = true
  ledger : observer.noteSpendPolicyCommit snapshot.fundingNoteCommit
    = some snapshot.spendPolicyCommit
  opened : tx.openings = [some (chain.toCanonicalBytes policy)]
  commits : chain.commitment policy = snapshot.spendPolicyCommit

/-- **Funding and the policy.** Where the three steps succeed, the proposal is for its transaction,
    and ledger, snapshot and transaction agree on the policy exactly if the ledger reports a policy
    for the note and the descriptor's commitment is that of the given key hashes and its own
    timeout. -/
theorem funding_binds_policy_iff (blake3 : List UInt8 → Hash32) (chain : PrivaiChain)
    (descriptor : EscrowFundingDescriptor) (observer : LedgerObserver) (note : Hash32)
    (action : EscrowAction) (recipient : Hash32) (fee : UInt64) (buyer merchant operator : Hash32)
    (out : Hash32) (proposal : EscrowSpendProposal)
    (hfunded : processFundingEvent descriptor note observer = .ok out)
    (hproposal : buildProposal blake3 chain (buildSnapshot blake3 descriptor note) action recipient
      fee buyer merchant operator = .ok proposal) :
    (∀ core, proposalTx chain (buildSnapshot blake3 descriptor note) action recipient fee buyer
        merchant operator = .transferNote core → proposal.txSigningHash = chain.txSigningHash core)
    ∧ (PolicyBound chain observer (buildSnapshot blake3 descriptor note)
        (proposalTx chain (buildSnapshot blake3 descriptor note) action recipient fee buyer merchant
          operator)
        (.escrow2of3 buyer merchant operator (buildSnapshot blake3 descriptor note).timeoutBlock)
      ↔ (observer.noteSpendPolicyCommit note).isSome
        ∧ chain.commitment (.escrow2of3 buyer merchant operator descriptor.timeoutBlocks)
          = descriptor.spendPolicyCommit) := by
  refine ⟨fun core hcore => buildProposal_eq_ok hproposal hcore, ?_⟩
  obtain ⟨hunspent, hpolicy, -⟩ := processFundingEvent_eq_ok.mp hfunded
  constructor
  · intro h
    exact ⟨Option.isSome_iff_exists.mpr ⟨_, h.ledger⟩, h.commits⟩
  · rintro ⟨hsome, hcommit⟩
    obtain ⟨policy, hledger⟩ := Option.isSome_iff_exists.mp hsome
    exact ⟨hunspent, hledger.trans (congrArg some (hpolicy policy hledger)), rfl, hcommit⟩

end

/-! ### Samples -/

def fill (n : UInt8) : Hash32 := ⟨List.replicate 32 n, List.length_replicate⟩

/-- A stand-in for a hash, which keeps the samples apart. -/
def sampleHash (bytes : List UInt8) : Hash32 := ⟨(bytes ++ List.replicate 32 0).take 32, by simp⟩

def sampleChain : PrivaiChain where
  privaiV0 := 0
  txTypeTransferNote := 1
  escrow2of3Tag := 3
  toCanonicalBytes
    | .escrow2of3 buyer merchant operator timeout =>
      3 :: (buyer.data ++ merchant.data ++ operator.data ++ leBytes 8 timeout.toNat)
    | .single pk => 1 :: pk.data
  commitment
    | .escrow2of3 buyer merchant operator timeout =>
      sampleHash (buyer.data ++ merchant.data ++ operator.data ++ leBytes 8 timeout.toNat)
    | .single pk => pk
  txSigningHash core :=
    sampleHash (1 :: (core.inputs.flatMap Bytes.data ++ leBytes 8 core.fee.toNat))

/-- The descriptor of an escrow between the parties with the key hashes 1, 2 and 3. -/
def sampleDescriptor : EscrowFundingDescriptor where
  escrowId := fill 1
  buyerPk := fill 16
  merchantPk := fill 32
  operatorPk := fill 48
  amount := 1000
  spendPolicyCommit := sampleChain.commitment (.escrow2of3 (fill 1) (fill 2) (fill 3) 1000)
  timeoutBlocks := 1000

def sampleSnapshot : EscrowSnapshot := buildSnapshot sampleHash sampleDescriptor (fill 187)

/-- A ledger with the note, which may not know its policy. -/
def sampleObserver (policy : Option Hash32) : LedgerObserver :=
  ⟨fun note => note = fill 187, fun note => if note = fill 187 then policy else none⟩

def sampleProposal (buyer : Hash32) : Except OperatorEscrowError EscrowSpendProposal :=
  buildProposal sampleHash sampleChain sampleSnapshot .release (fill 2) 100 buyer (fill 2) (fill 3)

theorem funding_binds_policy_iff_sample :
    PolicyBound sampleChain (sampleObserver (some sampleDescriptor.spendPolicyCommit))
      sampleSnapshot
      (proposalTx sampleChain sampleSnapshot .release (fill 2) 100 (fill 1) (fill 2) (fill 3))
      (.escrow2of3 (fill 1) (fill 2) (fill 3) 1000) := by
  have hok : (sampleProposal (fill 1)).isOk = true := by decide +kernel
  obtain ⟨proposal, hproposal⟩ := exists_of_isOk hok
  exact (funding_binds_policy_iff sampleHash sampleChain sampleDescriptor _ (fill 187) .release _
    100 _ _ _ (fill 187) proposal rfl hproposal).2.mpr ⟨rfl, rfl⟩

/-- **Two ways to a proposal on another policy.** The ledger does not report one and the note is
    taken as funded; or the key hash of another buyer is given, and the transaction opens a policy
    that the note was not funded with. -/
theorem policy_not_bound :
    (processFundingEvent sampleDescriptor (fill 187) (sampleObserver none) = .ok (fill 187)
      ∧ (sampleProposal (fill 1)).isOk = true
      ∧ ∀ tx policy, ¬ PolicyBound sampleChain (sampleObserver none) sampleSnapshot tx policy)
    ∧ processFundingEvent sampleDescriptor (fill 187)
        (sampleObserver (some sampleDescriptor.spendPolicyCommit)) = .ok (fill 187)
      ∧ (sampleProposal (fill 9)).isOk = true
      ∧ ∀ observer tx, ¬ PolicyBound sampleChain observer sampleSnapshot tx
        (.escrow2of3 (fill 9) (fill 2) (fill 3) sampleSnapshot.timeoutBlock) := by
  refine ⟨⟨by decide +kernel, by decide +kernel, fun tx policy h => ?_⟩, by decide +kernel,
    by decide +kernel, fun observer tx h => ?_⟩
  · cases h.ledger
  · have hne : sampleChain.commitment (.escrow2of3 (fill 9) (fill 2) (fill 3) 1000)
        ≠ sampleDescriptor.spendPolicyCommit := by
      decide +kernel
    exact hne h.commits

/-! ## 5. Approvals -/

def ApprovalBundleBuilder.new (proposal : EscrowSpendProposal) (createdAtMs : UInt64) :
    ApprovalBundleBuilder :=
  ⟨proposal.proposalHash, proposal.txSigningHash, [], createdAtMs⟩

/-- The arguments of one call of `add_approval`. -/
structure Approval where
  proposalHash : Hash32
  signerIndex : UInt8
  signerRole : String
  signerPk : List UInt8
  signature : List UInt8

/-- The result of the call and the builder after it. -/
def addApproval (b : ApprovalBundleBuilder) (a : Approval) :
    Except OperatorEscrowError Unit × ApprovalBundleBuilder :=
  if b.proposalHash ≠ a.proposalHash then
    (.error (.proposalHashMismatch (hexEncode b.proposalHash.data) (hexEncode a.proposalHash.data)),
      b)
  else if b.signerEntries.any (·.signerIndex == a.signerIndex) then
    (.error (.duplicateApproval a.signerIndex.toNat), b)
  else
    (.ok (), { b with signerEntries :=
      b.signerEntries ++ [⟨a.signerIndex, a.signerRole, a.signerPk, a.signature⟩] })

def finalizeBundle (b : ApprovalBundleBuilder) (quorum : Nat) :
    Except OperatorEscrowError EscrowApprovalBundle := do
  failIf (b.signerEntries.length < quorum)
    (OperatorEscrowError.quorumNotMet b.signerEntries.length quorum)
  pure ⟨b.proposalHash, b.txSigningHash, b.signerEntries, b.createdAtMs⟩

def bundleToInputAuth (chain : PrivaiChain) (bundle : EscrowApprovalBundle)
    (buyerPkHash merchantPkHash operatorPkHash : Hash32) (timeoutBlock : UInt64)
    (action : EscrowAction) : InputAuth where
  policyTag := chain.escrow2of3Tag
  signerPks := bundle.signerEntries.map (·.signerPk)
  signatures := bundle.signerEntries.map (·.signature)
  policyOpening := some (chain.toCanonicalBytes
    (.escrow2of3 buyerPkHash merchantPkHash operatorPkHash timeoutBlock))
  escrowAction := some action.toU8

/-- The builder after a sequence of calls, failed ones among them. -/
def collectApprovals (b : ApprovalBundleBuilder) (calls : List Approval) : ApprovalBundleBuilder :=
  calls.foldl (fun b a => (addApproval b a).2) b

/-- The keys of the entries, which is what the chain sees. -/
def ApprovalBundleBuilder.keys (b : ApprovalBundleBuilder) : List (List UInt8) :=
  b.signerEntries.map (·.signerPk)

/-- The approval is for this proposal and under an index that is free. -/
def Takes (b : ApprovalBundleBuilder) (a : Approval) : Prop :=
  a.proposalHash = b.proposalHash ∧ a.signerIndex ∉ b.signerEntries.map (·.signerIndex)

/-- Every approval that is taken brings a key of its own. -/
def EachKeyNew : ApprovalBundleBuilder → List Approval → Prop
  | _, [] => True
  | b, a :: rest => (Takes b a → a.signerPk ∉ b.keys) ∧ EachKeyNew (addApproval b a).2 rest

/-- **What one call does**: it adds its entry, or it fails and changes nothing. -/
theorem addApproval_cases (b : ApprovalBundleBuilder) (a : Approval) :
    (Takes b a ∧ addApproval b a = (.ok (), { b with
      signerEntries :=
        b.signerEntries ++ [⟨a.signerIndex, a.signerRole, a.signerPk, a.signature⟩] }))
    ∨ (¬ Takes b a ∧ ∃ e, addApproval b a = (.error e, b)) := by
  unfold addApproval
  split
  · rename_i hhash
    exact .inr ⟨fun h => hhash h.1.symm, _, rfl⟩
  · rename_i hhash
    split
    · rename_i hindex
      refine .inr ⟨fun h => h.2 ?_, _, rfl⟩
      obtain ⟨e, he, heq⟩ := List.any_eq_true.mp hindex
      exact List.mem_map.mpr ⟨e, he, beq_iff_eq.mp heq⟩
    · rename_i hindex
      refine .inl ⟨⟨(not_not.mp hhash).symm, fun hmem => hindex ?_⟩, rfl⟩
      obtain ⟨e, he, heq⟩ := List.mem_map.mp hmem
      exact List.any_eq_true.mpr ⟨e, he, beq_iff_eq.mpr heq⟩

theorem collectApprovals_hashes (b : ApprovalBundleBuilder) (calls : List Approval) :
    (collectApprovals b calls).proposalHash = b.proposalHash
      ∧ (collectApprovals b calls).txSigningHash = b.txSigningHash := by
  induction calls generalizing b with
  | nil => exact ⟨rfl, rfl⟩
  | cons a rest ih =>
    have hstep : (addApproval b a).2.proposalHash = b.proposalHash
        ∧ (addApproval b a).2.txSigningHash = b.txSigningHash := by
      rcases addApproval_cases b a with ⟨-, h⟩ | ⟨-, e, h⟩ <;> rw [h] <;> exact ⟨rfl, rfl⟩
    exact ⟨(ih _).1.trans hstep.1, (ih _).2.trans hstep.2⟩

/-- One call keeps the keys different exactly if it brings a new one or is not taken. -/
theorem nodup_keys_addApproval (b : ApprovalBundleBuilder) (a : Approval) :
    (addApproval b a).2.keys.Nodup ↔ b.keys.Nodup ∧ (Takes b a → a.signerPk ∉ b.keys) := by
  rcases addApproval_cases b a with ⟨htakes, h⟩ | ⟨htakes, e, h⟩
  · have hkeys : (addApproval b a).2.keys = b.keys ++ [a.signerPk] := by
      rw [h]
      simp [ApprovalBundleBuilder.keys]
    rw [hkeys, ← List.concat_eq_append, List.nodup_concat]
    simp [htakes, and_comm]
  · rw [h]
    simp [htakes]

/-- **A run keeps the keys different** exactly if every approval that is taken brings a new one. -/
theorem nodup_keys_collectApprovals (b : ApprovalBundleBuilder) (calls : List Approval) :
    (collectApprovals b calls).keys.Nodup ↔ b.keys.Nodup ∧ EachKeyNew b calls := by
  induction calls generalizing b with
  | nil => simp [collectApprovals, EachKeyNew]
  | cons a rest ih =>
    have hstep : collectApprovals b (a :: rest) = collectApprovals (addApproval b a).2 rest := rfl
    rw [hstep, ih, nodup_keys_addApproval, EachKeyNew, and_assoc]

theorem finalizeBundle_eq_ok {b : ApprovalBundleBuilder} {quorum : Nat}
    {bundle : EscrowApprovalBundle} : finalizeBundle b quorum = .ok bundle
      ↔ quorum ≤ b.signerEntries.length
        ∧ bundle = ⟨b.proposalHash, b.txSigningHash, b.signerEntries, b.createdAtMs⟩ := by
  simp only [finalizeBundle, bind_eq_ok, failIf_eq_ok, exists_unit, pure_eq_ok, Nat.not_lt]
  exact and_congr_right fun _ => eq_comm

/-- A list has as many different members as it is long exactly if no two are the same. -/
theorem length_le_dedup_iff {α : Type} [DecidableEq α] {l : List α} :
    l.length ≤ l.dedup.length ↔ l.Nodup := by
  constructor
  · intro h
    rw [← (List.dedup_sublist l).eq_of_length_le h]
    exact List.nodup_dedup l
  · intro h
    rw [List.dedup_eq_self.mpr h]

/-- **A quorum of keys.** Whatever the quorum, a bundle that is finalised after a sequence of calls
    names the proposal's hashes and carries that many different keys, and so does the
    authorisation made from it: this holds of the sequence exactly if every approval that is taken
    brings a new key. A call that fails leaves the builder as it was. -/
theorem quorum_of_keys_iff (proposal : EscrowSpendProposal) (createdAtMs : UInt64)
    (calls : List Approval) :
    ((∀ q bundle,
        finalizeBundle (collectApprovals (.new proposal createdAtMs) calls) q = .ok bundle →
        bundle.proposalHash = proposal.proposalHash
        ∧ bundle.txSigningHash = proposal.txSigningHash
        ∧ q ≤ (bundle.signerEntries.map (·.signerPk)).dedup.length
        ∧ ∀ chain buyer merchant operator timeout action,
          q ≤ (bundleToInputAuth chain bundle buyer merchant operator timeout
            action).signerPks.dedup.length)
      ↔ EachKeyNew (.new proposal createdAtMs) calls)
    ∧ ∀ b a e, (addApproval b a).1 = .error e → (addApproval b a).2 = b := by
  have hrun := nodup_keys_collectApprovals (.new proposal createdAtMs) calls
  have hhashes := collectApprovals_hashes (.new proposal createdAtMs) calls
  refine ⟨⟨?_, ?_⟩, ?_⟩
  · -- the highest quorum that is met is the number of the entries
    intro h
    obtain ⟨-, -, hlen, -⟩ := h _ _ (finalizeBundle_eq_ok.mpr ⟨le_rfl, rfl⟩)
    rw [← List.length_map (f := (·.signerPk))] at hlen
    exact (hrun.mp (length_le_dedup_iff.mp hlen)).2
  · intro hnew q bundle hfinal
    obtain ⟨hq, rfl⟩ := finalizeBundle_eq_ok.mp hfinal
    have hkeys := length_le_dedup_iff.mpr (hrun.mpr ⟨List.nodup_nil, hnew⟩)
    rw [ApprovalBundleBuilder.keys, List.length_map] at hkeys
    exact ⟨hhashes.1, hhashes.2, hq.trans hkeys, fun _ _ _ _ _ _ => hq.trans hkeys⟩
  · intro b a e he
    rcases addApproval_cases b a with ⟨-, h⟩ | ⟨-, e', h⟩
    · rw [h] at he
      cases he
    · rw [h]

/-- The approval of the party with the key 1, under the index it gives. -/
def sampleApproval (index : UInt8) : Approval := ⟨fill 5, index, "buyer", [1], [7]⟩

/-- **One signer under two indices.** A bundle for a quorum of two, with one key in it. -/
theorem one_key_twice :
    ∃ bundle, finalizeBundle (collectApprovals
        (.new ⟨fill 5, fill 1, fill 4, 1, [fill 187], fill 2, 100, fill 6⟩ 1000)
        [sampleApproval 0, sampleApproval 1]) 2 = .ok bundle
      ∧ (bundle.signerEntries.map (·.signerPk)).dedup.length = 1 :=
  ⟨_, rfl, by decide⟩

end Nexum.Operator
