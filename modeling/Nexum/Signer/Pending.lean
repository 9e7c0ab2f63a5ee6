import Nexum.Signer.Flows

/-!
# Deciding on a queued request

`approve_pending` and `reject_pending`, call by call. Both read the row once, decide from its
status what to do, and later write the new status **by id, without looking at the row again**.
Before anything is sent the row is staged (`approved_sending`, `rejected_sending`) with
everything needed to send it again, so that a failed send can be resumed.

Approving signs like `sign_multisig_flow` does, with three differences: the row's texts are used
as they are stored, a request that exists already is an error, and no proof is stored with the
orchestrator.
-/

namespace Nexum.Signer

open Nexum.Lib Nexum.Lib.Prog
open Nexum.Transport

/-! ## 1. Sending -/

/-- How often a call to the mailbox is made before its failure counts. The waits in between are
    left out. -/
def SignerAgent.mailboxAttempts (agent : SignerAgent) : Nat :=
  max agent.mailboxRetryAttempts 1

def mailboxPushWithRetry (agent : SignerAgent) (env : NxmsEnvelope) (body : EscrowBody) :
    Flow Unit :=
  retry (Call.mailboxPush env body) "mailbox push failed without error details"
    agent.mailboxAttempts

def outSeqOr (agent : SignerAgent) (escrowIdHex : String) : Option Nat → Flow Nat
  | some seq => pure seq
  | none => ask (.nextOutSeq escrowIdHex agent.localId)

def envelopeOf (msgType : MsgType) (payload : NxmsPayload) (s : SealedPacket) : NxmsEnvelope where
  proto := nxmsProtoV1
  kemId := nxmsWireKemIdV1
  sigId := nxmsWireSigIdV1
  msgType := msgType
  escrowIdHex := payload.escrowIdHex
  from_ := payload.from_
  to_ := payload.to_
  seq := payload.seq
  kemCtB64 := s.kemCtB64
  nonceB64 := s.nonceB64
  ciphertextB64 := s.ciphertextB64
  tagB64 := s.tagB64
  sigB64 := s.sigB64

def sendBodyWithSeq (agent : SignerAgent) (recipient escrowIdHex : String) (msgType : MsgType)
    (body : EscrowBody) (seqOverride : Option Nat) : Flow Unit := do
  let peer ← okOr (agent.peer recipient) s!"peer '{recipient}' not in allowlist"
  let _ ← ofExcept (decodeEscrowIdHex escrowIdHex)
  let seq ← outSeqOr agent escrowIdHex seqOverride
  let payload : NxmsPayload := ⟨escrowAppProtoV1, msgType, escrowIdHex, agent.localId, recipient,
    seq, agent.crypto.renderBody body⟩
  let packet ← ask (.encrypt peer payload)
  mailboxPushWithRetry agent (envelopeOf msgType payload packet) body

/-- The calls that sending a body makes. -/
def Sends (body : EscrowBody) : Call → Prop
  | .nextOutSeq _ _ | .encrypt _ _ => True
  | .mailboxPush _ sent => sent = body
  | _ => False

theorem only_sendBodyWithSeq (agent : SignerAgent) (recipient escrow : String)
    (msgType : MsgType) (body : EscrowBody) (seq : Option Nat) :
    Only (Sends body) (sendBodyWithSeq agent recipient escrow msgType body seq)
      fun _ => True := by
  unfold sendBodyWithSeq
  refine .okOr_bind fun peer _ => .ofExcept_bind fun _ _ => ?_
  have hseq : Only (Sends body) (outSeqOr agent escrow seq) fun _ => True := by
    cases seq with
    | some n => exact .pure trivial
    | none => exact .perform trivial fun _ _ _ => trivial
  refine Ensures.bind hseq fun n _ _ => .perform_bind trivial fun packet _ _ => ?_
  have hpush : ∀ env, Sends body (.mailboxPush env body) := fun _ => rfl
  exact Only.retry (hpush _) (fun _ => trivial) _

/-! ## 2. Staged payloads -/

def DecisionReason.approvedSend? : DecisionReason → Option ApprovedSendState
  | .approvedSend staged => some staged
  | _ => none

def DecisionReason.rejectedSend? : DecisionReason → Option RejectedSendState
  | .rejectedSend staged => some staged
  | _ => none

def parseApprovedSendState (id : Int) (raw : Option DecisionReason) :
    Except String ApprovedSendState := do
  let raw ← Check.okOr raw
    s!"pending id {id} has status approved_sending but missing staged send payload"
  let staged ← Check.okOr raw.approvedSend?
    s!"pending id {id} has invalid staged send payload for approved_sending: not such a state"
  Check.failIf (isBlank staged.signedTxDataHex)
    s!"pending id {id} has empty signed_tx_data_hex in staged send payload"
  pure staged

def parseRejectedSendState (id : Int) (raw : Option DecisionReason) :
    Except String RejectedSendState := do
  let raw ← Check.okOr raw
    s!"pending id {id} has status rejected_sending but missing staged send payload"
  let staged ← Check.okOr raw.rejectedSend?
    s!"pending id {id} has invalid staged send payload for rejected_sending: not such a state"
  Check.failIf (isBlank staged.reason)
    s!"pending id {id} has empty reject reason in staged send payload"
  pure staged

/-- Set the row aside; a failure to do so is only logged. -/
def markPendingError (row : PendingTxSign) (detail : String) : Flow Unit := do
  let _ ← tryAsk (.setPendingStatus row.id .failedDeadLetter (some (.text detail)))
  pure ()

/-- Set the row aside and fail. -/
def deadLetter {α : Type} (row : PendingTxSign) (detail : String) : Flow α := do
  markPendingError row detail
  fail detail

def deadLetterIf (c : Prop) [Decidable c] (row : PendingTxSign) (detail : String) : Flow Unit :=
  if c then deadLetter row detail else pure ()

/-! ## 3. Approving -/

def approvalBody (row : PendingTxSign) (signedTxDataHex : String) (txHashList : List String) :
    EscrowBody :=
  .txSignResp ⟨row.escrowIdHex, true, some signedTxDataHex, txHashList, none⟩

/-- The stored digest is the SHA-256 of the bytes or, in old rows, the SHA3 of the text. -/
def checkStoredHash (cr : Crypto) (row : PendingTxSign) (computed : String) : Bool :=
  eqIgnoreAsciiCase computed row.txsetHashHex
    || eqIgnoreAsciiCase (cr.sha3Hex (utf8 row.multisigTxsetHex)) row.txsetHashHex

def parsePendingAction : Json EscrowAction → Except String EscrowAction
  | .encoded action => .ok action
  | .malformed raw err => .error s!"invalid stored action JSON '{raw}': {err}"

/-- Everything `approve_pending` checks of a row before it looks at the token. -/
def prepareApproval (agent : SignerAgent) (row : PendingTxSign) : Flow Job := do
  let computed ← ofExcept (txsetSha256Hex agent.crypto row.multisigTxsetHex)
  deadLetterIf (checkStoredHash agent.crypto row computed = false) row
    (s!"txset hash mismatch for pending_id={row.id}: computed_sha256={computed} "
      ++ s!"stored={row.txsetHashHex}")
  let snapshotHashHex ← ofExcept
    (normalizeHexExact row.snapshotHashHex 64 "pending.snapshot_hash_hex")
  let active ← ask (.activeSnapshotForEscrow row.escrowIdHex)
  let active ← okOr active s!"no active snapshot for escrow {row.escrowIdHex}"
  deadLetterIf (eqIgnoreAsciiCase snapshotHashHex active.hashHex = false) row
    (s!"pending snapshot mismatch for pending_id={row.id}: pending={snapshotHashHex} "
      ++ s!"active={active.hashHex}")
  let snapshot ← ofExcept active.snapshotJson.fromStr
  let snapshotHash := canonicalPolicyHashSha256Hex agent.crypto snapshot
  let action ← ofExcept (parsePendingAction row.action)
  validateStoredEscrowAdmission agent row.escrowIdHex snapshotHash action none
  ask .ensureWalletOpen
  let check ← describeTransfer "describe_transfer failed during approval: " row.multisigTxsetHex
  match validateTransferAgainstSnapshot snapshot action check with
  | .error e =>
    deadLetter row s!"policy check failed during approval for pending_id={row.id}: {e}"
  | .ok () => pure ⟨row.escrowIdHex, action, row.multisigTxsetHex, computed, snapshotHash⟩

/-- Send a staged approval and close the row. -/
def resendApproval (agent : SignerAgent) (id : Int) (row : PendingTxSign) : Flow Unit := do
  let staged ← ofExcept (parseApprovedSendState id row.decisionReason)
  sendBodyWithSeq agent row.fromId row.escrowIdHex .txSignResp
    (approvalBody row staged.signedTxDataHex staged.txHashList) staged.outSeq
  ask (.setPendingStatus id .approvedSent none)

/-- Stage a signed approval, send it and close the row. -/
def stageAndSendApproval (agent : SignerAgent) (id : Int) (row : PendingTxSign)
    (signed : SignedMultisigTx) : Flow Unit := do
  let outSeq ← ask (.nextOutSeq row.escrowIdHex agent.localId)
  ask (.setPendingStatus id .approvedSending
    (some (.approvedSend ⟨signed.txDataHex, signed.txHashList, some outSeq⟩)))
  sendBodyWithSeq agent row.fromId row.escrowIdHex .txSignResp
    (approvalBody row signed.txDataHex signed.txHashList) (some outSeq)
  ask (.setPendingStatus id .approvedSent none)

/-- The part of an approval that holds the request. -/
def approveFresh (agent : SignerAgent) (a : Authority) (exp : Nat) (txDataHex : String) :
    Flow SignedMultisigTx := do
  consumeOrAbort a "sign_multisig" exp
  let signed ← walletSign a txDataHex
  recordEvidence agent (fun _ => pure ()) a signed
  pure signed

def missingApprovalToken (v : ActionTokenVerifier) : String :=
  if v.required then "action token required for approve in current signer configuration"
  else "action token required for approve_pending in current signer configuration"

/-- Sign what the row asks for. -/
def approveSign (agent : SignerAgent) (row : PendingTxSign) (token : Option String) :
    Flow SignedMultisigTx := do
  let job ← prepareApproval agent row
  match agent.verifier with
  | none => ask (.signMultisig none job.txDataHex)
  | some v => do
    let token ← okOr token (missingApprovalToken v)
    let t ← verifySignMultisig agent v token job.escrowIdHex job.txsetHashHex job.snapshotHash
    validateStoredEscrowAdmission agent job.escrowIdHex job.snapshotHash job.action
      t.claims.escrowAdmissionHash
    let a := t.authority job.escrowIdHex job.txsetHashHex
    ask (startRequest a "sign_multisig")
    approveFresh agent a t.claims.exp job.txDataHex

/-- What the status read says is to be done. -/
def approveRow (agent : SignerAgent) (id : Int) (token : Option String) (row : PendingTxSign) :
    Flow Unit :=
  match row.status with
  | .approvedSending => resendApproval agent id row
  | .pending => do
    let signed ← approveSign agent row token
    stageAndSendApproval agent id row signed
  | status => fail (s!"pending id {id} has status '{status.text}', "
      ++ "expected 'pending' or 'approved_sending'")

def approvePending (agent : SignerAgent) (id : Int) (token : Option String) : Flow Unit := do
  let row ← ask (.getPending id)
  let row ← okOr row s!"pending id {id} not found"
  approveRow agent id token row

/-! ## 4. Rejecting -/

def rejectionBody (row : PendingTxSign) (reason : String) : EscrowBody :=
  .err ⟨row.escrowIdHex, "tx_sign_rejected", reason⟩

def resendRejection (agent : SignerAgent) (id : Int) (row : PendingTxSign) : Flow Unit := do
  let staged ← ofExcept (parseRejectedSendState id row.decisionReason)
  sendBodyWithSeq agent row.fromId row.escrowIdHex .error (rejectionBody row staged.reason)
    staged.outSeq
  ask (.setPendingStatus id .rejected (some (.text staged.reason)))

/-- The reason is staged as it was given. -/
def stageAndSendRejection (agent : SignerAgent) (id : Int) (row : PendingTxSign)
    (reason : String) : Flow Unit := do
  let outSeq ← ask (.nextOutSeq row.escrowIdHex agent.localId)
  ask (.setPendingStatus id .rejectedSending (some (.rejectedSend ⟨reason, some outSeq⟩)))
  sendBodyWithSeq agent row.fromId row.escrowIdHex .error (rejectionBody row reason) (some outSeq)
  ask (.setPendingStatus id .rejected (some (.text reason)))

def rejectRow (agent : SignerAgent) (id : Int) (reason : String) (row : PendingTxSign) :
    Flow Unit :=
  match row.status with
  | .rejectedSending => resendRejection agent id row
  | .pending => stageAndSendRejection agent id row reason
  | status => fail (s!"pending id {id} has status '{status.text}', "
      ++ "expected 'pending' or 'rejected_sending'")

def rejectPending (agent : SignerAgent) (id : Int) (reason : String) : Flow Unit := do
  let row ← ask (.getPending id)
  let row ← okOr row s!"pending id {id} not found"
  rejectRow agent id reason row

end Nexum.Signer
