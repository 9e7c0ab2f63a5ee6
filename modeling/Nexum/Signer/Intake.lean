import Nexum.Signer.Pending

/-!
# Taking messages in

`run`, `process_envelope` and `handle_tx_sign_req`, call by call. A round of the loop pulls what
the mailbox has and handles each message: the envelope is checked and opened, its number is
recorded — which refuses a number that is not above every recorded one — and a signing request is
checked against the escrow's snapshot and put in the queue.

A message is acknowledged when it was processed, and also when processing failed for good. What
counts as failing for good is decided **by looking for certain words in the error's text**
(`should_ack_non_retryable_process_error`); any other failure leaves the message in the mailbox,
to be delivered again.

The number is recorded *before* the request is checked and queued, in a transaction of its own.
-/

namespace Nexum.Signer

open Nexum.Lib Nexum.Lib.Prog
open Nexum.Transport

/-! ## 1. Opening an envelope -/

/-- Everything that is checked of an envelope before its number is recorded. -/
def openIncoming (agent : SignerAgent) (env : NxmsEnvelope) : Except String NxmsPayload := do
  env.validateBasic
  Check.failIf (env.to_ ≠ agent.localId)
    s!"envelope addressed to '{env.to_}' but signer id is '{agent.localId}'"
  Check.failIf (env.kemId ≠ nxmsWireKemIdV1 ∨ env.sigId ≠ nxmsWireSigIdV1)
    "unexpected cipher suite ids"
  let peer ← Check.okOr (agent.peer env.from_) s!"sender '{env.from_}' not in allowlist"
  let _ ← decodeEscrowIdHex env.escrowIdHex
  let payload ← agent.crypto.openEnvelope peer env
  payload.validateMatchesEnvelope env
  pure payload

/-! ## 2. A signing request -/

def EscrowBody.txSignReq? : EscrowBody → Option TxSignReqBody
  | .txSignReq req => some req
  | _ => none

/-- With a trust bundle configured the request has to bring an admission artifact, which is
    verified and kept. -/
def admitTxSignReq (agent : SignerAgent) (req : TxSignReqBody) (snapshotHashHex : String) :
    Flow Unit :=
  match agent.bundle with
  | none => pure ()
  | some _ => do
    let artifact ← okOr req.escrowAdmissionArtifact "tx_sign_req missing escrow_admission_artifact"
    let _ ← ofExcept
      (verifyEscrowAdmissionArtifact agent artifact req.escrowIdHex snapshotHashHex req.action)
    ask (.upsertEscrowAdmissionArtifact artifact.escrowIdHex
      ⟨artifact.hashHex agent.crypto.toAdmissionCrypto, .encoded artifact⟩)

/-- Everything `handle_tx_sign_req` does before the row is queued: the row. -/
def checkTxSignReq (agent : SignerAgent) (payload : NxmsPayload) : Flow PendingTxSign := do
  let body ← ofExcept (agent.crypto.parseBody payload.data)
  let req ← okOr (EscrowBody.txSignReq? body) "tx_sign_req payload kind mismatch"
  ofExcept (validateTxSignReq payload req agent.maxTxsetHexLen)
  let active ← ask (.activeSnapshotForEscrow req.escrowIdHex)
  let active ← okOr active s!"no active snapshot for escrow {req.escrowIdHex}"
  failIf (eqIgnoreAsciiCase (trim req.snapshotHashHex) active.hashHex = false)
    s!"tx_sign_req snapshot_hash mismatch: req={req.snapshotHashHex} active={active.hashHex}"
  let snapshot ← ofExcept active.snapshotJson.fromStr
  admitTxSignReq agent req (canonicalPolicyHashSha256Hex agent.crypto snapshot)
  ask .ensureWalletOpen
  let check ← describeTransfer "describe_transfer failed: " req.multisigTxsetHex
  ofExcept (validateTransferAgainstSnapshot snapshot req.action check)
  let txsetHashHex ← ofExcept (txsetSha256Hex agent.crypto req.multisigTxsetHex)
  pure {
    id := 0
    escrowIdHex := req.escrowIdHex
    fromId := payload.from_
    toId := payload.to_
    seq := payload.seq
    action := .encoded req.action
    snapshotHashHex := active.hashHex
    multisigTxsetHex := req.multisigTxsetHex
    txsetHashHex := txsetHashHex
    status := .pending
    decisionReason := none }

def handleTxSignReq (agent : SignerAgent) (payload : NxmsPayload) : Flow Unit := do
  let row ← checkTxSignReq agent payload
  ask (.enqueuePendingTx row)

/-! ## 3. A message -/

def sendBody (agent : SignerAgent) (recipient escrowIdHex : String) (msgType : MsgType)
    (body : EscrowBody) : Flow Unit :=
  sendBodyWithSeq agent recipient escrowIdHex msgType body none

/-- The answer to a message that is not a signing request. -/
def unsupportedBody (payload : NxmsPayload) : EscrowBody :=
  .err ⟨payload.escrowIdHex, "unsupported_msg_type",
    s!"manual signer supports only tx_sign_req, got {msgTypeKey payload.msgType}"⟩

/-- What is done with a payload whose number was recorded. -/
def handlePayload (agent : SignerAgent) (payload : NxmsPayload) : Flow Unit :=
  match payload.msgType with
  | .txSignReq => handleTxSignReq agent payload
  | _ => sendBody agent payload.from_ payload.escrowIdHex .error (unsupportedBody payload)

def processEnvelope (agent : SignerAgent) (env : NxmsEnvelope) : Flow Unit := do
  let payload ← ofExcept (openIncoming agent env)
  ask (.recordIncomingSeq payload.escrowIdHex payload.from_ payload.seq env)
  handlePayload agent payload

/-- The words that make an error one that another delivery would not help. -/
def nonRetryableMarkers : List String :=
  [ "sender '", "not in allowlist", "envelope addressed to", "unexpected cipher suite ids",
    "unsupported msg_type", "invalid action token", "action token scope/op mismatch",
    "action token ttl exceeds", "action token jti invalid", "action token wallet_id mismatch",
    "action token sandbox_id mismatch", "action token nettype mismatch", "replayed jti",
    "replay/out-of-order seq detected", "replay seq detected",
    "tx_sign_req payload kind mismatch", "payload too large", "seq must be > 0",
    "must be 64 hex chars" ]

def shouldAckNonRetryableProcessError (err : String) : Bool :=
  nonRetryableMarkers.any (containsText (toAsciiLowercase err))

/-! ## 4. The loop -/

def mailboxPullWithRetry (agent : SignerAgent) : Flow (List PulledMessage) :=
  retry Call.mailboxPull "mailbox pull failed without error details" agent.mailboxAttempts

def mailboxAckWithRetry (agent : SignerAgent) (m : PulledMessage) : Flow Unit :=
  retry (Call.mailboxAck m.receipt m.envelope) "mailbox ack failed without error details"
    agent.mailboxAttempts

/-- A failed acknowledgement is only logged. -/
def ackMessage (agent : SignerAgent) (m : PulledMessage) : Flow Unit := do
  let _ ← (mailboxAckWithRetry agent m).reify
  pure ()

/-- What the end of processing means for the message. -/
def settleMessage (agent : SignerAgent) (m : PulledMessage) : Except String Unit → Flow Unit
  | .ok () => ackMessage agent m
  | .error err =>
    if shouldAckNonRetryableProcessError err then ackMessage agent m else pure ()

def handleMessage (agent : SignerAgent) (m : PulledMessage) : Flow Unit := do
  let outcome ← (processEnvelope agent m.envelope).reify
  settleMessage agent m outcome

def handleMessages (agent : SignerAgent) : List PulledMessage → Flow Unit
  | [] => pure ()
  | m :: rest => do
    handleMessage agent m
    handleMessages agent rest

/-- One round of `run`. -/
def runOnce (agent : SignerAgent) : Flow Unit := do
  match ← (mailboxPullWithRetry agent).reify with
  | .ok messages => handleMessages agent messages
  | .error _ => pure ()

end Nexum.Signer
