import Nexum.Lib.Runs
import Nexum.Signer.Store
import Nexum.Signer.Token

/-!
# What the signer's flows talk to

A flow of the signer is a program over the calls below: its own database, the wallet, the
orchestrator's command line, the mailbox and the clock. `World` is everything of that whose state
matters — the signer's database and the orchestrator's. `exec` says how a call can go:

* **any call may fail, with any text, and then nothing has changed**;
* a call to a database otherwise does what the database method does;
* a call to the orchestrator may also take effect *and* be reported as failed, when the process
  that made it is killed for running too long;
* the wallet, the mailbox, the clock, the cipher and the rate limiter answer as they please.

Writing to the audit log is best effort in every flow, its outcome is discarded and no flow reads
it; it is left out. So is the log's text.
-/

namespace Nexum.Signer

open Nexum.Lib
open Nexum.Transport
open Nexum.Orchestrator (ProofKey OrchestratorDb)

/-! ## 1. Calls -/

/-- On whose behalf a flow is at work: the request it holds, the claims of the token it was
    given, and the transaction set this is about. -/
structure Authority where
  reqId : String
  claims : ActionClaims
  escrowIdHex : String
  txsetHashHex : String
  deriving DecidableEq

def Authority.jti (a : Authority) : String := a.claims.jti

/-- What a signature made under this authority is for. -/
def Authority.key (a : Authority) : ProofKey :=
  ⟨a.escrowIdHex, a.claims.role, a.claims.signRound, a.txsetHashHex⟩

/-- The five base64 fields the cipher produces. -/
structure SealedPacket where
  kemCtB64 : String
  nonceB64 : String
  ciphertextB64 : String
  tagB64 : String
  sigB64 : String
  deriving DecidableEq

structure PulledMessage where
  receipt : String
  envelope : NxmsEnvelope
  deriving DecidableEq

/-- The calls. The `Authority` of a wallet call, the body beside a pushed envelope, and the
    envelope beside a recorded number or an acknowledged receipt are not sent to anyone: they are
    the flow's own variables at that point, kept so that a history says on whose behalf the
    wallet was used, what an envelope contains and which one a call is about. -/
inductive Call
  | activeSnapshotForEscrow (escrowIdHex : String)
  | getEscrowAdmissionArtifact (escrowIdHex : String)
  | upsertEscrowAdmissionArtifact (escrowIdHex : String) (row : EscrowAdmissionArtifactRow)
  | recordIncomingSeq (escrowIdHex fromId : String) (seq : Nat) (env : NxmsEnvelope)
  | nextOutSeq (escrowIdHex fromId : String)
  | enqueuePendingTx (row : PendingTxSign)
  | getPending (id : Int)
  | setPendingStatus (id : Int) (status : PendingStatus) (reason : Option DecisionReason)
  | startSignRequest (reqId escrowIdHex op signRound txsetHashHex : String)
  | getSignRequest (reqId : String)
  | completeSignRequestWithResult (reqId op : String) (response : SignRequestCachedResult)
  | getSignRequestResult (reqId : String)
  | abortSignRequest (reqId : String)
  | consumeActionJti (jti : String) (row : ConsumedJti)
  | recordSignEvent (ev : SignEvent)
  | getSignEvent (key : ProofKey)
  | quorumProofSet (escrowIdHex role signRound txsetHashHex jti reqId : String)
  | submitBundle (escrowIdHex txsetHashHex : String)
  | ensureWalletOpen
  | describeTransfer (txDataHex : String)
  | signMultisig (on : Option Authority) (txDataHex : String)
  | submitMultisig (on : Option Authority) (txDataHex : String)
  | encrypt (peer : Peer) (payload : NxmsPayload)
  | mailboxPush (env : NxmsEnvelope) (body : EscrowBody)
  | mailboxPull
  | mailboxAck (receipt : String) (env : NxmsEnvelope)
  | unixNow
  | rateLimitCheck (token : String) (now : Nat)

abbrev Call.Out : Call → Type
  | .activeSnapshotForEscrow _ => Option SnapshotRow
  | .getEscrowAdmissionArtifact _ => Option EscrowAdmissionArtifactRow
  | .upsertEscrowAdmissionArtifact _ _ => Unit
  | .recordIncomingSeq _ _ _ _ => Unit
  | .nextOutSeq _ _ => Nat
  | .enqueuePendingTx _ => Unit
  | .getPending _ => Option PendingTxSign
  | .setPendingStatus _ _ _ => Unit
  | .startSignRequest _ _ _ _ _ => Unit
  | .getSignRequest _ => Option SignRequestRow
  | .completeSignRequestWithResult _ _ _ => Unit
  | .getSignRequestResult _ => Option (Json SignRequestCachedResult)
  | .abortSignRequest _ => Unit
  | .consumeActionJti _ _ => Unit
  | .recordSignEvent _ => Unit
  | .getSignEvent _ => Option SignEvent
  | .quorumProofSet _ _ _ _ _ _ => Unit
  | .submitBundle _ _ => OrchestratorDb.SubmitMultisigProofBundle
  | .ensureWalletOpen => Unit
  | .describeTransfer _ => Option (List DescribeTransferRow)
  | .signMultisig _ _ => SignedMultisigTx
  | .submitMultisig _ _ => List String
  | .encrypt _ _ => SealedPacket
  | .mailboxPush _ _ => Unit
  | .mailboxPull => List PulledMessage
  | .mailboxAck _ _ => Unit
  | .unixNow => Nat
  | .rateLimitCheck _ _ => Unit

/-- A program of the signer. -/
abbrev Flow (α : Type) : Type := Prog Call Call.Out String α

/-- Make a call; its failure is the flow's own. -/
abbrev ask (c : Call) : Flow c.Out := Prog.perform c

/-- Make a call and look at how it went. -/
abbrev tryAsk (c : Call) : Flow (Except String c.Out) := Prog.attempt c

/-! ## 2. The world -/

structure World where
  db : SignerDb
  orch : OrchestratorDb

namespace World

/-- A read of the signer's database. -/
def read {α : Type} (w : World) (a : α) : Option (Except String α × World) :=
  some (.ok a, w)

/-- A write to it that cannot be refused. -/
def write (w : World) (db : SignerDb) : Option (Except String Unit × World) :=
  some (.ok (), { w with db := db })

/-- A transaction on it. -/
def transact {α : Type} (w : World) (r : Except String α × SignerDb) :
    Option (Except String α × World) :=
  some (r.1, { w with db := r.2 })

/-- How the orchestrator's process reports a failure of its own. -/
def orchestratorFailed (e : String) : String :=
  s!"orchestrator command failed: status=Some(1) stderr='Error: {e}' stdout=''"

/-- What the databases answer. `none` for a call that is not theirs. -/
def serve (w : World) : (c : Call) → Option (Except String c.Out × World)
  | .activeSnapshotForEscrow e => w.read (w.db.activeSnapshotForEscrow e)
  | .getEscrowAdmissionArtifact e => w.read (w.db.admissions e)
  | .upsertEscrowAdmissionArtifact e row => w.write (w.db.upsertEscrowAdmissionArtifact e row)
  | .recordIncomingSeq e f s _ => w.transact (w.db.recordIncomingSeq e f s)
  | .nextOutSeq e f => w.transact (w.db.nextOutSeq e f)
  | .enqueuePendingTx row => w.write (w.db.enqueuePendingTx row)
  | .getPending id => w.read (w.db.getPending id)
  | .setPendingStatus id status reason => w.transact (w.db.setPendingStatus id status reason)
  | .startSignRequest r e op round h => w.transact (w.db.startSignRequest r e op round h)
  | .getSignRequest r => w.read (w.db.requests r)
  | .completeSignRequestWithResult r op resp =>
    w.transact (w.db.completeSignRequestWithResult r op resp)
  | .getSignRequestResult r => w.read ((w.db.results r).map (·.responseJson))
  | .abortSignRequest r => w.write (w.db.abortSignRequest r)
  | .consumeActionJti jti row => w.transact (w.db.consumeActionJti jti row)
  | .recordSignEvent ev => w.write (w.db.recordSignEvent ev)
  | .getSignEvent key => w.read (w.db.getSignEvent key)
  | .quorumProofSet e role round h jti r =>
    let (x, orch) := w.orch.upsertQuorumSignProof e role round h jti r
    some (x.mapError orchestratorFailed, { w with orch := orch })
  | .submitBundle e h =>
    some ((w.orch.getSubmitMultisigProofBundle e h).mapError orchestratorFailed, w)
  | .ensureWalletOpen => none
  | .describeTransfer _ => none
  | .signMultisig _ _ => none
  | .submitMultisig _ _ => none
  | .encrypt _ _ => none
  | .mailboxPush _ _ => none
  | .mailboxPull => none
  | .mailboxAck _ _ => none
  | .unixNow => none
  | .rateLimitCheck _ _ => none

end World

/-- Calls that go through a separate process, which can die after its work is done. -/
def Call.remote : Call → Bool
  | .quorumProofSet _ _ _ _ _ _ => true
  | _ => false

/-- **How a call can go.** -/
inductive exec : Services Call Call.Out String World
  | served {w w' : World} {c : Call} {r : Except String c.Out} (h : w.serve c = some (r, w')) :
      exec w c r w'
  | failed {w : World} {c : Call} (e : String) : exec w c (.error e) w
  | unreported {w w' : World} {c : Call} {r : Except String c.Out} (e : String)
      (hremote : c.remote = true) (h : w.serve c = some (r, w')) : exec w c (.error e) w'
  | elsewhere {w : World} {c : Call} (r : Except String c.Out) (h : w.serve c = none) :
      exec w c r w

end Nexum.Signer
