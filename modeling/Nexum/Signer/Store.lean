import Nexum.Orchestrator.Proofs
import Nexum.Signer.Support

/-!
# The signer's database

One SQLite file per signer. Each method below is one transaction: it reads and writes the tables
as a whole and either commits or changes nothing. A table whose only constraint is its primary
key is a partial function on that key; a table with further `UNIQUE` constraints, or one that is
read in some order, is the list of its rows.

Three ways of writing matter later. `start_sign_request` and `consume_action_jti` insert and
**fail on a duplicate**; `record_sign_event` is `INSERT OR IGNORE`, so **the first row wins**;
`set_pending_status` updates by id **whatever the status was**. Requests in progress can be
deleted again (`abort_sign_request`), completed ones and consumed token ids never are.
-/

namespace Nexum.Signer

open Nexum.Lib
open Nexum.Transport
open Nexum.Orchestrator (ProofKey)

/-! ## 1. Rows -/

structure SignedMultisigTx where
  txDataHex : String
  txHashList : List String
  deriving DecidableEq

/-- What a completed request answered, kept for a repeated call. -/
structure SignRequestCachedResult where
  op : String
  txDataHex : Option String
  txHashList : List String
  deriving DecidableEq

structure ApprovedSendState where
  signedTxDataHex : String
  txHashList : List String
  outSeq : Option Nat
  deriving DecidableEq

structure RejectedSendState where
  reason : String
  outSeq : Option Nat
  deriving DecidableEq

/-- The `decision_reason` column: free text, or one of the two staged payloads as JSON. -/
inductive DecisionReason
  | text (s : String)
  | approvedSend (staged : ApprovedSendState)
  | rejectedSend (staged : RejectedSendState)
  deriving DecidableEq

inductive PendingStatus
  | pending | approved | approvedSending | approvedSent | rejectedSending | rejected
  | failedDeadLetter
  deriving DecidableEq

def PendingStatus.text : PendingStatus → String
  | .pending => "pending"
  | .approved => "approved"
  | .approvedSending => "approved_sending"
  | .approvedSent => "approved_sent"
  | .rejectedSending => "rejected_sending"
  | .rejected => "rejected"
  | .failedDeadLetter => "failed_dead_letter"

structure PendingTxSign where
  id : Int
  escrowIdHex : String
  fromId : String
  toId : String
  seq : Nat
  action : Json EscrowAction
  snapshotHashHex : String
  multisigTxsetHex : String
  txsetHashHex : String
  status : PendingStatus
  decisionReason : Option DecisionReason
  deriving DecidableEq

inductive SignRequestStatus
  | inProgress | completed
  deriving DecidableEq

structure SignRequestRow where
  escrowIdHex : String
  op : String
  signRound : String
  txsetHashHex : String
  status : SignRequestStatus
  deriving DecidableEq

structure SignRequestResult where
  op : String
  responseJson : Json SignRequestCachedResult
  deriving DecidableEq

structure ConsumedJti where
  escrowIdHex : String
  op : String
  signRound : String
  reqId : String
  expUnixS : Nat
  deriving DecidableEq

/-- Evidence that a transaction set was signed: under which key, token and request. -/
structure SignEvent where
  key : ProofKey
  jti : String
  reqId : String
  deriving DecidableEq

structure SnapshotRow where
  hashHex : String
  escrowIdHex : String
  snapshotJson : Json ContractSnapshot
  active : Bool
  createdAtMs : Nat
  deriving DecidableEq

structure EscrowAdmissionArtifactRow where
  artifactHashHex : String
  artifactJson : Json EscrowAdmissionArtifact
  deriving DecidableEq

structure IncomingSeen where
  escrowIdHex : String
  fromId : String
  seq : Nat
  deriving DecidableEq

structure SignerDb where
  incomingSeen : List IncomingSeen
  outSeq : String × String → Option Nat
  snapshots : List SnapshotRow
  admissions : String → Option EscrowAdmissionArtifactRow
  pending : List PendingTxSign
  nextPendingId : Nat
  requests : String → Option SignRequestRow
  results : String → Option SignRequestResult
  consumed : String → Option ConsumedJti
  signEvents : List SignEvent

def SignerDb.empty : SignerDb where
  incomingSeen := []
  outSeq _ := none
  snapshots := []
  admissions _ := none
  pending := []
  nextPendingId := 1
  requests _ := none
  results _ := none
  consumed _ := none
  signEvents := []

namespace SignerDb

variable (db : SignerDb)

/-! ## 2. Sequence numbers -/

def i64Max : Nat := 2 ^ 63 - 1

/-- The largest number recorded for a sender in an escrow. -/
def maxSeen (escrowIdHex fromId : String) : Option Nat :=
  ((db.incomingSeen.filter fun r => r.escrowIdHex = escrowIdHex ∧ r.fromId = fromId).map
    (·.seq)).max?

def recordIncomingSeq (escrowIdHex fromId : String) (seq : Nat) :
    Except String Unit × SignerDb :=
  let seq := min seq i64Max
  let stored := { db with incomingSeen := ⟨escrowIdHex, fromId, seq⟩ :: db.incomingSeen }
  match db.maxSeen escrowIdHex fromId with
  | none => (.ok (), stored)
  | some maxSeen =>
    if seq ≤ maxSeen then
      (.error (s!"replay/out-of-order seq detected for ({escrowIdHex}, {fromId}): "
        ++ s!"{seq} <= {maxSeen}"), db)
    else (.ok (), stored)

def nextOutSeq (escrowIdHex fromId : String) : Except String Nat × SignerDb :=
  let next := max (min ((db.outSeq (escrowIdHex, fromId)).getD 0 + 1) i64Max) 1
  (.ok next, { db with outSeq := Function.update db.outSeq (escrowIdHex, fromId) (some next) })

/-! ## 3. Snapshots and admissions -/

/-- The newest active snapshot of the escrow. -/
def activeSnapshotForEscrow (escrowIdHex : String) : Option SnapshotRow :=
  (db.snapshots.filter fun r => r.escrowIdHex = escrowIdHex ∧ r.active = true).foldl
    (fun best r =>
      match best with
      | none => some r
      | some b => if b.createdAtMs < r.createdAtMs then some r else some b) none

def upsertEscrowAdmissionArtifact (escrowIdHex : String) (row : EscrowAdmissionArtifactRow) :
    SignerDb :=
  { db with admissions := Function.update db.admissions escrowIdHex (some row) }

/-! ## 4. The queue of requests awaiting a decision -/

def getPending (id : Int) : Option PendingTxSign :=
  db.pending.find? (·.id = id)

/-- Insert, or overwrite everything but the id and the addressee of the row with the same
    escrow, sender and sequence number. -/
def enqueuePendingTx (row : PendingTxSign) : SignerDb :=
  let row := { row with seq := min row.seq i64Max }
  let same : PendingTxSign → Bool := fun r =>
    r.escrowIdHex = row.escrowIdHex ∧ r.fromId = row.fromId ∧ r.seq = row.seq
  if db.pending.any same then
    { db with pending := db.pending.map fun r =>
        if same r then { row with id := r.id, toId := r.toId } else r }
  else
    { db with
      pending := db.pending ++ [{ row with id := db.nextPendingId }]
      nextPendingId := db.nextPendingId + 1 }

def setPendingStatus (id : Int) (status : PendingStatus) (reason : Option DecisionReason) :
    Except String Unit × SignerDb :=
  if db.pending.any (·.id = id) then
    (.ok (), { db with pending := db.pending.map fun r =>
      if r.id = id then { r with status := status, decisionReason := reason } else r })
  else (.error s!"pending id {id} not found", db)

/-! ## 5. Signing requests and token ids -/

def startSignRequest (reqId escrowIdHex op signRound txsetHashHex : String) :
    Except String Unit × SignerDb :=
  match db.requests reqId with
  | some _ => (.error s!"duplicate req_id: {reqId}", db)
  | none =>
    let row : SignRequestRow := ⟨escrowIdHex, op, signRound, txsetHashHex, .inProgress⟩
    (.ok (), { db with requests := Function.update db.requests reqId (some row) })

def completeSignRequestWithResult (reqId op : String) (response : SignRequestCachedResult) :
    Except String Unit × SignerDb :=
  match db.requests reqId with
  | some row =>
    if row.status ≠ .inProgress then
      (.error s!"sign request {reqId} not found or not in progress", db)
    else if (db.results reqId).isSome then
      (.error "UNIQUE constraint failed: sign_request_result.req_id", db)
    else
      (.ok (), { db with
        requests := Function.update db.requests reqId (some { row with status := .completed })
        results := Function.update db.results reqId (some ⟨op, .encoded response⟩) })
  | none => (.error s!"sign request {reqId} not found or not in progress", db)

def abortSignRequest (reqId : String) : SignerDb :=
  match db.requests reqId with
  | some row =>
    if row.status = .inProgress then
      { db with requests := Function.update db.requests reqId none }
    else db
  | none => db

def consumeActionJti (jti : String) (row : ConsumedJti) : Except String Unit × SignerDb :=
  match db.consumed jti with
  | some _ => (.error s!"replayed jti: {jti}", db)
  | none => (.ok (), { db with consumed := Function.update db.consumed jti (some row) })

/-! ## 6. Evidence -/

/-- One of the three `UNIQUE` constraints stands between the two rows. -/
def Clash (a b : SignEvent) : Prop :=
  a.key = b.key ∨ (a.jti = b.jti ∧ a.key.txsetHashHex = b.key.txsetHashHex) ∨ a.reqId = b.reqId

instance (a b : SignEvent) : Decidable (Clash a b) :=
  inferInstanceAs (Decidable (_ ∨ _ ∨ _))

def recordSignEvent (ev : SignEvent) : SignerDb :=
  if ∃ old ∈ db.signEvents, Clash old ev then db
  else { db with signEvents := db.signEvents ++ [ev] }

def getSignEvent (key : ProofKey) : Option SignEvent :=
  db.signEvents.find? (·.key = key)

variable {db}

/-- A refusal has changed nothing. -/
theorem setPendingStatus_error (id : Int) (status : PendingStatus)
    (reason : Option DecisionReason) (e : String)
    (h : (db.setPendingStatus id status reason).1 = .error e) :
    (db.setPendingStatus id status reason).2 = db := by
  unfold setPendingStatus at h ⊢
  split
  · rw [if_pos ‹_›] at h
    cases h
  · rfl

end SignerDb

end Nexum.Signer
