import Nexum.Lib.History
import Nexum.Lib.Saturating
import Nexum.Lib.Table
import Nexum.Orchestrator.Proofs

/-!
# The orchestrator's books

The orchestrator does not hold keys and does not move money. It keeps books: how far each escrow
has come (`workflow_instances`), which message brought it there (`workflow_steps`), what is to be
sent to whom (`outbox`), what went wrong for good (`dead_letters`) and how far each peer has been
read (`inbox_offsets`). This module has the tables and the calls that write them; each call is one
transaction, so whatever the clients do is a list of calls.

Steps and outgoing messages are filed under a digest of what identifies them. A second message
under a taken key is not filed again: **a repeated step is a duplicate or a conflict**, a repeated
outgoing message is passed over.

Section 5 states once what a call can do to the tables. Every invariant is derived from that.
-/

namespace Nexum.Orchestrator

open Nexum.Lib Nexum.Lib.Check

/-! ## 1. The states of a workflow -/

def WorkflowState.asStr : WorkflowState → String
  | .new => "new"
  | .prepareCollected => "prepare_collected"
  | .makeCollected => "make_collected"
  | .exchangeR1Collected => "exchange_r1_collected"
  | .exchangeR2Collected => "exchange_r2_collected"
  | .finalizedReady => "finalized_ready"
  | .funded => "funded"
  | .txSignPending => "tx_sign_pending"
  | .txSignedQuorum => "tx_signed_quorum"
  | .submitted => "submitted"
  | .confirmed => "confirmed"
  | .failedDeadLetter => "failed_dead_letter"

def WorkflowState.canTransitionTo : WorkflowState → WorkflowState → Bool
  | .new, .prepareCollected
  | .prepareCollected, .makeCollected
  | .makeCollected, .exchangeR1Collected
  | .exchangeR1Collected, .exchangeR2Collected
  | .exchangeR2Collected, .finalizedReady
  | .finalizedReady, .funded
  | .funded, .txSignPending
  | .txSignPending, .txSignedQuorum
  | .txSignedQuorum, .submitted
  | .submitted, .confirmed => true
  | .confirmed, .failedDeadLetter => false
  | .failedDeadLetter, _ => false
  | _, .failedDeadLetter => true
  | _, _ => false

/-- A message is of the current state or of one that can follow it. -/
def WorkflowState.allows (current state : WorkflowState) : Bool :=
  current = state || current.canTransitionTo state

def expectedMsgTypeForState : WorkflowState → Option String
  | .prepareCollected => some "prepare_info"
  | .makeCollected => some "make_info"
  | .exchangeR1Collected => some "exchange_round1"
  | .exchangeR2Collected => some "exchange_round2"
  | .funded => some "escrow_funded"
  | .txSignPending => some "tx_sign_req"
  | .txSignedQuorum => some "tx_sign_resp"
  | _ => none

/-! ## 2. Tables -/

structure WorkflowInstance where
  escrowIdHex : String
  state : WorkflowState
  snapshotHashHex : String
  participants : List String
  deriving DecidableEq

structure StepInput where
  escrowIdHex : String
  state : WorkflowState
  fromId : String
  seq : Nat
  msgType : String
  payloadHashHex : String
  deriving DecidableEq

inductive StepOutcome
  | accepted | replayDuplicate
  deriving DecidableEq

/-- Every row that is written has status `accepted` and no detail. -/
structure WorkflowStep where
  escrowIdHex : String
  state : WorkflowState
  fromId : String
  seq : Int
  msgType : String
  idemKey : String
  payloadHashHex : String
  deriving DecidableEq

structure OutboxInput where
  escrowIdHex : String
  state : WorkflowState
  toId : String
  msgType : String
  envelopeJson : String
  deriving DecidableEq

inductive OutboxStatus
  | pending | sent | acked | deadLetter
  deriving DecidableEq

def OutboxStatus.asStr : OutboxStatus → String
  | .pending => "pending"
  | .sent => "sent"
  | .acked => "acked"
  | .deadLetter => "dead_letter"

/-- Delivery is still going on. -/
def OutboxStatus.isOpen : OutboxStatus → Bool
  | .pending | .sent => true
  | .acked | .deadLetter => false

structure OutboxRow where
  id : Int
  escrowIdHex : String
  state : WorkflowState
  toId : String
  msgType : String
  envelopeJson : String
  idemKey : String
  status : OutboxStatus
  attempts : Int
  nextAttemptAtMs : Int
  createdAtMs : Int
  updatedAtMs : Int
  deriving DecidableEq

/-- The counter would leave the integers of the database after `2 ^ 63` calls. -/
def OutboxRow.handed (now : Int) (row : OutboxRow) : OutboxRow :=
  { row with status := .sent, attempts := row.attempts + 1, updatedAtMs := now }

def OutboxRow.done (now : Int) (row : OutboxRow) : OutboxRow :=
  { row with status := .acked, updatedAtMs := now }

/-- A row after a failed delivery. -/
def OutboxRow.failed (now : Int) (backoffMs : Nat) (status : OutboxStatus) (attempts : Int)
    (row : OutboxRow) : OutboxRow :=
  { row with status, attempts, updatedAtMs := now
             nextAttemptAtMs := satAddI64 now (clampI64 (max backoffMs 100)) }

structure DeadLetter where
  escrowIdHex : String
  stage : String
  lastErrorCode : String
  lastErrorDetailRedacted : String
  attempts : Nat
  payloadHashHex : Option String
  deriving DecidableEq

structure InboxOffset where
  peerId : String
  escrowIdHex : String
  lastSeq : Int
  deriving DecidableEq

structure FlowDb where
  workflows : List WorkflowInstance
  steps : List WorkflowStep
  outbox : List OutboxRow
  deadLetters : List DeadLetter
  offsets : List InboxOffset
  deriving DecidableEq

/-! ## 3. Keys -/

section
variable (sha3 : List UInt8 → List UInt8)

def sha3Hex (bytes : List UInt8) : String := hexEncode (sha3 bytes)

def stepIdemKey (escrowIdHex : String) (state : WorkflowState) (fromId : String) (seq : Nat) :
    String :=
  sha3Hex sha3 (utf8 s!"{escrowIdHex}:{state.asStr}:{fromId}:{seq}")

def outboxIdemKey (escrowIdHex : String) (state : WorkflowState) (toId msgType : String)
    (payloadHashHex : String) : String :=
  sha3Hex sha3 (utf8 s!"{escrowIdHex}:{state.asStr}:{toId}:{msgType}:{payloadHashHex}")

/-- The row of an accepted step. -/
def StepInput.row (step : StepInput) : WorkflowStep :=
  { escrowIdHex := step.escrowIdHex, state := step.state, fromId := step.fromId
    seq := clampI64 step.seq, msgType := step.msgType
    idemKey := stepIdemKey sha3 step.escrowIdHex step.state step.fromId step.seq
    payloadHashHex := step.payloadHashHex }

/-- The key of an outgoing message. -/
def OutboxInput.idemKey (msg : OutboxInput) : String :=
  outboxIdemKey sha3 msg.escrowIdHex msg.state msg.toId msg.msgType
    (sha3Hex sha3 (utf8 msg.envelopeJson))

end

/-! ## 4. Calls -/

def normalizeParticipantsFrom (out : List String) : List String → Except String (List String)
  | [] => pure out
  | raw :: rest => do
    let p ← normalizeNonEmpty raw "participant"
    failIf (p ∈ out) s!"duplicate participant '{p}'"
    normalizeParticipantsFrom (out ++ [p]) rest

def normalizeParticipants (participants : List String) : Except String (List String) := do
  failIf (participants = []) "participants must not be empty"
  normalizeParticipantsFrom [] participants

def StepInput.normalize (input : StepInput) : Except String StepInput := do
  let escrowIdHex ← normalizeHexExact input.escrowIdHex 32 "escrow_id_hex"
  let fromId ← normalizeNonEmpty input.fromId "from_id"
  let msgType ← normalizeNonEmpty input.msgType "msg_type"
  let payloadHashHex ← normalizeHexExact input.payloadHashHex 64 "payload_hash_hex"
  pure ⟨escrowIdHex, input.state, fromId, input.seq, msgType, payloadHashHex⟩

def OutboxInput.normalize (input : OutboxInput) : Except String OutboxInput := do
  let escrowIdHex ← normalizeHexExact input.escrowIdHex 32 "escrow_id_hex"
  let toId ← normalizeNonEmpty input.toId "to_id"
  let msgType ← normalizeNonEmpty input.msgType "msg_type"
  pure ⟨escrowIdHex, input.state, toId, msgType, input.envelopeJson⟩

def checkMsgType (state : WorkflowState) (msgType : String) : Except String Unit :=
  match expectedMsgTypeForState state with
  | some expected =>
    failIf (expected ≠ msgType)
      s!"state {state.debug} expects msg_type '{expected}', got '{msgType}'"
  | none => pure ()

/-- `u32::try_from(n).unwrap_or(u32::MAX)`. -/
def clampU32 (n : Int) : Nat :=
  if 0 ≤ n ∧ n < 2 ^ 32 then n.toNat else 2 ^ 32 - 1

namespace FlowDb

def empty : FlowDb := ⟨[], [], [], [], []⟩

variable (db : FlowDb)

def workflow (escrowIdHex : String) : Option WorkflowInstance :=
  db.workflows.find? (·.escrowIdHex = escrowIdHex)

def state (escrowIdHex : String) : Option WorkflowState :=
  (db.workflow escrowIdHex).map (·.state)

def outboxRow (id : Int) : Option OutboxRow :=
  db.outbox.find? (·.id = id)

/-- A transaction: the checks, and the write they lead to. -/
def write {α : Type} (checks : Except String α) (put : α → FlowDb) :
    Except String Unit × FlowDb :=
  match checks with
  | .ok a => (.ok (), put a)
  | .error e => (.error e, db)

/-- The primary key refuses a second workflow of the escrow. -/
def checkCreate (escrowIdHex snapshotHashHex : String) (participants : List String) :
    Except String WorkflowInstance := do
  let escrowIdHex ← normalizeHexExact escrowIdHex 32 "escrow_id_hex"
  let snapshotHashHex ← normalizeHexExact snapshotHashHex 64 "snapshot_hash_hex"
  let participants ← normalizeParticipants participants
  failIf (db.workflow escrowIdHex ≠ none)
    "UNIQUE constraint failed: workflow_instances.escrow_id_hex"
  pure ⟨escrowIdHex, .new, snapshotHashHex, participants⟩

def createWorkflow (escrowIdHex snapshotHashHex : String) (participants : List String) :
    Except String Unit × FlowDb :=
  db.write (db.checkCreate escrowIdHex snapshotHashHex participants) fun wf =>
    { db with workflows := db.workflows ++ [wf] }

def setState (escrowIdHex : String) (toState : WorkflowState) : FlowDb :=
  { db with workflows := db.workflows.map fun wf =>
      if wf.escrowIdHex = escrowIdHex then { wf with state := toState } else wf }

def checkTransition (escrowIdHex : String) (toState : WorkflowState) : Except String String := do
  let escrowIdHex ← normalizeHexExact escrowIdHex 32 "escrow_id_hex"
  let wf ← okOr (db.workflow escrowIdHex) s!"workflow not found for escrow_id_hex={escrowIdHex}"
  failIf (wf.state.canTransitionTo toState = false)
    s!"invalid workflow transition: {wf.state.debug} -> {toState.debug}"
  pure escrowIdHex

/-- The reason is taken and not stored. -/
def transitionWorkflow (escrowIdHex : String) (toState : WorkflowState)
    (_reason : Option String) : Except String Unit × FlowDb :=
  db.write (db.checkTransition escrowIdHex toState) fun escrowIdHex =>
    db.setState escrowIdHex toState

/-- The checks that steps and outgoing messages share: the workflow exists, the peer is one of
    its participants, the state is the current one or can follow it, and the type fits. -/
def checkMessage (label kind escrowIdHex peerId : String) (state : WorkflowState)
    (msgType : String) : Except String Unit := do
  let wf ← okOr (db.workflow escrowIdHex) s!"workflow not found for escrow_id_hex={escrowIdHex}"
  failIf (peerId ∉ wf.participants)
    s!"{label} '{peerId}' is not allowlisted for escrow '{escrowIdHex}'"
  failIf (wf.state.allows state = false) (s!"workflow precondition failed: current state "
    ++ s!"{wf.state.debug} does not allow {kind} state {state.debug}")
  checkMsgType state msgType

def addDeadLetter (letter : DeadLetter) : FlowDb :=
  { db with deadLetters := db.deadLetters ++ [letter] }

def checkStep (input : StepInput) : Except String StepInput := do
  let step ← input.normalize
  db.checkMessage "from_id" "step" step.escrowIdHex step.fromId step.state step.msgType
  pure step

/-- What is noted down when a step comes a second time with another payload. -/
def conflict (step : StepInput) : DeadLetter :=
  { escrowIdHex := step.escrowIdHex, stage := "step_record"
    lastErrorCode := "idem_payload_conflict"
    lastErrorDetailRedacted := "same idempotency key with different payload hash"
    attempts := 1, payloadHashHex := some step.payloadHashHex }

/-- The one call that can fail and still change the tables: a conflict is committed. -/
def recordStep (sha3 : List UInt8 → List UInt8) (input : StepInput) :
    Except String StepOutcome × FlowDb :=
  match db.checkStep input with
  | .error e => (.error e, db)
  | .ok step =>
    match db.steps.find? (·.idemKey = (step.row sha3).idemKey) with
    | some existing =>
      if eqIgnoreAsciiCase existing.payloadHashHex step.payloadHashHex then
        (.ok .replayDuplicate, db)
      else
        (.error (s!"idempotency conflict for escrow={step.escrowIdHex} "
          ++ s!"from={step.fromId} seq={step.seq}"), db.addDeadLetter (conflict step))
    | none => (.ok .accepted, { db with steps := db.steps ++ [step.row sha3] })

def checkOutbox (input : OutboxInput) : Except String OutboxInput := do
  let msg ← input.normalize
  db.checkMessage "to_id" "outbox" msg.escrowIdHex msg.toId msg.state msg.msgType
  pure msg

/-- Rows are never deleted, so the next id is one past their number. -/
def newRow (sha3 : List UInt8 → List UInt8) (now : Int) (msg : OutboxInput) : OutboxRow :=
  { id := db.outbox.length + 1, escrowIdHex := msg.escrowIdHex, state := msg.state
    toId := msg.toId, msgType := msg.msgType, envelopeJson := msg.envelopeJson
    idemKey := msg.idemKey sha3, status := .pending, attempts := 0, nextAttemptAtMs := now
    createdAtMs := now, updatedAtMs := now }

/-- A message whose key is taken is answered like one that was stored. -/
def enqueueOutbox (sha3 : List UInt8 → List UInt8) (now : Int) (input : OutboxInput) :
    Except String Unit × FlowDb :=
  db.write (db.checkOutbox input) fun msg =>
    if db.outbox.any (·.idemKey = msg.idemKey sha3) then db
    else { db with outbox := db.outbox ++ [db.newRow sha3 now msg] }

/-- `UPDATE outbox SET … WHERE …`. -/
def updateOutbox (which : OutboxRow → Bool) (set : OutboxRow → OutboxRow) : FlowDb :=
  { db with outbox := db.outbox.map fun row => if which row then set row else row }

def openRow (id : Int) (row : OutboxRow) : Bool :=
  row.id = id && row.status.isOpen

def checkOpen (id : Int) : Except String Unit := do
  failIf (id ≤ 0) "outbox id must be > 0"
  failIf (db.outbox.any (openRow id) = false)
    s!"outbox row {id} not found or not in pending/sent state"

def markOutboxSent (now id : Int) : Except String Unit × FlowDb :=
  db.write (db.checkOpen id) fun _ => db.updateOutbox (openRow id) (.handed now)

def markOutboxAcked (now id : Int) : Except String Unit × FlowDb :=
  db.write (db.checkOpen id) fun _ => db.updateOutbox (openRow id) (.done now)

/-- The row a retry is about, with the error code and the detail as they will be noted. -/
def checkRetry (id : Int) (errorCode errorDetailRedacted : String) :
    Except String (OutboxRow × String × String) := do
  failIf (id ≤ 0) "outbox id must be > 0"
  let errorCode ← normalizeNonEmpty errorCode "error_code"
  let errorDetailRedacted ← normalizeNonEmpty errorDetailRedacted "error_detail_redacted"
  let row ← okOr (db.outboxRow id) s!"outbox row {id} not found"
  failIf (row.status.isOpen = false)
    s!"outbox row {id} is in terminal state '{row.status.asStr}'"
  pure (row, errorCode, errorDetailRedacted)

def undeliverable (sha3 : List UInt8 → List UInt8) (row : OutboxRow)
    (errorCode errorDetailRedacted : String) (attempts : Int) : DeadLetter :=
  { escrowIdHex := row.escrowIdHex, stage := "outbox_delivery", lastErrorCode := errorCode
    lastErrorDetailRedacted := errorDetailRedacted, attempts := clampU32 attempts
    payloadHashHex := some (sha3Hex sha3 (utf8 row.envelopeJson)) }

def markOutboxRetry (sha3 : List UInt8 → List UInt8) (now id : Int) (backoffMs : Nat)
    (errorCode errorDetailRedacted : String) (deadLetterAfterAttempts : UInt32) :
    Except String Unit × FlowDb :=
  db.write (db.checkRetry id errorCode errorDetailRedacted) fun (row, code, detail) =>
    let nextAttempts := satAddI64 row.attempts 1
    let update (status : OutboxStatus) :=
      db.updateOutbox (·.id = id) (.failed now backoffMs status nextAttempts)
    if nextAttempts ≥ max deadLetterAfterAttempts.toNat 1 then
      (update .deadLetter).addDeadLetter (undeliverable sha3 row code detail nextAttempts)
    else update .pending

/-- Whose messages are counted: the normalised peer and escrow. -/
def offsetKey (peerId escrowIdHex : String) : Except String (String × String) := do
  let peerId ← normalizeNonEmpty peerId "peer_id"
  let escrowIdHex ← normalizeHexExact escrowIdHex 32 "escrow_id_hex"
  pure (peerId, escrowIdHex)

def lastSeq (key : String × String) : Option Int :=
  (db.offsets.find? fun o => o.peerId = key.1 ∧ o.escrowIdHex = key.2).map (·.lastSeq)

def checkAdvance (peerId escrowIdHex : String) (seq : Nat) : Except String InboxOffset := do
  let key ← offsetKey peerId escrowIdHex
  let current := db.lastSeq key
  failIf (current.any (clampI64 seq ≤ ·)) (s!"inbox offset replay/reset for peer={key.1} "
    ++ s!"escrow={key.2} seq={clampI64 seq} <= {current.getD 0}")
  pure ⟨key.1, key.2, clampI64 seq⟩

/-- Of the same peer and escrow as the new offset. -/
def sameOffset (new o : InboxOffset) : Bool :=
  o.peerId = new.peerId && o.escrowIdHex = new.escrowIdHex

def advanceInboxOffset (peerId escrowIdHex : String) (seq : Nat) :
    Except String Unit × FlowDb :=
  db.write (db.checkAdvance peerId escrowIdHex seq) fun new =>
    { db with offsets := upsert (sameOffset new) (fun _ => new) new db.offsets }

end FlowDb

inductive Call
  | createWorkflow (escrowIdHex snapshotHashHex : String) (participants : List String)
  | transitionWorkflow (escrowIdHex : String) (toState : WorkflowState) (reason : Option String)
  | recordStep (input : StepInput)
  | enqueueOutbox (now : Int) (input : OutboxInput)
  | markOutboxSent (now id : Int)
  | markOutboxAcked (now id : Int)
  | markOutboxRetry (now id : Int) (backoffMs : Nat) (errorCode errorDetailRedacted : String)
      (deadLetterAfterAttempts : UInt32)
  | advanceInboxOffset (peerId escrowIdHex : String) (seq : Nat)

inductive Reply
  | done (result : Except String Unit)
  | step (result : Except String StepOutcome)

/-- One call at a time. -/
def orchestrator (sha3 : List UInt8 → List UInt8) : Server FlowDb Call Reply where
  serve db
    | .createWorkflow e snapshot participants => done (db.createWorkflow e snapshot participants)
    | .transitionWorkflow e toState reason => done (db.transitionWorkflow e toState reason)
    | .recordStep input =>
      let out := db.recordStep sha3 input
      (.step out.1, out.2)
    | .enqueueOutbox now input => done (db.enqueueOutbox sha3 now input)
    | .markOutboxSent now id => done (db.markOutboxSent now id)
    | .markOutboxAcked now id => done (db.markOutboxAcked now id)
    | .markOutboxRetry now id backoffMs code detail limit =>
      done (db.markOutboxRetry sha3 now id backoffMs code detail limit)
    | .advanceInboxOffset peerId e seq => done (db.advanceInboxOffset peerId e seq)
where
  done (out : Except String Unit × FlowDb) : Reply × FlowDb := (.done out.1, out.2)

/-- The tables after a history that starts with empty ones. -/
def reached (sha3 : List UInt8 → List UInt8) (calls : List Call) : FlowDb :=
  (orchestrator sha3).after .empty calls

/-! ## 5. What a call can do -/

/-- **Everything a call can do**: what it answers and what it leaves behind. -/
inductive Effect (sha3 : List UInt8 → List UInt8) (db : FlowDb) : Call → Reply → FlowDb → Prop
  /-- A check fails and nothing is written. -/
  | refused (call : Call) (reply : Reply) (e : String)
      (hreply : reply = .done (.error e) ∨ reply = .step (.error e)) : Effect sha3 db call reply db
  | created {e snapshot : String} {participants : List String} {wf : WorkflowInstance}
      (hcheck : db.checkCreate e snapshot participants = .ok wf) :
      Effect sha3 db (.createWorkflow e snapshot participants) (.done (.ok ()))
        { db with workflows := db.workflows ++ [wf] }
  | moved {raw e : String} {toState : WorkflowState} {reason : Option String}
      (hcheck : db.checkTransition raw toState = .ok e) :
      Effect sha3 db (.transitionWorkflow raw toState reason) (.done (.ok ()))
        (db.setState e toState)
  /-- A step that was not there. -/
  | accepted {input step : StepInput} (hcheck : db.checkStep input = .ok step)
      (hnew : db.steps.find? (·.idemKey = (step.row sha3).idemKey) = none) :
      Effect sha3 db (.recordStep input) (.step (.ok .accepted))
        { db with steps := db.steps ++ [step.row sha3] }
  | duplicate {input step : StepInput} {row : WorkflowStep}
      (hcheck : db.checkStep input = .ok step)
      (hrow : db.steps.find? (·.idemKey = (step.row sha3).idemKey) = some row)
      (hsame : eqIgnoreAsciiCase row.payloadHashHex step.payloadHashHex = true) :
      Effect sha3 db (.recordStep input) (.step (.ok .replayDuplicate)) db
  /-- The error that is committed. -/
  | conflicting {input step : StepInput} {row : WorkflowStep} (e : String)
      (hcheck : db.checkStep input = .ok step)
      (hrow : db.steps.find? (·.idemKey = (step.row sha3).idemKey) = some row)
      (hother : eqIgnoreAsciiCase row.payloadHashHex step.payloadHashHex = false) :
      Effect sha3 db (.recordStep input) (.step (.error e))
        (db.addDeadLetter (FlowDb.conflict step))
  | queued {now : Int} {input msg : OutboxInput} (hcheck : db.checkOutbox input = .ok msg)
      (hnew : db.outbox.any (·.idemKey = msg.idemKey sha3) = false) :
      Effect sha3 db (.enqueueOutbox now input) (.done (.ok ()))
        { db with outbox := db.outbox ++ [db.newRow sha3 now msg] }
  /-- The key is taken: the answer is the same and nothing is written. -/
  | passedOver {now : Int} {input msg : OutboxInput} (hcheck : db.checkOutbox input = .ok msg)
      (htaken : db.outbox.any (·.idemKey = msg.idemKey sha3) = true) :
      Effect sha3 db (.enqueueOutbox now input) (.done (.ok ())) db
  | sent {now id : Int} (hcheck : db.checkOpen id = .ok ()) :
      Effect sha3 db (.markOutboxSent now id) (.done (.ok ()))
        (db.updateOutbox (FlowDb.openRow id) (.handed now))
  | acked {now id : Int} (hcheck : db.checkOpen id = .ok ()) :
      Effect sha3 db (.markOutboxAcked now id) (.done (.ok ()))
        (db.updateOutbox (FlowDb.openRow id) (.done now))
  | retried {now id : Int} {backoffMs : Nat} {rawCode rawDetail code detail : String}
      {limit : UInt32} {row : OutboxRow}
      (hcheck : db.checkRetry id rawCode rawDetail = .ok (row, code, detail))
      (hless : ¬ satAddI64 row.attempts 1 ≥ max limit.toNat 1) :
      Effect sha3 db (.markOutboxRetry now id backoffMs rawCode rawDetail limit) (.done (.ok ()))
        (db.updateOutbox (·.id = id) (.failed now backoffMs .pending (satAddI64 row.attempts 1)))
  | deadLettered {now id : Int} {backoffMs : Nat} {rawCode rawDetail code detail : String}
      {limit : UInt32} {row : OutboxRow}
      (hcheck : db.checkRetry id rawCode rawDetail = .ok (row, code, detail))
      (hlimit : satAddI64 row.attempts 1 ≥ max limit.toNat 1) :
      Effect sha3 db (.markOutboxRetry now id backoffMs rawCode rawDetail limit) (.done (.ok ()))
        ((db.updateOutbox (·.id = id)
            (.failed now backoffMs .deadLetter (satAddI64 row.attempts 1))).addDeadLetter
          (FlowDb.undeliverable sha3 row code detail (satAddI64 row.attempts 1)))
  | advanced {peerId e : String} {seq : Nat} {new : InboxOffset}
      (hcheck : db.checkAdvance peerId e seq = .ok new) :
      Effect sha3 db (.advanceInboxOffset peerId e seq) (.done (.ok ()))
        { db with offsets := upsert (FlowDb.sameOffset new) (fun _ => new) new db.offsets }

section
variable {sha3 : List UInt8 → List UInt8} {db : FlowDb}

theorem effect_write {α : Type} {call : Call} {checks : Except String α} {put : α → FlowDb}
    (h : ∀ a, checks = .ok a → Effect sha3 db call (.done (.ok ())) (put a)) :
    Effect sha3 db call (.done (db.write checks put).1) (db.write checks put).2 := by
  unfold FlowDb.write
  cases hc : checks with
  | ok a => exact h a hc
  | error e => exact .refused _ _ e (.inl rfl)

theorem effect_recordStep (input : StepInput) :
    Effect sha3 db (.recordStep input) (.step (db.recordStep sha3 input).1)
      (db.recordStep sha3 input).2 := by
  unfold FlowDb.recordStep
  split
  · rename_i e _
    exact .refused _ _ e (.inr rfl)
  · rename_i step hcheck
    split
    · rename_i row hrow
      split
      · rename_i hsame
        exact .duplicate hcheck hrow hsame
      · rename_i hother
        exact .conflicting _ hcheck hrow (by simpa using hother)
    · rename_i hnew
      exact .accepted hcheck hnew

/-- **What `Effect` lists is what happens.** -/
theorem serve_effect (sha3 : List UInt8 → List UInt8) (db : FlowDb) (call : Call) :
    Effect sha3 db call ((orchestrator sha3).serve db call).1
      ((orchestrator sha3).serve db call).2 := by
  simp only [orchestrator, orchestrator.done]
  cases call with
  | createWorkflow e snapshot participants =>
    simp only [FlowDb.createWorkflow]
    exact effect_write fun wf hcheck => .created hcheck
  | transitionWorkflow e toState reason =>
    simp only [FlowDb.transitionWorkflow]
    exact effect_write fun e hcheck => .moved hcheck
  | recordStep input =>
    dsimp only
    exact effect_recordStep input
  | enqueueOutbox now input =>
    simp only [FlowDb.enqueueOutbox]
    refine effect_write fun msg hcheck => ?_
    split
    · rename_i htaken
      exact .passedOver hcheck htaken
    · rename_i hnew
      exact .queued hcheck (by simpa using hnew)
  | markOutboxSent now id => exact effect_write fun _ hcheck => .sent hcheck
  | markOutboxAcked now id => exact effect_write fun _ hcheck => .acked hcheck
  | markOutboxRetry now id backoffMs code detail limit =>
    refine effect_write fun ⟨row, code, detail⟩ hcheck => ?_
    dsimp only
    split
    · rename_i hlimit
      exact .deadLettered hcheck hlimit
    · rename_i hless
      exact .retried hcheck hless
  | advanceInboxOffset peerId e seq => exact effect_write fun new hcheck => .advanced hcheck

/-! ### What the checks ask for -/

theorem checkMsgType_eq_ok {state : WorkflowState} {msgType : String} {u : Unit} :
    checkMsgType state msgType = .ok u ↔
      ∀ expected, expectedMsgTypeForState state = some expected → msgType = expected := by
  unfold checkMsgType
  cases expectedMsgTypeForState state with
  | none => simp
  | some expected =>
    simp only [failIf_eq_ok, Option.some.injEq, not_not]
    constructor
    · intro h e he
      rw [← he, h]
    · intro h
      exact (h expected rfl).symm

theorem checkMessage_eq_ok {label kind e peerId msgType : String} {state : WorkflowState}
    {u : Unit} :
    db.checkMessage label kind e peerId state msgType = .ok u ↔ ∃ wf, db.workflow e = some wf
      ∧ peerId ∈ wf.participants ∧ wf.state.allows state = true
      ∧ ∀ expected, expectedMsgTypeForState state = some expected → msgType = expected := by
  simp only [FlowDb.checkMessage, bind_eq_ok, okOr_eq_ok, failIf_eq_ok, exists_unit,
    checkMsgType_eq_ok, not_not, Bool.not_eq_false]

theorem checkStep_eq_ok {input step : StepInput} :
    db.checkStep input = .ok step ↔ input.normalize = .ok step
      ∧ db.checkMessage "from_id" "step" step.escrowIdHex step.fromId step.state step.msgType
        = .ok () := by
  simp only [FlowDb.checkStep, bind_eq_ok, exists_unit, pure_eq_ok]
  constructor
  · intro h
    obtain ⟨_, hnorm, hmsg, rfl⟩ := h
    exact ⟨hnorm, hmsg⟩
  · intro h
    exact ⟨step, h.1, h.2, rfl⟩

theorem checkOutbox_eq_ok {input msg : OutboxInput} :
    db.checkOutbox input = .ok msg ↔ input.normalize = .ok msg
      ∧ db.checkMessage "to_id" "outbox" msg.escrowIdHex msg.toId msg.state msg.msgType
        = .ok () := by
  simp only [FlowDb.checkOutbox, bind_eq_ok, exists_unit, pure_eq_ok]
  constructor
  · intro h
    obtain ⟨_, hnorm, hmsg, rfl⟩ := h
    exact ⟨hnorm, hmsg⟩
  · intro h
    exact ⟨msg, h.1, h.2, rfl⟩

theorem checkCreate_ok {e snapshot : String} {participants : List String} {wf : WorkflowInstance}
    (h : db.checkCreate e snapshot participants = .ok wf) :
    db.workflow wf.escrowIdHex = none ∧ wf.state = .new := by
  simp only [FlowDb.checkCreate, bind_eq_ok, failIf_eq_ok, exists_unit, pure_eq_ok, not_not] at h
  obtain ⟨_, -, _, -, _, -, hnone, rfl⟩ := h
  exact ⟨hnone, rfl⟩

theorem checkTransition_ok {raw e : String} {toState : WorkflowState}
    (h : db.checkTransition raw toState = .ok e) :
    ∃ wf, db.workflow e = some wf ∧ wf.state.canTransitionTo toState = true := by
  simp only [FlowDb.checkTransition, bind_eq_ok, okOr_eq_ok, failIf_eq_ok, exists_unit, pure_eq_ok,
    Bool.not_eq_false] at h
  obtain ⟨_, -, wf, hwf, hcan, rfl⟩ := h
  exact ⟨wf, hwf, hcan⟩

theorem checkRetry_ok {id : Int} {rawCode rawDetail code detail : String} {row : OutboxRow}
    (h : db.checkRetry id rawCode rawDetail = .ok (row, code, detail)) :
    db.outboxRow id = some row ∧ row.status.isOpen = true := by
  simp only [FlowDb.checkRetry, bind_eq_ok, okOr_eq_ok, failIf_eq_ok, exists_unit, pure_eq_ok,
    Bool.not_eq_false, Prod.mk.injEq] at h
  obtain ⟨-, _, -, _, -, _, hrow, hopen, rfl, -, -⟩ := h
  exact ⟨hrow, hopen⟩

end

/-- **Along a history**: what holds of the empty tables and is kept by every effect. -/
theorem reached_induction (sha3 : List UInt8 → List UInt8) {P : List Call → Prop} (hempty : P [])
    (hstep : ∀ calls call reply db',
      (orchestrator sha3).serve (reached sha3 calls) call = (reply, db') →
      Effect sha3 (reached sha3 calls) call reply db' → P calls → P (calls ++ [call]))
    (calls : List Call) : P calls := by
  induction calls using List.reverseRecOn with
  | nil => exact hempty
  | append_singleton calls call ih =>
    exact hstep calls call _ _ rfl (serve_effect sha3 (reached sha3 calls) call) ih

theorem reached_snoc {sha3 : List UInt8 → List UInt8} {calls : List Call} {call : Call}
    {reply : Reply} {db' : FlowDb}
    (h : (orchestrator sha3).serve (reached sha3 calls) call = (reply, db')) :
    reached sha3 (calls ++ [call]) = db' := by
  unfold reached at h ⊢
  rw [Server.after_snoc, h]

end Nexum.Orchestrator
