import Nexum.Signer.Footprint

/-!
# The life of a signing request

Three long flows share one table of requests. What keeps them apart is not visible in any one of
their calls but in the *order* each of them makes its calls in. This file says that order once,
as a protocol (`lifecycle`), and shows that every flow follows it; what the protocol guarantees
when any number of flows are interleaved is proved elsewhere, without looking at a flow again.

A flow is in one of these phases. It `started` a request when its insert succeeded, is `armed`
once it has also consumed a token id, and may use the wallet only then, once, for that request
and that token. After that it is `spent` (the wallet refused) or holds an answer (`signed`,
`submitted`), and only a held answer may complete the request. **A request is let go of only by
a flow that holds it and has no answer from the wallet.** Evidence is written only when the
request is completed.

Beside the phase, the bookkeeping remembers the token and the action the flow was given, what it
last read (the queued row, the snapshot, the wallet's description, the evidence row, an existing
request and its answer) and what it has written.
-/

namespace Nexum.Signer

open Nexum.Lib Nexum.Lib.Prog
open Nexum.Transport

/-! ## 1. The protocol -/

inductive Phase
  | idle
  | started (reqId : String)
  | armed (reqId jti : String)
  | spent (reqId : String)
  | signed (a : Authority) (txDataHex : String) (out : SignedMultisigTx)
  | submitted (reqId : String)
  | completed (a : Authority) (txDataHex : String) (out : SignedMultisigTx)
  | over

/-- Where a flow is, what it was given and has read, and what it has written. -/
structure Ghost where
  token : Option String
  /-- The queued row to decide on; a flow without one normalises the escrow id it was given. -/
  queueId : Option Int
  /-- The action asked for: the request's own, or the queued row's. -/
  action : Option (Json EscrowAction)
  queued : Option PendingTxSign
  snapshot : Option (String × SnapshotRow)
  described : Option (String × List DescribeTransferRow)
  proof : Option SignEvent
  found : Option (String × SignRequestRow)
  cached : Option (String × Json SignRequestCachedResult)
  request : Option (String × SignRequestRow)
  consumed : Option (String × ConsumedJti)
  wrote : List SignEvent
  /-- The rows handed to the orchestrator, and whether it reported success. -/
  offered : List (SignEvent × Bool)
  phase : Phase

def Ghost.start (token : Option String) (queueId : Option Int)
    (action : Option (Json EscrowAction)) : Ghost :=
  ⟨token, queueId, action, none, none, none, none, none, none, none, none, [], [], .idle⟩

/-- The rows the orchestrator said it stored. -/
def Ghost.stored (g : Ghost) : List SignEvent :=
  (g.offered.filter (·.2)).map (·.1)

/-- A flow that has read the row it is to decide on. -/
def Ghost.reading (token : Option String) (id : Int) (row : PendingTxSign) : Ghost :=
  { Ghost.start token (some id) none with queued := some row, action := some row.action }

/-- The transaction set has passed, for the action asked for, the policy of the escrow's snapshot
    that was read. -/
def Ghost.Vetted (g : Ghost) (escrowIdHex txDataHex : String) : Prop :=
  ∃ row snapshot action desc check, g.snapshot = some (escrowIdHex, row)
    ∧ row.snapshotJson = .encoded snapshot ∧ g.action = some (.encoded action)
    ∧ g.described = some (txDataHex, desc) ∧ transferCheckFromDesc desc = .ok check
    ∧ validateTransferAgainstSnapshot snapshot action check = .ok ()

/-- The authority comes from the flow's token, and its request id names what it is about. -/
structure Granted (agent : SignerAgent) (token : Option String) (op : String) (a : Authority) :
    Prop where
  claims : ∃ t, token = some t ∧ agent.crypto.verifyJwt t = .ok a.claims
  escrow : a.claims.escrowId = a.escrowIdHex
  role : ∃ v, agent.verifier = some v ∧ a.claims.role = roleKey v.signerRole
    ∧ (op = "sign_multisig" → a.claims.signRound = expectedSignRound v.signerRole)
  jti : isBlank a.jti = false
  reqId : ∃ hash, normalizeHex64 a.txsetHashHex "txset_hash_hex" = .ok hash
    ∧ a.reqId = signReqId agent.crypto a.escrowIdHex op a.claims.signRound hash

/-- The row `start_sign_request` inserts. -/
def requestRow (a : Authority) (op : String) : SignRequestRow :=
  ⟨a.escrowIdHex, op, a.claims.signRound, a.txsetHashHex, .inProgress⟩

/-- The row `consume_action_jti` inserts. -/
def consumedRow (a : Authority) (op : String) (exp : Nat) : ConsumedJti :=
  ⟨a.escrowIdHex, op, a.claims.signRound, a.reqId, exp⟩

/-- What has to hold for the wallet to be used on behalf of `a`. -/
structure Cleared (agent : SignerAgent) (g : Ghost) (op : String) (a : Authority)
    (txDataHex : String) : Prop where
  phase : g.phase = .armed a.reqId a.jti
  granted : Granted agent g.token op a
  request : g.request = some (a.reqId, requestRow a op)
  consumed : g.consumed = some (a.jti, consumedRow a op a.claims.exp)
  vetted : g.Vetted a.escrowIdHex txDataHex
  hash : txsetSha256Hex agent.crypto txDataHex = .ok a.txsetHashHex
  escrow : g.queueId = none →
    normalizeHexExact a.escrowIdHex 32 "escrow_id_hex" = .ok a.escrowIdHex

/-- The evidence row the token quotes is the arbiter's, on this transaction set. -/
def Ghost.Proven (g : Ghost) (a : Authority) : Prop :=
  ∃ ev, g.proof = some ev ∧ ev.key = arbiterKey a.escrowIdHex a.txsetHashHex
    ∧ trimmedNonEmpty a.claims.proofArbiterJti = some ev.jti

/-- The rows a completed signature may leave. -/
def EvidenceOf (agent : SignerAgent) (a : Authority) (out : SignedMultisigTx) (ev : SignEvent) :
    Prop :=
  ev = requestedEvent a
    ∨ ∃ hash, txsetSha256Hex agent.crypto out.txDataHex = .ok hash
      ∧ ev = artifactEvent agent.crypto a hash

/-- Which calls a flow may make. -/
def May (agent : SignerAgent) (g : Ghost) : Call → Prop
  | .getPending id => g.queueId = some id
  | .startSignRequest _ _ _ _ _ => g.phase = .idle
  | .getSignRequest _ => g.phase = .idle
  | .consumeActionJti _ _ =>
    g.consumed = none ∧ (g.phase = .idle ∨ ∃ reqId, g.phase = .started reqId)
  | .abortSignRequest reqId =>
    g.phase = .started reqId ∨ (∃ jti, g.phase = .armed reqId jti) ∨ g.phase = .spent reqId
  | .signMultisig none _ => False
  | .signMultisig (some a) tx => Cleared agent g "sign_multisig" a tx
  | .submitMultisig none _ => False
  | .submitMultisig (some a) tx => Cleared agent g "submit_multisig" a tx ∧ g.Proven a
  | .completeSignRequestWithResult reqId op resp =>
    (∃ a tx out, g.phase = .signed a tx out ∧ reqId = a.reqId ∧ op = "sign_multisig"
      ∧ resp = signCachedResult out)
    ∨ g.phase = .submitted reqId
  | .recordSignEvent ev => ∃ a tx out, g.phase = .completed a tx out ∧ EvidenceOf agent a out ev
  | .quorumProofSet e role round h jti reqId => ∃ a tx out ev, g.phase = .completed a tx out
    ∧ EvidenceOf agent a out ev ∧ normalizeForStore ev = .ok ⟨⟨e, role, round, h⟩, jti, reqId⟩
  | _ => True

def Phase.consume (p : Phase) (jti : String) : Phase :=
  match p with
  | .started reqId => .armed reqId jti
  | p => p

def Phase.complete : Phase → Phase
  | .signed a tx out => .completed a tx out
  | _ => .over

/-- Where a reply takes it. -/
def Ghost.next (g : Ghost) : (c : Call) → Except String c.Out → Ghost
  | .getPending _, .ok (some row) => { g with queued := some row, action := some row.action }
  | .activeSnapshotForEscrow e, .ok (some row) => { g with snapshot := some (e, row) }
  | .describeTransfer tx, .ok (some desc) => { g with described := some (tx, desc) }
  | .getSignEvent _, .ok (some ev) => { g with proof := some ev }
  | .getSignRequest reqId, .ok (some row) => { g with found := some (reqId, row) }
  | .getSignRequestResult reqId, .ok (some json) => { g with cached := some (reqId, json) }
  | .startSignRequest reqId e op round h, .ok _ =>
    { g with phase := .started reqId, request := some (reqId, ⟨e, op, round, h, .inProgress⟩) }
  | .consumeActionJti jti row, .ok _ =>
    { g with phase := g.phase.consume jti, consumed := some (jti, row) }
  | .abortSignRequest _, _ => { g with phase := .over }
  | .signMultisig (some a) tx, .ok out => { g with phase := .signed a tx out }
  | .signMultisig (some a) _, .error _ => { g with phase := .spent a.reqId }
  | .submitMultisig (some a) _, .ok _ => { g with phase := .submitted a.reqId }
  | .submitMultisig (some a) _, .error _ => { g with phase := .spent a.reqId }
  | .completeSignRequestWithResult _ _ _, .ok _ => { g with phase := g.phase.complete }
  | .completeSignRequestWithResult _ _ _, .error _ => { g with phase := .over }
  | .recordSignEvent ev, .ok _ => { g with wrote := g.wrote ++ [ev] }
  | .quorumProofSet e role round h jti reqId, r =>
    { g with offered := g.offered ++ [(⟨⟨e, role, round, h⟩, jti, reqId⟩, r.isOk)] }
  | _, _ => g

/-- Reads by key answer with that key. -/
def Truthful : (c : Call) → Except String c.Out → Prop
  | .getSignEvent key, .ok (some ev) => ev.key = key
  | _, _ => True

/-- **The protocol.** -/
def lifecycle (agent : SignerAgent) : Rules Call Call.Out String Ghost where
  may := May agent
  does g c r g' := Truthful c r ∧ g' = g.next c r

/-! ## 2. Calls the protocol does not care about -/

/-- Calls that are always allowed and change no bookkeeping. -/
def Call.quiet : Call → Bool
  | .getPending _ | .activeSnapshotForEscrow _ | .describeTransfer _ => false
  | .getSignEvent _ | .getSignRequest _ | .getSignRequestResult _ => false
  | .startSignRequest _ _ _ _ _ | .consumeActionJti _ _ | .abortSignRequest _ => false
  | .signMultisig _ _ | .submitMultisig _ _ | .completeSignRequestWithResult _ _ _ => false
  | .recordSignEvent _ | .quorumProofSet _ _ _ _ _ _ => false
  | _ => true

theorem lifecycle_ignores (agent : SignerAgent) :
    (lifecycle agent).Ignores (·.quiet = true) := by
  intro g c hc
  cases c with
  | _ =>
    first
    | exact ⟨trivial, fun r g' h => h.2⟩
    | exact absurd hc (by simp [Call.quiet])

/-- A part of a flow that makes only such calls. -/
abbrev Quiet {α : Type} (p : Flow α) (R : α → Prop) : Prop :=
  Only (·.quiet = true) p R

end Nexum.Signer
