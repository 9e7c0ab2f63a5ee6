import Nexum.Signer.Discipline

/-!
# A signer node at work

Any number of requests served at once on one database: signing and submitting through the worker
interface, approving and rejecting from the queue, in any number of processes. A step is one call
of one flow; between steps the rest of the installation goes on. It may do anything to the
snapshots, the admissions, the queue and the sequence numbers, and other signers may add proofs
at the orchestrator. The four tables of the signing protocol are written by the flows alone.
-/

namespace Nexum.Signer

open Nexum.Lib Nexum.Lib.Prog
open Nexum.Transport

/-! ## 1. Requests -/

inductive Request
  | sign (escrowIdHex : String) (action : EscrowAction) (txDataHex : String)
      (token : Option String)
  | submit (escrowIdHex : String) (action : EscrowAction) (txDataHex : String)
      (token : Option String)
  | approve (id : Int) (token : Option String)
  | reject (id : Int) (reason : String)
  deriving DecidableEq

inductive Reply
  | signed (out : SignedMultisigTx)
  | submitted (txHashList : List String)
  | decided
  deriving DecidableEq

def Request.prog (agent : SignerAgent) : Request → Flow Reply
  | .sign e action tx token => do
    let out ← signMultisigFlow agent e action tx token
    pure (.signed out)
  | .submit e action tx token => do
    let hashes ← submitMultisigFlow agent e action tx token
    pure (.submitted hashes)
  | .approve id token => do
    approvePending agent id token
    pure .decided
  | .reject id reason => do
    rejectPending agent id reason
    pure .decided

/-- What the rest of the installation may do meanwhile. -/
structure Background (w w' : World) : Prop where
  requests : w'.db.requests = w.db.requests
  results : w'.db.results = w.db.results
  consumed : w'.db.consumed = w.db.consumed
  signEvents : w'.db.signEvents = w.db.signEvents
  proofs : ∀ row ∈ w.orch.proofs, ∃ row' ∈ w'.orch.proofs, row'.key = row.key

/-- The node. -/
def node (agent : SignerAgent) : System World Request Call Call.Out String Reply where
  prog := Request.prog agent
  exec := exec
  ext := Background

/-- One thing that happened at a node. -/
abbrev Event := Entry Request Call Call.Out String Reply

/-! ## 2. The protocol, for every request -/

/-- The token a request came with. -/
def Request.token : Request → Option String
  | .sign _ _ _ token | .submit _ _ _ token | .approve _ token => token
  | .reject _ _ => none

/-- The row of the queue it is about. -/
def Request.queueId : Request → Option Int
  | .sign _ _ _ _ | .submit _ _ _ _ => none
  | .approve id _ | .reject id _ => some id

/-- The action it asks for itself. -/
def Request.action : Request → Option (Json EscrowAction)
  | .sign _ action _ _ | .submit _ action _ _ => some (.encoded action)
  | .approve _ _ | .reject _ _ => none

def Request.ghost (q : Request) : Ghost :=
  .start q.token q.queueId q.action

/-- What a request's flow guarantees when it returns. -/
def Request.Post (agent : SignerAgent) (q : Request) (x : Except String Reply) (g : Ghost) :
    Prop :=
  ∀ reply, x = .ok reply →
    match q, reply with
    | .sign e _ tx _, .signed out => SignPost agent e tx q.ghost out g
    | .sign _ _ _ _, _ => False
    | _, _ => True

/-- **Whatever is asked of it, a node with a token verifier follows the protocol.** -/
theorem Request.follows {agent : SignerAgent} (hv : agent.verifier ≠ none) (q : Request) :
    wp (lifecycle agent) (q.prog agent) (q.Post agent) q.ghost := by
  have h : Ensures (lifecycle agent) (q.prog agent) q.ghost
      fun reply g => q.Post agent (.ok reply) g := by
    cases q with
    | sign e action tx token =>
      refine (signMultisigFlow_ensures hv ..).bind fun out g hout => .pure ?_
      rintro _ ⟨⟩
      exact hout
    | submit e action tx token =>
      refine (submitMultisigFlow_ensures hv ..).bind fun hashes g _ => .pure ?_
      exact fun _ _ => trivial
    | approve id token =>
      refine (approvePending_ensures hv ..).bind fun _ g _ => .pure ?_
      exact fun _ _ => trivial
    | reject id reason =>
      refine (rejectPending_ensures id reason).bind fun _ g _ => .pure ?_
      exact fun _ _ => trivial
  refine wp_mono (ensures_iff.mp h) fun x g hx reply hreply => ?_
  exact hx reply hreply reply rfl

/-! ## 3. What a call leaves alone -/

/-- The calls that write to the tables of the signing protocol, or store a proof. -/
def Call.writes : Call → Bool
  | .startSignRequest _ _ _ _ _ | .completeSignRequestWithResult _ _ _ | .abortSignRequest _ => true
  | .consumeActionJti _ _ | .recordSignEvent _ | .quorumProofSet _ _ _ _ _ _ => true
  | _ => false

/-- The signing tables and the orchestrator are as they were. -/
structure Frame (w w' : World) : Prop where
  requests : w'.db.requests = w.db.requests
  results : w'.db.results = w.db.results
  consumed : w'.db.consumed = w.db.consumed
  signEvents : w'.db.signEvents = w.db.signEvents
  orch : w'.orch = w.orch

theorem Frame.background {w w' : World} (h : Frame w w') : Background w w' :=
  ⟨h.requests, h.results, h.consumed, h.signEvents, fun row hrow => ⟨row, h.orch ▸ hrow, rfl⟩⟩

theorem Frame.refl (w : World) : Frame w w := ⟨rfl, rfl, rfl, rfl, rfl⟩

/-- The calls that write to the queue. -/
def Call.queues : Call → Bool
  | .enqueuePendingTx _ | .setPendingStatus _ _ _ => true
  | _ => false

/-- The calls that write to the table of the admissions. -/
def Call.admits : Call → Bool
  | .upsertEscrowAdmissionArtifact _ _ => true
  | _ => false

/-- A call changes the tables it is for, and no others. -/
structure Confined (c : Call) (w w' : World) : Prop where
  signing : c.writes = false → Frame w w'
  queue : c.queues = false → w'.db.pending = w.db.pending
  admissions : c.admits = false → w'.db.admissions = w.db.admissions

section
variable {w w' : World} {c : Call} {r : Except String c.Out}

theorem Confined.refl : Confined c w w :=
  ⟨fun _ => .refl w, fun _ => rfl, fun _ => rfl⟩

theorem Confined.ofWrites (hc : c.writes = true) (hqueue : w'.db.pending = w.db.pending)
    (hadmissions : w'.db.admissions = w.db.admissions) : Confined c w w' :=
  ⟨fun h => absurd (h.symm.trans hc) Bool.false_ne_true, fun _ => hqueue,
    fun _ => hadmissions⟩

theorem Confined.ofQueues (hc : c.queues = true) (hframe : Frame w w')
    (hadmissions : w'.db.admissions = w.db.admissions) : Confined c w w' :=
  ⟨fun _ => hframe, fun h => absurd (h.symm.trans hc) Bool.false_ne_true, fun _ => hadmissions⟩

theorem serve_confined (h : w.serve c = some (r, w')) : Confined c w w' := by
  cases c <;> simp only [World.serve, World.read, World.write, World.transact, Option.some.injEq,
      Prod.mk.injEq, reduceCtorEq] at h <;> obtain ⟨-, rfl⟩ := h
  case recordIncomingSeq =>
    unfold SignerDb.recordIncomingSeq
    dsimp only
    (repeat' split) <;> exact ⟨fun _ => ⟨rfl, rfl, rfl, rfl, rfl⟩, fun _ => rfl, fun _ => rfl⟩
  case upsertEscrowAdmissionArtifact =>
    exact ⟨fun _ => ⟨rfl, rfl, rfl, rfl, rfl⟩, fun _ => rfl, fun hc => by cases hc⟩
  case nextOutSeq => exact ⟨fun _ => ⟨rfl, rfl, rfl, rfl, rfl⟩, fun _ => rfl, fun _ => rfl⟩
  case enqueuePendingTx =>
    unfold SignerDb.enqueuePendingTx
    dsimp only
    split <;> exact .ofQueues rfl ⟨rfl, rfl, rfl, rfl, rfl⟩ rfl
  case setPendingStatus =>
    unfold SignerDb.setPendingStatus
    split <;> exact .ofQueues rfl ⟨rfl, rfl, rfl, rfl, rfl⟩ rfl
  case startSignRequest =>
    unfold SignerDb.startSignRequest
    split <;> exact .ofWrites rfl rfl rfl
  case completeSignRequestWithResult =>
    unfold SignerDb.completeSignRequestWithResult
    (repeat' split) <;> exact .ofWrites rfl rfl rfl
  case abortSignRequest =>
    unfold SignerDb.abortSignRequest
    (repeat' split) <;> exact .ofWrites rfl rfl rfl
  case consumeActionJti =>
    unfold SignerDb.consumeActionJti
    split <;> exact .ofWrites rfl rfl rfl
  case recordSignEvent =>
    unfold SignerDb.recordSignEvent
    split <;> exact .ofWrites rfl rfl rfl
  case quorumProofSet => exact .ofWrites rfl rfl rfl
  all_goals exact .refl

/-- **However it goes, a call changes the tables it is for, and no others.** -/
theorem exec_confined (h : exec w c r w') : Confined c w w' := by
  cases h with
  | served h => exact serve_confined h
  | failed e => exact .refl
  | unreported e _ h => exact serve_confined h
  | elsewhere r _ => exact .refl

theorem exec_frame (h : exec w c r w') (hc : c.writes = false) : Frame w w' :=
  (exec_confined h).signing hc

theorem exec_pending (h : exec w c r w') (hc : c.queues = false) :
    w'.db.pending = w.db.pending :=
  (exec_confined h).queue hc

end

theorem exec_truthful {w w' : World} {c : Call} {r : Except String c.Out} (h : exec w c r w') :
    Truthful c r := by
  cases c with
  | getSignEvent key =>
    cases h with
    | served hs =>
      cases hs
      cases hfind : w.db.getSignEvent key with
      | none => trivial
      | some ev =>
        have := List.find?_some hfind
        simpa [Truthful] using this
    | failed e => trivial
    | unreported e hremote _ => cases hremote
    | elsewhere r hs => cases hs
  | _ => trivial

theorem exec_ok {w w' : World} {c : Call} {a : c.Out} (h : exec w c (.ok a) w')
    (hc : w.serve c ≠ none) : w.serve c = some (.ok a, w') := by
  cases h with
  | served h => exact h
  | elsewhere r hnone => exact absurd hnone hc

/-- A call to the signer's own database does what the method does, or fails and does nothing. -/
theorem exec_local {w w' : World} {c : Call} {r : Except String c.Out}
    {x : Except String c.Out × World} (h : exec w c r w') (hc : c.remote = false)
    (hs : w.serve c = some x) : x = (r, w') ∨ (∃ e, r = .error e) ∧ w' = w := by
  cases h with
  | served h => exact .inl (Option.some.inj (hs.symm.trans h))
  | failed e => exact .inr ⟨⟨e, rfl⟩, rfl⟩
  | unreported e hremote _ => exact absurd (hc.symm.trans hremote) Bool.false_ne_true
  | elsewhere r hnone => rw [hs] at hnone; cases hnone

theorem exec_elsewhere {w w' : World} {c : Call} {r : Except String c.Out} (h : exec w c r w')
    (hc : w.serve c = none) : w' = w := by
  cases h with
  | served h => rw [hc] at h; cases h
  | failed e => rfl
  | unreported e _ h => rw [hc] at h; cases h
  | elsewhere r _ => rfl

/-! ## 4. What a call has done -/

/-- **Everything a call can have done, together with what it says about it.** -/
inductive Effect (w : World) : (c : Call) → Except String c.Out → World → Prop
  | frame {c : Call} {r : Except String c.Out} {w' : World} (hc : c.writes = false)
      (h : Frame w w') : Effect w c r w'
  | nothing {c : Call} (e : String) : Effect w c (.error e) w
  | started {reqId e op round h : String} (hnew : w.db.requests reqId = none) :
      Effect w (.startSignRequest reqId e op round h) (.ok ()) { w with db := { w.db with
        requests := Function.update w.db.requests reqId (some ⟨e, op, round, h, .inProgress⟩) } }
  | consumed {jti : String} {row : ConsumedJti} (hnew : w.db.consumed jti = none) :
      Effect w (.consumeActionJti jti row) (.ok ()) { w with db := { w.db with
        consumed := Function.update w.db.consumed jti (some row) } }
  | completed {reqId op : String} {resp : SignRequestCachedResult} {row : SignRequestRow}
      (hrow : w.db.requests reqId = some row) (hstatus : row.status = .inProgress)
      (hnew : w.db.results reqId = none) :
      Effect w (.completeSignRequestWithResult reqId op resp) (.ok ()) { w with db := { w.db with
        requests := Function.update w.db.requests reqId (some { row with status := .completed })
        results := Function.update w.db.results reqId (some ⟨op, .encoded resp⟩) } }
  | aborted {reqId : String} :
      Effect w (.abortSignRequest reqId) (.ok ()) { w with db := w.db.abortSignRequest reqId }
  | recorded {ev : SignEvent} :
      Effect w (.recordSignEvent ev) (.ok ()) { w with db := w.db.recordSignEvent ev }
  /-- The orchestrator may have stored the row and not have said so. -/
  | stored {e role round h jti reqId : String} {r : Except String Unit}
      {row : Orchestrator.QuorumSignProof}
      (hrow : w.orch.checkProof e role round h jti reqId = .ok row) :
      Effect w (.quorumProofSet e role round h jti reqId) r { w with orch := w.orch.put row }

theorem serve_effect {w w' : World} {c : Call} {r : Except String c.Out} (hc : c.writes = true)
    (hs : w.serve c = some (r, w')) : Effect w c r w' := by
  cases c <;> simp only [Call.writes, Bool.false_eq_true] at hc <;>
    simp only [World.serve, World.write, World.transact, Option.some.injEq, Prod.mk.injEq] at hs <;>
    obtain ⟨rfl, rfl⟩ := hs
  case startSignRequest reqId e op round h =>
    unfold SignerDb.startSignRequest
    split
    · exact .nothing _
    · rename_i hnew
      exact .started hnew
  case consumeActionJti jti row =>
    unfold SignerDb.consumeActionJti
    split
    · exact .nothing _
    · rename_i hnew
      exact .consumed hnew
  case completeSignRequestWithResult reqId op resp =>
    unfold SignerDb.completeSignRequestWithResult
    split
    · rename_i row hrow
      split
      · exact .nothing _
      · rename_i hstatus
        split
        · exact .nothing _
        · rename_i hnew
          exact .completed hrow (not_not.mp hstatus) (by simpa using hnew)
    · exact .nothing _
  case abortSignRequest => exact .aborted
  case recordSignEvent => exact .recorded
  case quorumProofSet =>
    unfold Orchestrator.OrchestratorDb.upsertQuorumSignProof
    split
    · rename_i row hrow
      exact .stored hrow
    · exact .nothing _

theorem exec_effect {w w' : World} {c : Call} {r : Except String c.Out} (hx : exec w c r w') :
    Effect w c r w' := by
  cases hw : c.writes with
  | false => exact .frame hw (exec_frame hx hw)
  | true =>
    cases hx with
    | served hs => exact serve_effect hw hs
    | failed e => exact .nothing e
    | unreported e hremote hs =>
      cases c <;> simp only [Call.remote, Bool.false_eq_true] at hremote
      case quorumProofSet =>
        cases serve_effect hw hs with
        | frame hc _ => cases hc
        | nothing _ => exact .nothing e
        | stored hrow => exact .stored hrow
    | elsewhere r hs => cases c <;> first | exact absurd hw Bool.false_ne_true | cases hs

theorem Effect.signEvents {w w' : World} {c : Call} {r : Except String c.Out}
    (h : Effect w c r w') : w'.db.signEvents = w.db.signEvents
      ∨ ∃ ev, c = .recordSignEvent ev ∧ w'.db.signEvents = w.db.signEvents ++ [ev] := by
  cases h with
  | frame _ h => exact .inl h.signEvents
  | recorded =>
    rename_i ev
    unfold SignerDb.recordSignEvent
    split
    · exact .inl rfl
    · exact .inr ⟨ev, rfl, rfl⟩
  | aborted =>
    refine .inl ?_
    unfold SignerDb.abortSignRequest
    split
    · split <;> rfl
    · rfl
  | _ => exact .inl rfl

/-! ## 5. Invariants of a node -/

/-- `Inv` is kept by every step that meets `ok`, as long as `Base` also holds: a property of the
    databases, the history and the bookkeeping of the flows under way. -/
structure Kept (agent : SignerAgent) (ok : World → List Event → Event → Prop)
    (Base Inv : World → List Event → (Nat → Option (Request × Ghost)) → Prop) : Prop where
  start : ∀ {w l G i q}, Base w l G → Inv w l G → G i = none → (∀ e ∈ l, e.flow ≠ i) →
    ok w l (.start i q) → Inv w (.start i q :: l) (Function.update G i (some (q, q.ghost)))
  did : ∀ {w l G i q g c r w'}, Base w l G → Inv w l G → G i = some (q, g) → May agent g c →
    exec w c r w' → ok w l (.did i q c r) →
    Inv w' (.did i q c r :: l) (Function.update G i (some (q, g.next c r)))
  done : ∀ {w l G i q g x}, Base w l G → Inv w l G → G i = some (q, g) → q.Post agent x g →
    ok w l (.done i q x) → Inv w (.done i q x :: l) (Function.update G i none)
  crash : ∀ {w l G i q g}, Base w l G → Inv w l G → G i = some (q, g) →
    Inv w (.crash i q :: l) (Function.update G i none)
  ext : ∀ {w l G w'}, Base w l G → Inv w l G → Background w w' → Inv w' l G

/-- Nothing else is assumed. -/
abbrev noBase : World → List Event → (Nat → Option (Request × Ghost)) → Prop :=
  fun _ _ _ => True

variable {agent : SignerAgent} {ok : World → List Event → Event → Prop}

theorem Kept.weaken {Base Inv : World → List Event → (Nat → Option (Request × Ghost)) → Prop}
    (h : Kept agent ok noBase Inv) : Kept agent ok Base Inv where
  start _ := h.start trivial
  did _ := h.did trivial
  done _ := h.done trivial
  crash _ := h.crash trivial
  ext _ := h.ext trivial

theorem Kept.and {Base Inv : World → List Event → (Nat → Option (Request × Ghost)) → Prop}
    (hb : Kept agent ok noBase Base) (h : Kept agent ok Base Inv) :
    Kept agent ok noBase fun w l G => Base w l G ∧ Inv w l G where
  start _ hi hG hnew hok := ⟨hb.start trivial hi.1 hG hnew hok, h.start hi.1 hi.2 hG hnew hok⟩
  did _ hi hG hmay hexec hok :=
    ⟨hb.did trivial hi.1 hG hmay hexec hok, h.did hi.1 hi.2 hG hmay hexec hok⟩
  done _ hi hG hpost hok := ⟨hb.done trivial hi.1 hG hpost hok, h.done hi.1 hi.2 hG hpost hok⟩
  crash _ hi hG := ⟨hb.crash trivial hi.1 hG, h.crash hi.1 hi.2 hG⟩
  ext _ hi hext := ⟨hb.ext trivial hi.1 hext, h.ext hi.1 hi.2 hext⟩

/-- **An invariant that is kept holds in every state a node with a token verifier reaches.** -/
theorem Kept.run {Inv : World → List Event → (Nat → Option (Request × Ghost)) → Prop}
    (h : Kept agent ok noBase Inv) (hv : agent.verifier ≠ none) {w₀ : World}
    (hinit : Inv w₀ [] fun _ => none) {p : Pool World Request Call Call.Out String Reply}
    (hrun : Pool.Run (node agent) ok w₀ p) : ∃ G, Inv p.state p.log G := by
  have hinv : Pool.Invariant (node agent) ok (lifecycle agent) Request.ghost (Request.Post agent)
      Inv := {
    follows := Request.follows hv
    start := fun hi hG hnew hok => h.start trivial hi hG hnew hok
    did := fun {w l G i q g c r w'} hi hG hmay hexec hok =>
      ⟨g.next c r, ⟨exec_truthful hexec, rfl⟩, h.did trivial hi hG hmay hexec hok⟩
    done := fun hi hG hpost hok => h.done trivial hi hG hpost hok
    crash := fun hi hG => h.crash trivial hi hG
    ext := fun hi hext => h.ext trivial hi hext }
  obtain ⟨G, hi, -⟩ := hrun.inv hinv hinit
  exact ⟨G, hi⟩

end Nexum.Signer
