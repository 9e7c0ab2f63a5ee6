import Nexum.Signer.Naming
import Nexum.Signer.Rehearsal

/-!
# One call at a time

What a flow leaves behind when nothing else is going on: the exact contents of the signing tables
and of the orchestrator, in terms of what they were before. Two things a flow does not decide are
parameters here, so that two flows can be compared on the same terms: **what the wallet answers,
and which proofs the orchestrator takes**. Whether it also reports having taken them is left open.

As everywhere, no flow is taken apart: the bookkeeping of the protocol says what a flow has done,
and `Left` says what that amounts to in the tables.
-/

namespace Nexum.Signer

open Nexum.Lib Nexum.Lib.Prog
open Nexum.Transport
open Nexum.Orchestrator (ProofKey QuorumSignProof OrchestratorDb)

/-! ## 1. Given answers -/

/-- The wallet's answer is one of `wallet`, and the orchestrator stores a proof exactly if its key
    is one of `takes`. -/
def Conforms (takes : ProofKey → Bool) (wallet : SignedMultisigTx → Prop) (w : World) :
    (c : Call) → Except String c.Out → World → Prop
  | .signMultisig _ _, .ok out, _ => wallet out
  | .quorumProofSet e role round h jti reqId, _, w' =>
    if takes ⟨e, role, round, h⟩ then
      ∃ row, w.orch.checkProof e role round h jti reqId = .ok row
        ∧ w' = { w with orch := w.orch.put row }
    else w' = w
  | _, _, _ => True

/-- The services, with these answers given. -/
def answering (takes : ProofKey → Bool) (wallet : SignedMultisigTx → Prop) :
    Services Call Call.Out String World :=
  fun w c r w' => exec w c r w' ∧ Conforms takes wallet w c r w'

theorem answering_weaken {takes : ProofKey → Bool} {wallet wallet' : SignedMultisigTx → Prop}
    (hw : ∀ out, wallet out → wallet' out) {w w' : World} {c : Call} {r : Except String c.Out}
    (h : answering takes wallet w c r w') : answering takes wallet' w c r w' := by
  refine ⟨h.1, ?_⟩
  have hconf := h.2
  cases c with
  | signMultisig on tx =>
    cases r with
    | ok out => exact hw out hconf
    | error e => trivial
  | _ => exact hconf

/-! ## 2. Tables, from bookkeeping -/

/-- `record_sign_event`, on the rows alone. -/
def addEvent (rows : List SignEvent) (ev : SignEvent) : List SignEvent :=
  if ∃ old ∈ rows, SignerDb.Clash old ev then rows else rows ++ [ev]

theorem recordSignEvent_eq (db : SignerDb) (ev : SignEvent) :
    db.recordSignEvent ev = { db with signEvents := addEvent db.signEvents ev } := by
  unfold SignerDb.recordSignEvent addEvent
  split <;> rfl

/-- The row the orchestrator makes of one it is handed. -/
def proofOf (ev : SignEvent) : Option QuorumSignProof :=
  (OrchestratorDb.normalizeProof ev.key.escrowIdHex ev.key.role ev.key.signRound
    ev.key.txsetHashHex ev.jti ev.reqId).toOption

/-- The rows that were taken, of those that were offered. -/
def taken (takes : ProofKey → Bool) (offered : List (SignEvent × Bool)) : List QuorumSignProof :=
  ((offered.map (·.1)).filter fun ev => takes ev.key).filterMap proofOf

theorem taken_append (takes : ProofKey → Bool) (l l' : List (SignEvent × Bool)) :
    taken takes (l ++ l') = taken takes l ++ taken takes l' := by
  simp [taken]

/-- The consumed token ids, with one more. -/
def withConsumed (table : String → Option ConsumedJti) :
    Option (String × ConsumedJti) → String → Option ConsumedJti
  | none => table
  | some (jti, row) => Function.update table jti (some row)

section
variable {agent : SignerAgent} {takes : ProofKey → Bool} {wallet : SignedMultisigTx → Prop}
  {w₀ w w' : World} {g : Ghost}

/-- The request is in progress, and was not there before. -/
def Holding (w₀ w : World) (request : Option (String × SignRequestRow)) (reqId : String) : Prop :=
  ∃ row, w₀.db.requests reqId = none ∧ request = some (reqId, row)
    ∧ w.db.requests = Function.update w₀.db.requests reqId (some row)
    ∧ w.db.results = w₀.db.results

/-- The request is completed, and was not there before. -/
def Completed (w₀ w : World) (request : Option (String × SignRequestRow)) (reqId : String)
    (out : SignedMultisigTx) : Prop :=
  ∃ row, w₀.db.requests reqId = none ∧ request = some (reqId, row)
    ∧ w.db.requests
      = Function.update w₀.db.requests reqId (some { row with status := .completed })
    ∧ w.db.results = Function.update w₀.db.results reqId
      (some ⟨"sign_multisig", .encoded (signCachedResult out)⟩)

/-- What a flow in this phase has made of the requests and their answers. -/
def RequestLeft (wallet : SignedMultisigTx → Prop) (w₀ w : World)
    (request : Option (String × SignRequestRow)) : Phase → Prop
  | .idle => w.db.requests = w₀.db.requests ∧ w.db.results = w₀.db.results
  | .started reqId | .armed reqId _ | .spent reqId | .submitted reqId =>
    Holding w₀ w request reqId
  | .signed a _ out => Holding w₀ w request a.reqId ∧ wallet out
  | .completed a _ out => Completed w₀ w request a.reqId out ∧ wallet out
  | .over => True

/-- **What a flow that started in `w₀` has left**, in terms of its bookkeeping. -/
structure Left (takes : ProofKey → Bool) (wallet : SignedMultisigTx → Prop) (w₀ w : World)
    (g : Ghost) : Prop where
  events : w.db.signEvents = g.wrote.foldl addEvent w₀.db.signEvents
  orch : w.orch = (taken takes g.offered).foldl OrchestratorDb.put w₀.orch
  accepted : ∀ x ∈ g.offered, takes x.1.key = true → ∃ pr, proofOf x.1 = some pr
  consumed : w.db.consumed = withConsumed w₀.db.consumed g.consumed
  consumedNew : ∀ jti row, g.consumed = some (jti, row) → w₀.db.consumed jti = none
  found : ∀ reqId row, g.found = some (reqId, row) → w₀.db.requests reqId = some row
  request : RequestLeft wallet w₀ w g.request g.phase

theorem Left.start (w : World) (token : Option String) (queueId : Option Int)
    (action : Option (Json EscrowAction)) :
    Left takes wallet w w (.start token queueId action) where
  events := rfl
  orch := rfl
  accepted _ h := by cases h
  consumed := rfl
  consumedNew _ _ h := by cases h
  found _ _ h := by cases h
  request := ⟨rfl, rfl⟩

theorem RequestLeft.frame {request : Option (String × SignRequestRow)} {phase : Phase}
    (h : RequestLeft wallet w₀ w request phase) (hf : Frame w w') :
    RequestLeft wallet w₀ w' request phase := by
  cases phase <;> simp only [RequestLeft, Holding, Completed, hf.requests, hf.results] at h ⊢ <;>
    exact h

theorem Left.frame (h : Left takes wallet w₀ w g) (hf : Frame w w') :
    Left takes wallet w₀ w' g where
  events := hf.signEvents.trans h.events
  orch := hf.orch.trans h.orch
  accepted := h.accepted
  consumed := hf.consumed.trans h.consumed
  consumedNew := h.consumedNew
  found := h.found
  request := h.request.frame hf

/-! ## 3. One call -/

variable {c : Call} {r : Except String c.Out}

theorem Left.unwritten (h : Left takes wallet w₀ w g) (hmay : May agent g c)
    (hexec : answering takes wallet w c r w') (hw : c.writes = false) :
    Left takes wallet w₀ w' (g.next c r) := by
  have h' := h.frame (exec_frame hexec.1 hw)
  cases c with
  | getSignRequest reqId =>
    rcases r with e | _ | row
    · exact h'
    · exact h'
    · refine { h' with found := ?_ }
      rintro _ _ ⟨⟩
      have hs := exec_ok hexec.1 (by simp [World.serve, World.read])
      simp only [World.serve, World.read, Option.some.injEq, Prod.mk.injEq, Except.ok.injEq] at hs
      have hidle := h.request
      rw [show g.phase = .idle from hmay] at hidle
      rw [← hidle.1]
      exact hs.1
  | signMultisig on tx =>
    cases on with
    | none => exact hmay.elim
    | some a =>
      have hheld := h'.request
      rw [hmay.phase] at hheld
      cases r with
      | error e => exact { h' with request := hheld }
      | ok out => exact { h' with request := ⟨hheld, hexec.2⟩ }
  | submitMultisig on tx =>
    cases on with
    | none => exact hmay.elim
    | some a =>
      have hheld := h'.request
      rw [hmay.1.phase] at hheld
      cases r with
      | error e => exact { h' with request := hheld }
      | ok out => exact { h' with request := hheld }
  | getPending id => rcases r with e | _ | row <;> exact { h' with }
  | activeSnapshotForEscrow e => rcases r with e | _ | row <;> exact { h' with }
  | describeTransfer tx => rcases r with e | _ | row <;> exact { h' with }
  | getSignEvent key => rcases r with e | _ | row <;> exact { h' with }
  | getSignRequestResult reqId => rcases r with e | _ | row <;> exact { h' with }
  | startSignRequest reqId e op round h => cases hw
  | consumeActionJti jti row => cases hw
  | abortSignRequest reqId => cases hw
  | completeSignRequestWithResult reqId op resp => cases hw
  | recordSignEvent ev => cases hw
  | quorumProofSet e role round h jti reqId => cases hw
  | _ => exact h'

theorem Left.offered (h : Left takes wallet w₀ w g) {e role round hash jti reqId : String}
    {r : Except String Unit}
    (hexec : answering takes wallet w (.quorumProofSet e role round hash jti reqId) r w') :
    Left takes wallet w₀ w' (g.next (.quorumProofSet e role round hash jti reqId) r) := by
  have hconf := hexec.2
  simp only [Conforms] at hconf
  split at hconf
  · rename_i htakes
    obtain ⟨row, hrow, rfl⟩ := hconf
    have hproof : proofOf ⟨⟨e, role, round, hash⟩, jti, reqId⟩ = some row := by
      simp only [OrchestratorDb.checkProof, Check.bind_eq_ok, Check.pure_eq_ok] at hrow
      obtain ⟨row', hnorm, -, -, -, -, rfl⟩ := hrow
      simp only [proofOf, hnorm]
      rfl
    refine { h with orch := ?_, accepted := ?_, request := h.request }
    · simp only [Ghost.next, taken_append, List.foldl_append, ← h.orch]
      simp [taken, htakes, hproof]
    · intro x hx hkey
      rcases List.mem_append.mp hx with hx | hx
      · exact h.accepted x hx hkey
      · cases List.mem_singleton.mp hx
        exact ⟨row, hproof⟩
  · rename_i htakes
    subst hconf
    refine { h with orch := ?_, accepted := ?_ }
    · simp only [Ghost.next, taken_append, List.foldl_append, ← h.orch]
      simp [taken, htakes]
    · intro x hx hkey
      rcases List.mem_append.mp hx with hx | hx
      · exact h.accepted x hx hkey
      · cases List.mem_singleton.mp hx
        exact absurd hkey htakes

theorem Left.started (h : Left takes wallet w₀ w g) {reqId e op round hash : String}
    {r : Except String Unit} (hidle : g.phase = .idle)
    (hexec : exec w (.startSignRequest reqId e op round hash) r w') :
    Left takes wallet w₀ w' (g.next (.startSignRequest reqId e op round hash) r) := by
  have hsame := h.request
  rw [hidle] at hsame
  obtain ⟨hreq, hres⟩ := hsame
  cases exec_effect hexec with
  | frame hc _ => cases hc
  | nothing err => exact h
  | started hnew =>
    refine { h with request := ⟨⟨e, op, round, hash, .inProgress⟩, ?_, rfl, ?_, hres⟩ }
    · rw [← hreq]
      exact hnew
    · simp only [hreq]

theorem Left.consume (h : Left takes wallet w₀ w g) {jti : String} {row : ConsumedJti}
    {r : Except String Unit} (hmay : May agent g (.consumeActionJti jti row))
    (hexec : exec w (.consumeActionJti jti row) r w') :
    Left takes wallet w₀ w' (g.next (.consumeActionJti jti row) r) := by
  have hbefore := h.consumed
  rw [hmay.1] at hbefore
  cases exec_effect hexec with
  | frame hc _ => cases hc
  | nothing err => exact h
  | consumed hnew =>
    refine { h with consumed := ?_, consumedNew := ?_, request := ?_ }
    · simp only [Ghost.next, withConsumed, hbefore]
    · rintro _ _ ⟨⟩
      rw [hbefore] at hnew
      exact hnew
    · have hreq := h.request
      rcases hmay.2 with hphase | ⟨reqId, hphase⟩ <;> rw [hphase] at hreq <;>
        simp only [Ghost.next, hphase, Phase.consume] <;> exact hreq

theorem Left.complete (h : Left takes wallet w₀ w g) {reqId op : String}
    {resp : SignRequestCachedResult} {r : Except String Unit}
    (hmay : May agent g (.completeSignRequestWithResult reqId op resp))
    (hexec : exec w (.completeSignRequestWithResult reqId op resp) r w') :
    Left takes wallet w₀ w' (g.next (.completeSignRequestWithResult reqId op resp) r) := by
  cases exec_effect hexec with
  | frame hc _ => cases hc
  | nothing err => exact { h with request := trivial }
  | completed hrow hstatus hnew =>
    refine { h with request := ?_ }
    have hreq := h.request
    rcases hmay with ⟨a, tx, out, hphase, rfl, rfl, rfl⟩ | hphase
    · -- the row that is completed is the one this flow inserted
      rw [hphase] at hreq
      obtain ⟨⟨row, hfresh, hrequest, hreqs, hres⟩, hwallet⟩ := hreq
      rw [hreqs, Function.update_self] at hrow
      cases hrow
      simp only [Ghost.next, hphase, Phase.complete, RequestLeft]
      refine ⟨⟨_, hfresh, hrequest, ?_, ?_⟩, hwallet⟩
      · simp only [hreqs, Function.update_idem]
      · simp only [hres]
    · simp only [Ghost.next, hphase, Phase.complete, RequestLeft]

theorem Left.aborted (h : Left takes wallet w₀ w g) {reqId : String} {r : Except String Unit}
    (hexec : exec w (.abortSignRequest reqId) r w') :
    Left takes wallet w₀ w' (g.next (.abortSignRequest reqId) r) := by
  cases exec_effect hexec with
  | frame hc _ => cases hc
  | nothing err => exact { h with request := trivial }
  | aborted =>
    have hdb : (w.db.abortSignRequest reqId) = { w.db with
        requests := (w.db.abortSignRequest reqId).requests } := by
      unfold SignerDb.abortSignRequest
      split
      · split <;> rfl
      · rfl
    rw [hdb]
    exact { h with request := trivial }

theorem Left.recorded (h : Left takes wallet w₀ w g) {ev : SignEvent} {r : Except String Unit}
    (hexec : exec w (.recordSignEvent ev) r w') :
    Left takes wallet w₀ w' (g.next (.recordSignEvent ev) r) := by
  cases exec_effect hexec with
  | frame hc _ => cases hc
  | nothing err => exact h
  | recorded =>
    rw [recordSignEvent_eq]
    refine { h with events := ?_ }
    simp only [Ghost.next, List.foldl_append, ← h.events, List.foldl_cons, List.foldl_nil]

/-- **One call keeps the account.** -/
theorem Left.did (h : Left takes wallet w₀ w g) (hmay : May agent g c)
    (hexec : answering takes wallet w c r w') : Left takes wallet w₀ w' (g.next c r) := by
  cases hw : c.writes with
  | false => exact h.unwritten hmay hexec hw
  | true =>
    cases c with
    | startSignRequest reqId e op round hash => exact h.started hmay hexec.1
    | consumeActionJti jti row => exact h.consume hmay hexec.1
    | abortSignRequest reqId => exact h.aborted hexec.1
    | completeSignRequestWithResult reqId op resp => exact h.complete hmay hexec.1
    | recordSignEvent ev => exact h.recorded hexec.1
    | quorumProofSet e role round hash jti reqId => exact h.offered hexec
    | _ => cases hw

/-- **A flow that follows the protocol leaves what its bookkeeping says**, when it returns. -/
theorem Left.run {α : Type} {p : Flow α} {R : α → Ghost → Prop} {x : α}
    (hp : Ensures (lifecycle agent) p g R) (hrun : Runs (answering takes wallet) w p (.ok x) w')
    (h : Left takes wallet w₀ w g) : ∃ g', R x g' ∧ Left takes wallet w₀ w' g' := by
  have hcall : ∀ s g c r s', Left takes wallet w₀ s g → (lifecycle agent).may g c →
      answering takes wallet s c r s' →
      ∃ g', (lifecycle agent).does g c r g' ∧ Left takes wallet w₀ s' g' := by
    intro s g c r s' hleft hmay hexec
    exact ⟨g.next c r, ⟨exec_truthful hexec.1, rfl⟩, hleft.did hmay hexec⟩
  obtain ⟨g', hpost, hleft⟩ := hrun.inv hcall (ensures_iff.mp hp) h
  exact ⟨g', hpost x rfl, hleft⟩

/-! ## 4. Signing and approving -/

/-- The proof the orchestrator is left with for a row, if it takes it. -/
def storedProof (agent : SignerAgent) (takes : ProofKey → Bool) (ev : SignEvent) :
    Option QuorumSignProof :=
  if agent.proofStore then
    (normalizeForStore ev).toOption.bind fun row => if takes row.key then proofOf row else none
  else none

/-- What a signature leaves in the signing tables. -/
structure SignatureLeft (agent : SignerAgent) (a : Authority) (out : SignedMultisigTx)
    (hash : String) (w w' : World) : Prop where
  returned : txsetSha256Hex agent.crypto out.txDataHex = .ok hash
  requestNew : w.db.requests a.reqId = none
  consumedNew : w.db.consumed a.jti = none
  requests : w'.db.requests = Function.update w.db.requests a.reqId
    (some { requestRow a "sign_multisig" with status := .completed })
  results : w'.db.results = Function.update w.db.results a.reqId
    (some ⟨"sign_multisig", .encoded (signCachedResult out)⟩)
  consumed : w'.db.consumed = Function.update w.db.consumed a.jti
    (some (consumedRow a "sign_multisig" a.claims.exp))
  events : w'.db.signEvents = addEvent (addEvent w.db.signEvents (requestedEvent a))
    (artifactEvent agent.crypto a hash)

/-- What it leaves at the orchestrator when both rows are offered: every one that is taken, in
    this order. -/
structure ProofsLeft (agent : SignerAgent) (takes : ProofKey → Bool) (a : Authority)
    (hash : String) (w w' : World) : Prop where
  orch : w'.orch = ((storedProof agent takes (requestedEvent a)).toList
    ++ (storedProof agent takes (artifactEvent agent.crypto a hash)).toList).foldl
      OrchestratorDb.put w.orch
  accepted : ∀ ev ∈ [requestedEvent a, artifactEvent agent.crypto a hash], ∀ row,
    agent.proofStore = true → normalizeForStore ev = .ok row → takes row.key = true →
    ∃ pr, proofOf row = some pr

theorem Left.signature (h : Left takes wallet w₀ w' g) {g₀ g₁ : Ghost} {job : Job}
    (hprep : Prepared agent g₀ job g₁) (hwrote : g₀.wrote = []) {a : Authority} {tx : String}
    {out : SignedMultisigTx}
    {P : SignEvent → List (SignEvent × Bool) → List (SignEvent × Bool) → Prop}
    (hev : Evidenced agent P a tx (g₁.armed a "sign_multisig") out g) :
    ∃ hash mid, P (requestedEvent a) g₀.offered mid
      ∧ P (artifactEvent agent.crypto a hash) mid g.offered
      ∧ SignatureLeft agent a out hash w₀ w' ∧ wallet out := by
  obtain ⟨hash, mid, after, hhash, hmid, hafter, rfl⟩ := hev
  obtain ⟨_, _, rfl⟩ := hprep.same
  obtain ⟨⟨row, hnew, hrow, hreqs, hres⟩, hwallet⟩ := h.request
  cases hrow
  refine ⟨hash, mid, hmid, hafter, ?_, hwallet⟩
  refine ⟨hhash, hnew, h.consumedNew _ _ rfl, hreqs, hres, h.consumed, ?_⟩
  rw [h.events]
  simp only [Ghost.armed, hwrote, List.nil_append, List.foldl_cons, List.foldl_nil]

theorem Stores.taken_eq {ev : SignEvent} {before after : List (SignEvent × Bool)}
    (h : Stores agent ev before after) :
    taken takes after = taken takes before ++ (storedProof agent takes ev).toList := by
  cases h with
  | off hoff => simp [storedProof, hoff]
  | malformed hon hrow _ => simp [storedProof, hon, hrow, Except.toOption]
  | offered hon hrow hok =>
    rename_i row ok
    rw [taken_append]
    cases htakes : takes row.key with
    | false => simp [taken, storedProof, hon, hrow, Except.toOption, htakes]
    | true =>
      cases hproof : proofOf row <;>
        simp [taken, storedProof, hon, hrow, Except.toOption, htakes, hproof]

theorem Stores.mem {ev : SignEvent} {before after : List (SignEvent × Bool)}
    (h : Stores agent ev before after) :
    (∀ x ∈ before, x ∈ after) ∧ ∀ row, agent.proofStore = true → normalizeForStore ev = .ok row →
      ∃ ok, (row, ok) ∈ after := by
  cases h with
  | off hoff =>
    refine ⟨fun _ hx => hx, fun row hon => ?_⟩
    rw [hoff] at hon
    cases hon
  | malformed _ hrow _ =>
    refine ⟨fun _ hx => hx, fun row _ hrow' => ?_⟩
    rw [hrow] at hrow'
    cases hrow'
  | offered _ hrow _ =>
    refine ⟨fun _ hx => List.mem_append_left _ hx, fun row _ hrow' => ?_⟩
    rw [hrow] at hrow'
    cases hrow'
    exact ⟨_, List.mem_append_right _ (List.mem_singleton.mpr rfl)⟩

theorem Left.proofs (h : Left takes wallet w₀ w' g) {a : Authority} {hash : String}
    {mid : List (SignEvent × Bool)} (hmid : Stores agent (requestedEvent a) [] mid)
    (hafter : Stores agent (artifactEvent agent.crypto a hash) mid g.offered) :
    ProofsLeft agent takes a hash w₀ w' := by
  refine ⟨?_, fun ev hev row hon hrow htakes => ?_⟩
  · rw [h.orch, hafter.taken_eq, hmid.taken_eq]
    rfl
  · have hmem : ∃ ok, (row, ok) ∈ g.offered := by
      rcases List.mem_pair.mp hev with rfl | rfl
      · obtain ⟨ok, hok⟩ := hmid.mem.2 row hon hrow
        exact ⟨ok, hafter.mem.1 _ hok⟩
      · exact hafter.mem.2 row hon hrow
    obtain ⟨ok, hok⟩ := hmem
    exact h.accepted (row, ok) hok htakes

/-- What a call leaves that is answered from a stored answer: its token's id, consumed. -/
structure ReplayLeft (a : Authority) (w w' : World) : Prop where
  request : w.db.requests a.reqId ≠ none
  consumedNew : w.db.consumed a.jti = none
  consumed : w'.db.consumed = Function.update w.db.consumed a.jti
    (some (consumedRow a "sign_multisig" a.claims.exp))
  events : w'.db.signEvents = w.db.signEvents
  orch : w'.orch = w.orch

/-- **What a successful `sign_multisig_flow` leaves.** -/
theorem sign_alone (hv : agent.verifier ≠ none) {escrow tx : String} {action : EscrowAction}
    {token : Option String} {out : SignedMultisigTx}
    (hrun : Runs (answering takes wallet) w (signMultisigFlow agent escrow action tx token)
      (.ok out) w') :
    ∃ a, Granted agent token "sign_multisig" a
      ∧ normalizeHexExact escrow 32 "escrow_id_hex" = .ok a.escrowIdHex
      ∧ txsetSha256Hex agent.crypto tx = .ok a.txsetHashHex
      ∧ ((∃ hash, SignatureLeft agent a out hash w w' ∧ ProofsLeft agent takes a hash w w'
          ∧ wallet out)
        ∨ ReplayLeft a w w') := by
  obtain ⟨g, hpost, hleft⟩ := Left.run (signMultisigFlow_ensures hv ..) hrun (Left.start ..)
  obtain ⟨job, g₁, a, hprep, hfor, hgranted, hae, hah, hend⟩ := hpost
  have hhash : txsetSha256Hex agent.crypto job.txDataHex = .ok a.txsetHashHex := hah ▸ hprep.hash
  refine ⟨a, hgranted, hae ▸ hfor.escrow, txsetSha256Hex_of_valid hfor.txData hhash, ?_⟩
  rcases hend with hev | ⟨row, json, -, rfl⟩
  · obtain ⟨hash, mid, hmid, hafter, hsig, hwallet⟩ := hleft.signature hprep rfl hev
    exact .inl ⟨hash, hsig, hleft.proofs hmid hafter, hwallet⟩
  · obtain ⟨_, _, rfl⟩ := hprep.same
    refine .inr ⟨?_, hleft.consumedNew _ _ rfl, hleft.consumed, hleft.events, hleft.orch⟩
    rw [hleft.found _ _ rfl]
    exact Option.some_ne_none row

/-- **What a successful `approve_pending` leaves.** -/
theorem approve_alone (hv : agent.verifier ≠ none) {id : Int} {token : Option String}
    {row : PendingTxSign} (hrow : w.db.getPending id = some row)
    (hrun : Runs (answering takes wallet) w (approvePending agent id token) (.ok ()) w') :
    (row.status = .pending ∧ ∃ a out hash, Granted agent token "sign_multisig" a
      ∧ a.escrowIdHex = row.escrowIdHex
      ∧ txsetSha256Hex agent.crypto row.multisigTxsetHex = .ok a.txsetHashHex
      ∧ SignatureLeft agent a out hash w w' ∧ w'.orch = w.orch ∧ wallet out)
    ∨ (row.status = .approvedSending ∧ w'.db.consumed = w.db.consumed) := by
  unfold approvePending at hrun
  obtain ⟨found, w₁, hexec, hrun⟩ := hrun.perform_bind
  obtain ⟨row', rfl, hrun⟩ := hrun.okOr_bind
  have hread := exec_ok hexec.1 (by simp [World.serve, World.read])
  simp only [World.serve, World.read, Option.some.injEq, Prod.mk.injEq, Except.ok.injEq] at hread
  obtain ⟨hfound, rfl⟩ := hread
  rw [hrow] at hfound
  cases hfound
  have hstart : Left takes wallet w w (.reading token id row) :=
    { Left.start w token (some id) none with }
  obtain ⟨g, hpost, hleft⟩ := Left.run (approveRow_ensures hv id token row) hrun hstart
  rcases hpost with ⟨hstatus, out, job, g₁, a, hprep, hgranted, hae, htx, hah, hev⟩ |
    ⟨hstatus, rfl⟩
  · obtain ⟨hash, mid, hmid, hafter, hsig, hwallet⟩ := hleft.signature hprep rfl hev
    refine .inl ⟨hstatus, a, out, hash, hgranted, hae, ?_, hsig, ?_, hwallet⟩
    · rw [← htx, hah]
      exact hprep.hash
    · have hoff : g.offered = [] := Eq.trans hafter hmid
      rw [hleft.orch, hoff]
      rfl
  · exact .inr ⟨hstatus, hleft.consumed⟩

/-! ## 5. Rehearsing a call -/

/-- The wallet's answer is one of `answers`, and every proof is reported as stored. -/
def given (answers : SignedMultisigTx → Bool) : (c : Call) → Except String c.Out → Bool
  | .signMultisig _ _, .ok out => answers out
  | .quorumProofSet _ _ _ _ _ _, r => r.isOk
  | _, _ => true

theorem answering_of_given {answers : SignedMultisigTx → Bool} (hexec : exec w c r w')
    (h : given answers c r = true) :
    answering (fun _ => true) (fun out => answers out = true) w c r w' := by
  refine ⟨hexec, ?_⟩
  cases c with
  | signMultisig on tx =>
    cases r with
    | ok out => exact h
    | error e => trivial
  | quorumProofSet e role round hash jti reqId =>
    cases exec_effect hexec with
    | frame hc _ => cases hc
    | nothing err => cases h
    | stored hrow => exact ⟨_, hrow, rfl⟩
  | _ => trivial

/-- The sample signer's flow, played on its own with everything working. -/
def rehearseAlone {α : Type} (answers : SignedMultisigTx → Bool) (p : Flow α) (w : World) :
    Option (Except String α × World) :=
  p.playIf (player sampleAgent (sampleOracle signNext)) (fun _ => .works) (given answers) 0 w

theorem rehearseAlone_run {α : Type} {answers : SignedMultisigTx → Bool} {p : Flow α}
    {f : Except String α × World → Bool} (h : (rehearseAlone answers p w).any f = true) :
    ∃ x w', Runs (answering (fun _ => true) fun out => answers out = true) w p x w'
      ∧ f (x, w') = true := by
  obtain ⟨x, w', hrun, hf⟩ := playIf_runs h
  exact ⟨x, w', hrun.mono fun _ _ _ _ hs => answering_of_given hs.1 hs.2, hf⟩

end

end Nexum.Signer
