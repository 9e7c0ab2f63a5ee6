import Nexum.Lib.Books
import Nexum.Signer.Exclusive

/-!
# An answer and its evidence

A signing call marks its request as completed, with the answer, *before* it writes the evidence:
two rows here and two at the orchestrator. If it fails in between, the request stays completed,
and the next call for it is answered from the stored answer without a look at the evidence. So
`Ok` does not mean that the evidence is there (`replayed_without_evidence`).

What does hold: **if a stored answer is only ever used once the call that stored it has returned
`Ok`, every answer has its evidence** (`answers_have_evidence`). The proof has two halves. A row
that is recorded may be ignored, because another one stands in its way; but that one has the same
key (`clash_key`), so there is a row for the key either way. And a stored answer is about the same
escrow and the same transaction set as the call that reads it, because its request id says so.
Nothing written is lost (`records_survive`).
-/

namespace Nexum.Signer

open Nexum.Lib Nexum.Lib.Prog
open Nexum.Transport
open Nexum.Orchestrator (ProofKey)

/-! ## 1. Evidence in both places -/

/-- There is a row for the key here and one at the orchestrator. -/
def Present (w : World) (key : ProofKey) : Prop :=
  (∃ row ∈ w.db.signEvents, row.key = key) ∧ ∃ row ∈ w.orch.proofs, row.key = key

/-- Rows of evidence do not go away. -/
structure Grows (w w' : World) : Prop where
  signEvents : ∀ row ∈ w.db.signEvents, row ∈ w'.db.signEvents
  proofs : ∀ row ∈ w.orch.proofs, ∃ row' ∈ w'.orch.proofs, row'.key = row.key

theorem Grows.rfl {w : World} : Grows w w :=
  ⟨fun _ h => h, fun row h => ⟨row, h, Eq.refl _⟩⟩

theorem Background.grows {w w' : World} (h : Background w w') : Grows w w' :=
  ⟨fun _ hrow => h.signEvents ▸ hrow, h.proofs⟩

theorem exec_grows {w w' : World} {c : Call} {r : Except String c.Out} (hexec : exec w c r w') :
    Grows w w' := by
  have heffect := exec_effect hexec
  refine ⟨fun row hrow => ?_, fun row hrow => ?_⟩
  · rcases heffect.signEvents with hsame | ⟨ev, -, hadded⟩
    · exact hsame ▸ hrow
    · exact hadded ▸ List.mem_append_left _ hrow
  · cases heffect with
    | frame _ h => exact h.background.proofs row hrow
    | stored => exact Orchestrator.OrchestratorDb.mem_put _ hrow
    | _ => exact ⟨row, hrow, Eq.refl _⟩

theorem Present.grow {w w' : World} {key : ProofKey} (h : Present w key) (hg : Grows w w') :
    Present w' key := by
  obtain ⟨⟨row, hrow, hkey⟩, pr, hpr, hprkey⟩ := h
  obtain ⟨pr', hpr', hkey'⟩ := hg.proofs pr hpr
  exact ⟨⟨row, hg.signEvents row hrow, hkey⟩, pr', hpr', hkey'.trans hprkey⟩

/-- Both rows of a signature are in both places. -/
def FullyEvidenced (agent : SignerAgent) (w : World) (a : Authority) (out : SignedMultisigTx) :
    Prop :=
  Present w (requestedEvent a).key ∧ ∃ hash, txsetSha256Hex agent.crypto out.txDataHex = .ok hash
    ∧ Present w (artifactEvent agent.crypto a hash).key

theorem FullyEvidenced.grow {agent : SignerAgent} {w w' : World} {a : Authority}
    {out : SignedMultisigTx} (h : FullyEvidenced agent w a out) (hg : Grows w w') :
    FullyEvidenced agent w' a out := by
  obtain ⟨hreq, hash, hhash, hart⟩ := h
  exact ⟨hreq.grow hg, hash, hhash, hart.grow hg⟩

/-! ## 2. Rows in each other's way -/

/-- An authority whose names can be relied on. -/
structure Known (agent : SignerAgent) (a : Authority) : Prop where
  granted : ∃ token, Granted agent token "sign_multisig" a
  escrow : NormalEscrow a.escrowIdHex
  hash : ∃ tx, txsetSha256Hex agent.crypto tx = .ok a.txsetHashHex

section
variable {agent : SignerAgent} {v : ActionTokenVerifier} {a a' : Authority}
  {out out' : SignedMultisigTx} {ev ev' : SignEvent}

theorem SignedIn.known {l : List Event} {tx : String} (h : SignedIn agent l a tx out)
    (hq : ∀ e ∈ l, e.request.queueId = none) : Known agent a := by
  obtain ⟨after, before, i, q, rfl, hgranted, hhash, hescrow, -⟩ := h
  have hqueue := hq (.did i q (.signMultisig (some a) tx) (.ok out)) (by simp)
  exact ⟨⟨_, hgranted⟩, hescrow hqueue, tx, hhash⟩

theorem Known.reqId_eq (hd : DigestLike agent.crypto.sha256Hex) (h : Known agent a) :
    a.reqId = signReqId agent.crypto a.escrowIdHex "sign_multisig" a.claims.signRound
      a.txsetHashHex := by
  obtain ⟨⟨token, hg⟩, -, tx, hh⟩ := h
  exact hg.reqId_eq hd hh

theorem Known.normalKey (hd : DigestLike agent.crypto.sha256Hex) (hv : agent.verifier = some v)
    (h : Known agent a) : NormalKey v.signerRole a.key := by
  obtain ⟨⟨token, hg⟩, he, tx, hh⟩ := h
  exact normalKey_requested hd hv hg he hh

/-- A row of evidence has a normal key, made of its authority's names, and the request id that
    goes with it. -/
theorem EvidenceOf.names (hd : DigestLike agent.crypto.sha256Hex) (hv : agent.verifier = some v)
    (hk : Known agent a) (h : EvidenceOf agent a out ev) :
    NormalKey v.signerRole ev.key ∧ ev.jti = a.jti
      ∧ ev.key = { a.key with txsetHashHex := ev.key.txsetHashHex }
      ∧ ev.reqId = signReqId agent.crypto ev.key.escrowIdHex "sign_multisig" ev.key.signRound
        ev.key.txsetHashHex := by
  have hreq := hk.reqId_eq hd
  obtain ⟨⟨token, hg⟩, he, tx, hh⟩ := hk
  rcases h with rfl | ⟨hash, hhash, rfl⟩
  · exact ⟨normalKey_requested hd hv hg he hh, rfl, rfl, hreq⟩
  · exact ⟨normalKey_artifact hd hv hg he hhash, rfl, rfl, rfl⟩

/-- Two authorities of one signer with the same request id are about the same thing. -/
theorem Known.same (hd : DigestLike agent.crypto.sha256Hex) (hv : agent.verifier = some v)
    (h : Known agent a) (h' : Known agent a') (heq : a.reqId = a'.reqId) : a.key = a'.key := by
  have hk := h.normalKey hd hv
  have hk' := h'.normalKey hd hv
  have hround : a.claims.signRound = a'.claims.signRound := hk.round.trans hk'.round.symm
  have hrole : a.claims.role = a'.claims.role := hk.role.trans hk'.role.symm
  rw [h.reqId_eq hd, h'.reqId_eq hd, hround] at heq
  obtain ⟨hescrow, hhash⟩ := signReqId_inj hd.injective h.escrow h'.escrow heq
  simp only [Authority.key, hescrow, hrole, hround, hhash]

/-- **A row that stands in the way of another has the same key**, provided that one token id
    belongs to one authority. -/
theorem clash_key (hd : DigestLike agent.crypto.sha256Hex) (hv : agent.verifier = some v)
    (hk : Known agent a) (hk' : Known agent a') (h : EvidenceOf agent a out ev)
    (h' : EvidenceOf agent a' out' ev') (hone : a.jti = a'.jti → a = a')
    (hclash : SignerDb.Clash ev ev') : ev.key = ev'.key := by
  obtain ⟨hn, hjti, hkey, hreq⟩ := h.names hd hv hk
  obtain ⟨hn', hjti', hkey', hreq'⟩ := h'.names hd hv hk'
  rcases hclash with hsame | ⟨hj, hhash⟩ | hr
  · exact hsame
  · have haa : a = a' := hone (by rw [← hjti, ← hjti', hj])
    rw [hkey, hkey', haa, hhash]
  · have hround : ev.key.signRound = ev'.key.signRound := hn.round.trans hn'.round.symm
    have hrole : ev.key.role = ev'.key.role := hn.role.trans hn'.role.symm
    rw [hreq, hreq', hround] at hr
    obtain ⟨hescrow, hhash⟩ := signReqId_inj hd.injective hn.escrow hn'.escrow hr
    generalize ev.key = key at *
    generalize ev'.key = key' at *
    obtain ⟨e, ro, rd, ha⟩ := key
    obtain ⟨e', ro', rd', ha'⟩ := key'
    simp_all

end

/-! ## 3. Stored answers that may be used -/

def Request.isSign : Request → Bool
  | .sign _ _ _ _ => true
  | _ => false

/-- The flow `j` serving `q` has returned `Ok`. -/
def returnedOk (l : List Event) (j : Nat) (q : Request) : Bool :=
  l.any fun
    | .done j' q' (.ok _) => j' = j ∧ q' = q
    | _ => false

/-- The flow that completed the request has returned `Ok`. -/
def settledBy (l : List Event) (reqId : String) : Bool :=
  l.any fun
    | .did j q (.completeSignRequestWithResult r _ _) (.ok _) => r = reqId ∧ returnedOk l j q
    | _ => false

/-- **The condition.** Only signing requests are made, and a stored answer is read only when the
    call that stored it has returned `Ok`. -/
def answersSettled (l : List Event) : Event → Bool
  | .start _ q => q.isSign
  | .did _ _ (.getSignRequestResult reqId) (.ok (some _)) => settledBy l reqId
  | _ => true

abbrev AnswersSettled : World → List Event → Event → Prop :=
  fun _ l e => answersSettled l e = true

theorem settledBy_iff {l : List Event} {reqId : String} : settledBy l reqId = true ↔
    ∃ j q op resp u x, .did j q (.completeSignRequestWithResult reqId op resp) (.ok u) ∈ l
      ∧ .done j q (.ok x) ∈ l := by
  unfold settledBy returnedOk
  rw [List.any_eq_true]
  constructor
  · rintro ⟨e, he, h⟩
    split at h
    · rename_i j q r op resp u
      obtain ⟨rfl, hret⟩ := of_decide_eq_true h
      obtain ⟨e', he', h'⟩ := List.any_eq_true.mp hret
      split at h'
      · rename_i x
        obtain ⟨rfl, rfl⟩ := of_decide_eq_true h'
        exact ⟨_, _, op, resp, u, x, he, he'⟩
      · cases h'
    · cases h
  · rintro ⟨j, q, op, resp, u, x, hdid, hdone⟩
    refine ⟨_, hdid, decide_eq_true ⟨rfl, List.any_eq_true.mpr ⟨_, hdone, ?_⟩⟩⟩
    exact decide_eq_true ⟨rfl, rfl⟩

/-! ## 4. What is true at any time -/

section
variable (agent : SignerAgent)

/-- `resp` is the answer of a signature for the request, and its evidence is there. -/
def Settled (w : World) (reqId : String) (resp : SignRequestCachedResult) : Prop :=
  ∃ a out, a.reqId = reqId ∧ resp = signCachedResult out ∧ Known agent a
    ∧ FullyEvidenced agent w a out

/-- What a flow under way has written is there, and a stored answer it has read is settled. -/
structure FlowEvident (w : World) (l : List Event) (i : Nat) (q : Request) (g : Ghost) : Prop where
  running : ∀ x, .done i q x ∉ l
  wrote : ∀ ev ∈ g.wrote, ∃ row ∈ w.db.signEvents, row.key = ev.key
  stored : ∀ ev ∈ g.stored, ∃ row ∈ w.orch.proofs, row.key = ev.key
  completes : ∀ reqId op resp u,
    .did i q (.completeSignRequestWithResult reqId op resp) (.ok u) ∈ l →
    g.phase = .over ∨ ∃ a tx out, g.phase = .completed a tx out ∧ reqId = a.reqId
      ∧ resp = signCachedResult out
  cached : ∀ reqId json, g.cached = some (reqId, json) →
    ∃ resp, json = .encoded resp ∧ Settled agent w reqId resp

/-- The evidence of an answer to a signing request. -/
def HasEvidence (w : World) (escrow tx : String) (out : SignedMultisigTx) : Prop :=
  ∃ v escrowIdHex hash signedHash, agent.verifier = some v
    ∧ normalizeHexExact escrow 32 "escrow_id_hex" = .ok escrowIdHex
    ∧ txsetSha256Hex agent.crypto tx = .ok hash
    ∧ txsetSha256Hex agent.crypto out.txDataHex = .ok signedHash
    ∧ Present w ⟨escrowIdHex, roleKey v.signerRole, expectedSignRound v.signerRole, hash⟩
    ∧ Present w ⟨escrowIdHex, roleKey v.signerRole, expectedSignRound v.signerRole, signedHash⟩

structure Evident (w : World) (l : List Event) (G : Nat → Option (Request × Ghost)) : Prop where
  signs : ∀ e ∈ l, e.request.isSign = true
  requests : ∀ i q g, G i = some (q, g) → q.isSign = true
  flows : ∀ i q g, G i = some (q, g) → FlowEvident agent w l i q g
  results : ∀ i q reqId op resp u,
    .did i q (.completeSignRequestWithResult reqId op resp) (.ok u) ∈ l →
    w.db.results reqId = some ⟨op, .encoded resp⟩
  settled : ∀ i q reqId op resp u x,
    .did i q (.completeSignRequestWithResult reqId op resp) (.ok u) ∈ l → .done i q (.ok x) ∈ l →
    Settled agent w reqId resp
  answered : ∀ i escrow action tx token out,
    .done i (.sign escrow action tx token) (.ok (.signed out)) ∈ l →
    HasEvidence agent w escrow tx out

end

section
variable {agent : SignerAgent} {w w' : World} {l : List Event} {i : Nat} {q : Request} {g : Ghost}

theorem Settled.grow {reqId : String} {resp : SignRequestCachedResult}
    (h : Settled agent w reqId resp) (hg : Grows w w') : Settled agent w' reqId resp := by
  obtain ⟨a, out, hreq, hresp, hk, hev⟩ := h
  exact ⟨a, out, hreq, hresp, hk, hev.grow hg⟩

theorem HasEvidence.grow {escrow tx : String} {out : SignedMultisigTx}
    (h : HasEvidence agent w escrow tx out) (hg : Grows w w') :
    HasEvidence agent w' escrow tx out := by
  obtain ⟨v, e, hash, signedHash, hv, he, hh, hs, hp, hp'⟩ := h
  exact ⟨v, e, hash, signedHash, hv, he, hh, hs, hp.grow hg, hp'.grow hg⟩

theorem FlowEvident.frame (h : FlowEvident agent w l i q g) (hg : Grows w w') {e : Event}
    (he : e.flow ≠ i) : FlowEvident agent w' (e :: l) i q g where
  running x hx := by
    rcases List.mem_cons.mp hx with rfl | hx
    · exact he rfl
    · exact h.running x hx
  wrote ev hev := by
    obtain ⟨row, hrow, hkey⟩ := h.wrote ev hev
    exact ⟨row, hg.signEvents row hrow, hkey⟩
  stored ev hev := by
    obtain ⟨row, hrow, hkey⟩ := h.stored ev hev
    obtain ⟨row', hrow', hkey'⟩ := hg.proofs row hrow
    exact ⟨row', hrow', hkey'.trans hkey⟩
  completes reqId op resp u hmem := by
    rcases List.mem_cons.mp hmem with rfl | hmem
    · exact absurd rfl he
    · exact h.completes reqId op resp u hmem
  cached reqId json hc := by
    obtain ⟨resp, hjson, hs⟩ := h.cached reqId json hc
    exact ⟨resp, hjson, hs.grow hg⟩

/-- A phase that no call leaves any more. -/
def Phase.final : Phase → Bool
  | .completed _ _ _ | .over => true
  | _ => false

theorem May.final {c : Call} (hmay : May agent g c) (hfinal : g.phase.final = true) :
    c.moves = false := by
  cases c with
  | startSignRequest reqId e op round h =>
    rw [show g.phase = .idle from hmay] at hfinal
    cases hfinal
  | consumeActionJti jti row =>
    rcases hmay.2 with h | ⟨reqId, h⟩ <;> rw [h] at hfinal <;> cases hfinal
  | abortSignRequest reqId =>
    rcases hmay with h | ⟨jti, h⟩ | h <;> rw [h] at hfinal <;> cases hfinal
  | completeSignRequestWithResult reqId op resp =>
    rcases hmay with ⟨a, tx, out, h, -⟩ | h <;> rw [h] at hfinal <;> cases hfinal
  | signMultisig on tx =>
    cases on with
    | none => exact hmay.elim
    | some a => rw [hmay.phase] at hfinal; cases hfinal
  | submitMultisig on tx =>
    cases on with
    | none => exact hmay.elim
    | some a => rw [hmay.1.phase] at hfinal; cases hfinal
  | _ => rfl

theorem FlowEvident.completes_next (h : FlowEvident agent w l i q g) {c : Call}
    {r : Except String c.Out} (hmay : May agent g c) {reqId op : String}
    {resp : SignRequestCachedResult} {u : Unit}
    (hmem : .did i q (.completeSignRequestWithResult reqId op resp) (.ok u)
      ∈ (.did i q c r :: l : List Event)) :
    (g.next c r).phase = .over ∨ ∃ a tx out, (g.next c r).phase = .completed a tx out
      ∧ reqId = a.reqId ∧ resp = signCachedResult out := by
  rcases List.mem_cons.mp hmem with heq | hmem
  · cases heq
    rcases hmay with ⟨a, tx, out, hphase, rfl, -, rfl⟩ | hphase
    · exact .inr ⟨a, tx, out, by simp only [Ghost.next, hphase, Phase.complete], rfl, rfl⟩
    · exact .inl (by simp only [Ghost.next, hphase, Phase.complete])
  · have hcompl := h.completes reqId op resp u hmem
    have hfinal : g.phase.final = true := by
      rcases hcompl with h | ⟨a, tx, out, h, -⟩ <;> rw [h] <;> rfl
    rw [next_phase (hmay.final hfinal)]
    exact hcompl

theorem next_wrote (g : Ghost) (c : Call) (r : Except String c.Out) :
    (g.next c r).wrote = g.wrote ∨ ∃ ev, c = .recordSignEvent ev ∧ r.isOk = true
      ∧ (g.next c r).wrote = g.wrote ++ [ev] := by
  cases c with
  | recordSignEvent ev =>
    cases r with
    | error e => exact .inl rfl
    | ok u => exact .inr ⟨ev, rfl, rfl, rfl⟩
  | signMultisig on tx => cases on <;> cases r <;> exact .inl rfl
  | submitMultisig on tx => cases on <;> cases r <;> exact .inl rfl
  | _ => rcases r with _ | _ | _ <;> exact .inl rfl

theorem next_stored (g : Ghost) (c : Call) (r : Except String c.Out) :
    (g.next c r).stored = g.stored ∨ ∃ e role round h jti reqId,
      c = .quorumProofSet e role round h jti reqId ∧ r.isOk = true
      ∧ (g.next c r).stored = g.stored ++ [⟨⟨e, role, round, h⟩, jti, reqId⟩] := by
  cases c with
  | quorumProofSet e role round h jti reqId =>
    cases r with
    | error err =>
      refine .inl ?_
      simp [Ghost.stored, Ghost.next, Except.isOk, Except.toBool]
    | ok u =>
      refine .inr ⟨e, role, round, h, jti, reqId, rfl, rfl, ?_⟩
      simp [Ghost.stored, Ghost.next, Except.isOk, Except.toBool]
  | signMultisig on tx => cases on <;> cases r <;> exact .inl rfl
  | submitMultisig on tx => cases on <;> cases r <;> exact .inl rfl
  | _ => rcases r with _ | _ | _ <;> exact .inl rfl

/-- What is needed to speak of rows of evidence: digests and the invariants so far. -/
structure Setting (agent : SignerAgent) (v : ActionTokenVerifier) (w : World) (l : List Event)
    (G : Nat → Option (Request × Ghost)) : Prop where
  verifier : agent.verifier = some v
  digest : DigestLike agent.crypto.sha256Hex
  safe : LeaseSafe w l G
  accounted : Accounted agent [] w l G
  queue : ∀ e ∈ l, e.request.queueId = none

variable {v : ActionTokenVerifier} {G : Nat → Option (Request × Ghost)} {c : Call}
  {r : Except String c.Out}

/-- A flow that completed its request did so with an authority that can be relied on. -/
theorem Setting.known (hset : Setting agent v w l G) (hG : G i = some (q, g)) {a : Authority}
    {tx : String} {out : SignedMultisigTx} (hphase : g.phase = .completed a tx out) :
    Known agent a ∧ SignedIn agent l a tx out := by
  have hsigned := (hset.accounted.flows i q g hG).signed a tx out (.inr hphase)
  exact ⟨hsigned.known hset.queue, hsigned⟩

/-- **Recording a row leaves one with its key.** -/
theorem Setting.recorded (hset : Setting agent v w l G) (hG : G i = some (q, g)) {ev : SignEvent}
    (hmay : May agent g (.recordSignEvent ev)) :
    ∃ row ∈ (w.db.recordSignEvent ev).signEvents, row.key = ev.key := by
  obtain ⟨a, tx, out, hphase, hof⟩ := hmay
  obtain ⟨hknown, hsigned⟩ := hset.known hG hphase
  unfold SignerDb.recordSignEvent
  split
  · -- the row is ignored; the one in its way has its key
    rename_i hclash
    obtain ⟨old, hold, hc⟩ := hclash
    rcases hset.accounted.rows old hold with hnone | ⟨a', tx', out', hsigned', hof'⟩
    · cases hnone
    · refine ⟨old, hold, ?_⟩
      exact clash_key hset.digest hset.verifier (hsigned'.known hset.queue) hknown hof' hof
        (authority_unique hset.safe hsigned' hsigned) hc
  · exact ⟨ev, List.mem_append_right _ (List.mem_singleton.mpr rfl), rfl⟩

theorem FlowEvident.wrote_next (h : FlowEvident agent w l i q g) (hset : Setting agent v w l G)
    (hG : G i = some (q, g)) (hmay : May agent g c) (hexec : exec w c r w') :
    ∀ ev ∈ (g.next c r).wrote, ∃ row ∈ w'.db.signEvents, row.key = ev.key := by
  have hold : ∀ ev ∈ g.wrote, ∃ row ∈ w'.db.signEvents, row.key = ev.key := by
    intro ev hev
    obtain ⟨row, hrow, hkey⟩ := h.wrote ev hev
    exact ⟨row, (exec_grows hexec).signEvents row hrow, hkey⟩
  rcases next_wrote g c r with hsame | ⟨ev', rfl, hok, hadded⟩
  · rwa [hsame]
  · rw [hadded, List.forall_mem_append, List.forall_mem_singleton]
    refine ⟨hold, ?_⟩
    cases exec_effect hexec with
    | frame hc _ => cases hc
    | nothing e => cases hok
    | recorded => exact hset.recorded hG hmay

/-- **The orchestrator stores a row under the key it was handed.** -/
theorem Setting.stored (hset : Setting agent v w l G) (hG : G i = some (q, g))
    {e role round h jti reqId : String}
    (hmay : May agent g (.quorumProofSet e role round h jti reqId))
    {row : Orchestrator.QuorumSignProof}
    (hrow : w.orch.checkProof e role round h jti reqId = .ok row) :
    row.key = ⟨e, role, round, h⟩ := by
  obtain ⟨a, tx, out, ev, hphase, hof, hnorm⟩ := hmay
  obtain ⟨hknown, -⟩ := hset.known hG hphase
  obtain ⟨hkey, -, -, -⟩ := hof.names hset.digest hset.verifier hknown
  have hsame := normalizeForStore_ok hkey hnorm
  injection hsame with hsame
  simp only [Orchestrator.OrchestratorDb.checkProof, Check.bind_eq_ok, Check.pure_eq_ok] at hrow
  obtain ⟨row', hproof, -, -, -, -, rfl⟩ := hrow
  have hnormal : NormalKey v.signerRole ⟨e, role, round, h⟩ := hsame ▸ hkey
  rw [@normalizeProof_ok _ ⟨⟨e, role, round, h⟩, jti, reqId⟩ _ hnormal hproof]

theorem FlowEvident.stored_next (h : FlowEvident agent w l i q g) (hset : Setting agent v w l G)
    (hG : G i = some (q, g)) (hmay : May agent g c) (hexec : exec w c r w') :
    ∀ ev ∈ (g.next c r).stored, ∃ row ∈ w'.orch.proofs, row.key = ev.key := by
  have hold : ∀ ev ∈ g.stored, ∃ row ∈ w'.orch.proofs, row.key = ev.key := by
    intro ev hev
    obtain ⟨row, hrow, hkey⟩ := h.stored ev hev
    obtain ⟨row', hrow', hkey'⟩ := (exec_grows hexec).proofs row hrow
    exact ⟨row', hrow', hkey'.trans hkey⟩
  rcases next_stored g c r with hsame | ⟨e, role, round, h, jti, reqId, rfl, hok, hadded⟩
  · rwa [hsame]
  · rw [hadded, List.forall_mem_append, List.forall_mem_singleton]
    refine ⟨hold, ?_⟩
    cases exec_effect hexec with
    | frame hc _ => cases hc
    | nothing e => cases hok
    | stored hrow =>
      rename_i row
      exact ⟨row, List.mem_append_right _ (List.mem_singleton.mpr rfl), hset.stored hG hmay hrow⟩

theorem exec_results (hexec : exec w c r w') {reqId : String} {row : SignRequestResult}
    (h : w.db.results reqId = some row) : w'.db.results reqId = some row := by
  cases exec_effect hexec with
  | frame _ hb => rw [hb.results, h]
  | completed hrow hstatus hnew =>
    rename_i reqId' _ _ _
    have hne : reqId ≠ reqId' := by
      rintro rfl
      rw [hnew] at h
      cases h
    simp only [Function.update_of_ne hne, h]
  | aborted =>
    unfold SignerDb.abortSignRequest
    split
    · split <;> exact h
    · exact h
  | recorded =>
    unfold SignerDb.recordSignEvent
    split <;> exact h
  | _ => exact h

theorem results_new {reqId op : String} {resp : SignRequestCachedResult} {u : Unit}
    (hexec : exec w (.completeSignRequestWithResult reqId op resp) (.ok u) w') :
    w'.db.results reqId = some ⟨op, .encoded resp⟩ := by
  cases exec_effect hexec with
  | frame hc _ => cases hc
  | completed hrow hstatus hnew => simp only [Function.update_self]

theorem exec_consumed (hexec : exec w c r w') {jti : String} {row : ConsumedJti}
    (h : w.db.consumed jti = some row) : w'.db.consumed jti = some row := by
  cases exec_effect hexec with
  | frame _ hb => rw [hb.consumed, h]
  | consumed hnew =>
    dsimp only
    rw [Function.update_of_ne, h]
    rintro rfl
    simp [h] at hnew
  | aborted =>
    unfold SignerDb.abortSignRequest
    (repeat' split) <;> exact h
  | recorded =>
    unfold SignerDb.recordSignEvent
    split <;> exact h
  | _ => exact h

/-- What the log says was written is there, and evidence is only added. -/
structure Remembers (old : List SignEvent) (w : World) (l : List Event) : Prop where
  signEvents : old <+: w.db.signEvents
  consumed : ∀ {i q jti row u}, .did i q (.consumeActionJti jti row) (.ok u) ∈ l →
    w.db.consumed jti = some row
  results : ∀ {i q reqId op resp u},
    .did i q (.completeSignRequestWithResult reqId op resp) (.ok u) ∈ l →
    w.db.results reqId = some ⟨op, .encoded resp⟩

theorem Remembers.did {old : List SignEvent} (h : Remembers old w l) (hexec : exec w c r w') :
    Remembers old w' (.did i q c r :: l) where
  signEvents := by
    rcases (exec_effect hexec).signEvents with hsame | ⟨ev, -, hadded⟩
    · exact hsame ▸ h.signEvents
    · exact hadded ▸ h.signEvents.trans (List.prefix_append _ _)
  consumed hmem := by
    rcases List.mem_cons.mp hmem with heq | hold
    · cases heq
      cases exec_effect hexec with
      | frame hc _ => cases hc
      | consumed hnew => simp only [Function.update_self]
    · exact exec_consumed hexec (h.consumed hold)
  results hmem := by
    rcases List.mem_cons.mp hmem with heq | hold
    · cases heq
      exact results_new hexec
    · exact exec_results hexec (h.results hold)

theorem next_cached (g : Ghost) (c : Call) (r : Except String c.Out) :
    (g.next c r).cached = g.cached ∨ ∃ reqId, c = .getSignRequestResult reqId := by
  cases c with
  | getSignRequestResult reqId => exact .inr ⟨reqId, rfl⟩
  | signMultisig on tx => cases on <;> cases r <;> exact .inl rfl
  | submitMultisig on tx => cases on <;> cases r <;> exact .inl rfl
  | _ => rcases r with _ | _ | _ <;> exact .inl rfl

theorem Evident.cached_next (h : Evident agent w l G) (hG : G i = some (q, g))
    (hexec : exec w c r w') (hok : AnswersSettled w l (.did i q c r)) :
    ∀ reqId json, (g.next c r).cached = some (reqId, json) →
      ∃ resp, json = .encoded resp ∧ Settled agent w' reqId resp := by
  intro reqId json hcached
  have hold : g.cached = some (reqId, json) →
      ∃ resp, json = .encoded resp ∧ Settled agent w' reqId resp := by
    intro hcached
    obtain ⟨resp, hjson, hs⟩ := (h.flows i q g hG).cached reqId json hcached
    exact ⟨resp, hjson, hs.grow (exec_grows hexec)⟩
  rcases next_cached g c r with hsame | ⟨reqId', rfl⟩
  · exact hold (hsame ▸ hcached)
  · rcases r with e | _ | json'
    · exact hold hcached
    · exact hold hcached
    · -- the answer that is read was stored by a call that has returned
      cases hcached
      obtain ⟨j, q', op, resp, u, x, hdid, hdone⟩ := settledBy_iff.mp hok
      have hs := h.settled j q' reqId op resp u x hdid hdone
      have hserve := exec_ok hexec (by simp [World.serve, World.read])
      simp only [World.serve, World.read, Option.some.injEq, Prod.mk.injEq, Except.ok.injEq,
        h.results j q' reqId op resp u hdid, Option.map_some] at hserve
      exact ⟨resp, hserve.1.symm, hs.grow (exec_grows hexec)⟩

/-- **One event more.** What has to be known of it for the rest to stay true. -/
theorem Evident.push (h : Evident agent w l G) (e : Event) (hg : Grows w w') (hflow : e.flow = i)
    (hsign : e.request.isSign = true) {x : Option (Request × Ghost)}
    (hx : ∀ q g, x = some (q, g) → q.isSign = true ∧ FlowEvident agent w' (e :: l) i q g)
    (hkept : ∀ reqId row, w.db.results reqId = some row → w'.db.results reqId = some row)
    (hdid : ∀ q reqId op resp u,
      e = .did i q (.completeSignRequestWithResult reqId op resp) (.ok u) →
      w'.db.results reqId = some ⟨op, .encoded resp⟩ ∧ ∀ x, .done i q x ∉ l)
    (hdone : ∀ q y, e = .done i q (.ok y) → ∀ reqId op resp u,
      .did i q (.completeSignRequestWithResult reqId op resp) (.ok u) ∈ l →
      Settled agent w' reqId resp)
    (hans : ∀ escrow action tx token out,
      e = .done i (.sign escrow action tx token) (.ok (.signed out)) →
      HasEvidence agent w' escrow tx out) :
    Evident agent w' (e :: l) (Function.update G i x) where
  signs e' he' := by
    rcases List.mem_cons.mp he' with rfl | he'
    · exact hsign
    · exact h.signs e' he'
  requests j q' g' hj := by
    by_cases hji : j = i
    · subst hji
      rw [Function.update_self] at hj
      exact (hx q' g' hj).1
    · rw [Function.update_of_ne hji] at hj
      exact h.requests j q' g' hj
  flows j q' g' hj := by
    by_cases hji : j = i
    · subst hji
      rw [Function.update_self] at hj
      exact (hx q' g' hj).2
    · rw [Function.update_of_ne hji] at hj
      exact (h.flows j q' g' hj).frame hg (hflow ▸ Ne.symm hji)
  results j q' reqId op resp u hmem := by
    rcases List.mem_cons.mp hmem with rfl | hmem
    · cases hflow
      exact (hdid q' reqId op resp u rfl).1
    · exact hkept _ _ (h.results j q' reqId op resp u hmem)
  settled j q' reqId op resp u y hmem hmem' := by
    rcases List.mem_cons.mp hmem with rfl | hold
    · -- a flow that has just completed its request has not returned
      cases hflow
      rcases List.mem_cons.mp hmem' with heq | hold'
      · cases heq
      · exact absurd hold' ((hdid q' reqId op resp u rfl).2 _)
    · rcases List.mem_cons.mp hmem' with rfl | hold'
      · cases hflow
        exact hdone q' y rfl reqId op resp u hold
      · exact (h.settled j q' reqId op resp u y hold hold').grow hg
  answered j escrow action tx token out hmem := by
    rcases List.mem_cons.mp hmem with rfl | hmem
    · cases hflow
      exact hans escrow action tx token out rfl
    · exact (h.answered j escrow action tx token out hmem).grow hg

theorem Evident.did (h : Evident agent w l G) (hset : Setting agent v w l G)
    (hG : G i = some (q, g)) (hmay : May agent g c) (hexec : exec w c r w')
    (hok : AnswersSettled w l (.did i q c r)) :
    Evident agent w' (.did i q c r :: l) (Function.update G i (some (q, g.next c r))) := by
  have hflow := h.flows i q g hG
  refine h.push (.did i q c r) (exec_grows hexec) rfl (h.requests i q g hG) ?_
    (fun _ _ => exec_results hexec) ?_ (by rintro _ _ ⟨⟩) (by rintro _ _ _ _ _ ⟨⟩)
  · rintro _ _ ⟨⟩
    refine ⟨h.requests i q g hG, ?_, hflow.wrote_next hset hG hmay hexec,
      hflow.stored_next hset hG hmay hexec,
      fun reqId op resp u hmem => hflow.completes_next hmay hmem, h.cached_next hG hexec hok⟩
    intro x hx
    rcases List.mem_cons.mp hx with hx | hx
    · cases hx
    · exact hflow.running x hx
  · rintro _ reqId op resp u ⟨⟩
    exact ⟨results_new hexec, hflow.running⟩

/-! ## 5. Returning -/

theorem Stores.row (hon : agent.proofStore = true) (hreq : agent.proofStoreRequired = true)
    {ev : SignEvent} {before after : List (SignEvent × Bool)} (h : Stores agent ev before after) :
    ∃ row, normalizeForStore ev = .ok row ∧ after = before ++ [(row, true)] := by
  cases h with
  | off hoff => rw [hon] at hoff; cases hoff
  | malformed _ _ hoff => rw [hreq] at hoff; cases hoff
  | offered _ hrow hok =>
    rcases hok with rfl | hoff
    · exact ⟨_, hrow, rfl⟩
    · rw [hreq] at hoff; cases hoff

theorem FlowEvident.evidenced (h : FlowEvident agent w l i q g)
    (hd : DigestLike agent.crypto.sha256Hex) (hv : agent.verifier = some v)
    (hon : agent.proofStore = true) (hreq : agent.proofStoreRequired = true) {a : Authority}
    {tx : String} {g₀ : Ghost} {out : SignedMultisigTx} (hk : Known agent a)
    (hev : Evidenced agent (Stores agent) a tx g₀ out g) : FullyEvidenced agent w a out := by
  obtain ⟨hash, mid, after, hhash, hmid, hafter, rfl⟩ := hev
  obtain ⟨row, hrow, rfl⟩ := hmid.row hon hreq
  obtain ⟨row', hrow', rfl⟩ := hafter.row hon hreq
  have hof : EvidenceOf agent a out (artifactEvent agent.crypto a hash) := .inr ⟨hash, hhash, rfl⟩
  have hkey : row.key = (requestedEvent a).key := by
    rw [normalizeForStore_ok (hk.normalKey hd hv) hrow]
  have hkey' : row'.key = (artifactEvent agent.crypto a hash).key := by
    rw [normalizeForStore_ok (hof.names hd hv hk).1 hrow']
  refine ⟨⟨h.wrote _ (by simp), ?_⟩, hash, hhash, h.wrote _ (by simp), ?_⟩
  · exact hkey ▸ h.stored row (by simp [Ghost.stored])
  · exact hkey' ▸ h.stored row' (by simp [Ghost.stored])

/-- A flow that was answered from the request's stored answer finds its evidence there. -/
theorem FlowEvident.replayed (h : FlowEvident agent w l i q g)
    (hd : DigestLike agent.crypto.sha256Hex) (hv : agent.verifier = some v) {a : Authority}
    {op : String} {g₀ : Ghost} {out : SignedMultisigTx} (hk : Known agent a)
    (hr : Replayed a op parseCachedSignResult g₀ out g) : FullyEvidenced agent w a out := by
  obtain ⟨_, json, hparse, rfl⟩ := hr
  obtain ⟨resp, rfl, a', out', hreq, rfl, hk', hfull⟩ := h.cached a.reqId json rfl
  have hout : out = out' := by
    simp only [parseCachedSignResult, Json.fromStr, signCachedResult, Check.bind_eq_ok,
      Check.failIf_eq_ok, Check.okOr_eq_ok, Check.pure_eq_ok, Check.exists_unit, Except.ok.injEq,
      exists_eq_left', Option.some.injEq] at hparse
    exact hparse.2.2.symm
  have hkey : a'.key = a.key := hk'.same hd hv hk hreq
  obtain ⟨hpreq, hash, hhash, hpart⟩ := hfull
  subst hout
  refine ⟨?_, hash, hhash, ?_⟩
  · show Present w a.key
    exact hkey ▸ hpreq
  · simp only [artifactEvent, hkey] at hpart ⊢
    exact hpart

theorem SignPost.known {escrow tx : String} {g₀ : Ghost} {out : SignedMultisigTx}
    (h : SignPost agent escrow tx g₀ out g) (hidle : g₀.phase = .idle) :
    ∃ a, Known agent a ∧ normalizeHexExact escrow 32 "escrow_id_hex" = .ok a.escrowIdHex
      ∧ txsetSha256Hex agent.crypto tx = .ok a.txsetHashHex
      ∧ ((∃ tx' g₁, g.phase = .completed a tx' out ∧ Evidenced agent (Stores agent) a tx' g₁ out g)
        ∨ ∃ g₁, g.phase = .idle ∧ Replayed a "sign_multisig" parseCachedSignResult g₁ out g) := by
  obtain ⟨job, g₁, a, hprep, hfor, hgranted, hae, hah, hend⟩ := h
  have hhash : txsetSha256Hex agent.crypto job.txDataHex = .ok a.txsetHashHex := hah ▸ hprep.hash
  refine ⟨a, ⟨⟨_, hgranted⟩, hae ▸ normalizeHex_idem hfor.escrow, _, hhash⟩, hae ▸ hfor.escrow,
    txsetSha256Hex_of_valid hfor.txData hhash, ?_⟩
  rcases hend with hev | hr
  · refine .inl ⟨job.txDataHex, _, ?_, hev⟩
    obtain ⟨_, _, _, _, _, _, rfl⟩ := hev
    rfl
  · refine .inr ⟨g₁, ?_, hr⟩
    obtain ⟨_, _, -, rfl⟩ := hr
    obtain ⟨_, _, rfl⟩ := hprep.same
    exact hidle

theorem FullyEvidenced.hasEvidence (hd : DigestLike agent.crypto.sha256Hex)
    (hv : agent.verifier = some v) {a : Authority} {out : SignedMultisigTx} {escrow tx : String}
    (hk : Known agent a) (hfull : FullyEvidenced agent w a out)
    (he : normalizeHexExact escrow 32 "escrow_id_hex" = .ok a.escrowIdHex)
    (hh : txsetSha256Hex agent.crypto tx = .ok a.txsetHashHex) :
    HasEvidence agent w escrow tx out := by
  obtain ⟨hreq, hash, hhash, hart⟩ := hfull
  have hn := hk.normalKey hd hv
  have hrole : a.claims.role = roleKey v.signerRole := hn.role
  have hround : a.claims.signRound = expectedSignRound v.signerRole := hn.round
  refine ⟨v, a.escrowIdHex, a.txsetHashHex, hash, hv, he, hh, hhash, ?_, ?_⟩
  · rw [← hrole, ← hround]
    exact hreq
  · rw [← hrole, ← hround]
    exact hart

theorem Evident.returned (h : Evident agent w l G) (hset : Setting agent v w l G)
    (hon : agent.proofStore = true) (hreq : agent.proofStoreRequired = true)
    (hG : G i = some (q, g)) {escrow tx : String} {out : SignedMultisigTx}
    (hpost : SignPost agent escrow tx q.ghost out g) :
    ∃ a, Known agent a ∧ FullyEvidenced agent w a out
      ∧ normalizeHexExact escrow 32 "escrow_id_hex" = .ok a.escrowIdHex
      ∧ txsetSha256Hex agent.crypto tx = .ok a.txsetHashHex
      ∧ ((∃ tx', g.phase = .completed a tx' out) ∨ g.phase = .idle) := by
  obtain ⟨a, hk, he, hh, ⟨tx', g₁, hphase, hev⟩ | ⟨g₁, hphase, hr⟩⟩ := hpost.known rfl
  · have hfull := (h.flows i q g hG).evidenced hset.digest hset.verifier hon hreq hk hev
    exact ⟨a, hk, hfull, he, hh, .inl ⟨tx', hphase⟩⟩
  · have hfull := (h.flows i q g hG).replayed hset.digest hset.verifier hk hr
    exact ⟨a, hk, hfull, he, hh, .inr hphase⟩

theorem Evident.done (h : Evident agent w l G) (hset : Setting agent v w l G)
    (hon : agent.proofStore = true) (hreq : agent.proofStoreRequired = true)
    (hG : G i = some (q, g)) {x : Except String Reply} (hpost : q.Post agent x g) :
    Evident agent w (.done i q x :: l) (Function.update G i none) := by
  have hsign := h.requests i q g hG
  -- what it means that the flow returned an answer
  have hret : ∀ escrow action tx token y, q = .sign escrow action tx token → x = .ok y →
      ∃ a out, y = .signed out ∧ Known agent a ∧ FullyEvidenced agent w a out
        ∧ HasEvidence agent w escrow tx out
        ∧ ((∃ tx', g.phase = .completed a tx' out) ∨ g.phase = .idle) := by
    rintro escrow action tx token y rfl rfl
    cases y with
    | signed out =>
      obtain ⟨a, hk, hfull, he, hh, hphase⟩ := h.returned hset hon hreq hG (hpost _ rfl)
      have hhas := hfull.hasEvidence hset.digest hset.verifier hk he hh
      exact ⟨a, out, rfl, hk, hfull, hhas, hphase⟩
    | submitted hashes => exact (hpost _ rfl).elim
    | decided => exact (hpost _ rfl).elim
  refine h.push (.done i q x) .rfl rfl hsign (by rintro _ _ ⟨⟩) (fun _ _ => id)
    (by rintro _ _ _ _ _ ⟨⟩) ?_ ?_
  · rintro _ y ⟨⟩ reqId op resp u hmem
    cases q with
    | sign escrow action tx token =>
      obtain ⟨a, out, -, hk, hfull, -, hphase⟩ := hret escrow action tx token y rfl rfl
      -- the request this flow completed is the one it has just returned for
      rcases (h.flows i _ g hG).completes reqId op resp u hmem with
        hover | ⟨a', tx', out', hcompleted, rfl, rfl⟩
      · rcases hphase with ⟨tx'', hp⟩ | hp <;> rw [hp] at hover <;> cases hover
      · rcases hphase with ⟨tx'', hp⟩ | hp <;> rw [hp] at hcompleted <;> cases hcompleted
        exact ⟨a, out, rfl, rfl, hk, hfull⟩
    | submit escrow action tx token => cases hsign
    | approve id token => cases hsign
    | reject id reason => cases hsign
  · rintro escrow action tx token out ⟨⟩
    obtain ⟨a, out', hout, -, -, hhas, -⟩ := hret escrow action tx token _ rfl rfl
    cases hout
    exact hhas

end

/-! ## 6. Whole runs -/

section
variable {agent : SignerAgent}

theorem evident_kept {v : ActionTokenVerifier} (hv : agent.verifier = some v)
    (hd : DigestLike agent.crypto.sha256Hex) (hon : agent.proofStore = true)
    (hreq : agent.proofStoreRequired = true) :
    Kept agent AnswersSettled (fun w l G => LeaseSafe w l G ∧ Accounted agent [] w l G)
      (Evident agent) := by
  have hset : ∀ {w l G}, LeaseSafe w l G ∧ Accounted agent [] w l G → Evident agent w l G →
      Setting agent v w l G := by
    rintro w l G ⟨hs, hacc⟩ h
    refine ⟨hv, hd, hs, hacc, fun e he => ?_⟩
    have hsign := h.signs e he
    cases hq : e.request with
    | sign escrow action tx token => rfl
    | submit escrow action tx token => rw [hq] at hsign; cases hsign
    | approve id token => rw [hq] at hsign; cases hsign
    | reject id reason => rw [hq] at hsign; cases hsign
  refine ⟨?_, fun hb h hG hmay hexec hok => h.did (hset hb h) hG hmay hexec hok,
    fun hb h hG hpost _ => h.done (hset hb h) hon hreq hG hpost, ?_, ?_⟩
  · intro w l G i q _ h _ hnew hok
    refine h.push (.start i q) .rfl rfl hok ?_ (fun _ _ => id) (by rintro _ _ _ _ _ ⟨⟩)
      (by rintro _ _ ⟨⟩) (by rintro _ _ _ _ _ ⟨⟩)
    rintro _ _ ⟨⟩
    refine ⟨hok, ?_, by rintro _ ⟨⟩, by rintro _ ⟨⟩, ?_, by rintro _ _ ⟨⟩⟩
    · intro x hx
      rcases List.mem_cons.mp hx with hx | hx
      · cases hx
      · exact hnew _ hx rfl
    · intro reqId op resp u hmem
      rcases List.mem_cons.mp hmem with hmem | hmem
      · cases hmem
      · exact absurd rfl (hnew _ hmem)
  · intro w l G i q g _ h hG
    exact h.push (.crash i q) .rfl rfl (h.requests i q g hG) (by rintro _ _ ⟨⟩) (fun _ _ => id)
      (by rintro _ _ _ _ _ ⟨⟩) (by rintro _ _ ⟨⟩) (by rintro _ _ _ _ _ ⟨⟩)
  · intro w l G w' _ h hext
    refine ⟨h.signs, h.requests, fun j q g hj => ?_, fun j q reqId op resp u hmem => ?_, ?_, ?_⟩
    · have hf := h.flows j q g hj
      refine ⟨hf.running, fun ev hev => ?_, fun ev hev => ?_, hf.completes, fun reqId json hc => ?_⟩
      · obtain ⟨row, hrow, hkey⟩ := hf.wrote ev hev
        exact ⟨row, hext.grows.signEvents row hrow, hkey⟩
      · obtain ⟨row, hrow, hkey⟩ := hf.stored ev hev
        obtain ⟨row', hrow', hkey'⟩ := hext.grows.proofs row hrow
        exact ⟨row', hrow', hkey'.trans hkey⟩
      · obtain ⟨resp, hjson, hs⟩ := hf.cached reqId json hc
        exact ⟨resp, hjson, hs.grow hext.grows⟩
    · rw [hext.results]
      exact h.results j q reqId op resp u hmem
    · exact fun j q reqId op resp u y hmem hmem' =>
        (h.settled j q reqId op resp u y hmem hmem').grow hext.grows
    · exact fun j escrow action tx token out hmem =>
        (h.answered j escrow action tx token out hmem).grow hext.grows

/-- **Every answer has its evidence**, in every run of signing calls in which a stored answer is
    read only when the call that stored it has returned `Ok`: whatever fails, and however the
    calls are interleaved, a call that returned `Ok` has left a row for what it was asked to sign
    and a row for what it returned, here and at the orchestrator. -/
theorem answers_have_evidence (hv : agent.verifier ≠ none)
    (hd : DigestLike agent.crypto.sha256Hex) (hon : agent.proofStore = true)
    (hreq : agent.proofStoreRequired = true) {w₀ : World} (hempty : w₀.db.signEvents = [])
    {p : Pool World Request Call Call.Out String Reply}
    (hrun : Pool.Run (node agent) AnswersSettled w₀ p) {i : Nat} {escrow tx : String}
    {action : EscrowAction} {token : Option String} {out : SignedMultisigTx}
    (hdone : .done i (.sign escrow action tx token) (.ok (.signed out)) ∈ p.log) :
    HasEvidence agent p.state escrow tx out := by
  obtain ⟨v, hver⟩ := Option.ne_none_iff_exists'.mp hv
  have hbase := (safe_kept agent AnswersSettled).and
    (Kept.weaken (accounted_kept agent AnswersSettled []))
  obtain ⟨G, -, h⟩ := (hbase.and (evident_kept hver hd hon hreq)).run hv
    ⟨⟨safe_init w₀, hempty ▸ accounted_init w₀⟩, by
      constructor <;> intros <;> contradiction⟩ hrun
  exact h.answered i escrow action tx token out hdone

/-- A transaction set is signed; a second call is answered from the stored answer. -/
def signedThenReplayed : List (Act Request Mode) :=
  [.start 0 (signReq "aa" "sign-a-1"), .calls 0 (List.replicate 15 .works), .close 0,
    .start 1 (signReq "aa" "sign-a-2"), .calls 1 (List.replicate 11 .works), .close 1]

/-- The newest event is an answer to this call. -/
def answeredLast (q : Request) (p : Pool World Request Call Call.Out String Reply) : Bool :=
  match p.log with
  | .done _ q' (.ok (.signed _)) :: _ => q' = q
  | _ => false

theorem answeredLast_mem {q : Request} {p : Pool World Request Call Call.Out String Reply}
    (h : answeredLast q p = true) : ∃ i out, .done i q (.ok (.signed out)) ∈ p.log := by
  unfold answeredLast at h
  split at h
  · rename_i i q' out rest hlog
    cases of_decide_eq_true h
    exact ⟨i, out, hlog ▸ List.mem_cons_self⟩
  · cases h

theorem answers_have_evidence_replayed :
    ∃ (p : Pool World Request Call Call.Out String Reply) (i : Nat) (out : SignedMultisigTx),
      .done i (signReq "aa" "sign-a-2") (.ok (.signed out)) ∈ p.log
      ∧ HasEvidence sampleAgent p.state sampleEscrow "aa" out := by
  have hplay : (rehearse answersSettled signedThenReplayed).any
      (answeredLast (signReq "aa" "sign-a-2")) = true := by
    decide +kernel
  obtain ⟨p, hrun, hp⟩ := rehearse_run hplay
  obtain ⟨i, out, hdone⟩ := answeredLast_mem hp
  exact ⟨p, i, out, hdone,
    answers_have_evidence (Option.some_ne_none _) sampleDigest rfl rfl rfl hrun hdone⟩

/-- The first call fails when it writes its first row of evidence, with the request completed. -/
def recordFails : List (Act Request Mode) :=
  [.start 0 (signReq "aa" "sign-a-1"), .calls 0 (List.replicate 11 .works ++ [.fails "disk full"]),
    .close 0, .start 1 (signReq "aa" "sign-a-2"), .calls 1 (List.replicate 11 .works), .close 1]

/-- **An answer without evidence.** The second call returns `Ok` from the stored answer, and there
    is no row of evidence anywhere. -/
theorem replayed_without_evidence :
    ∃ (p : Pool World Request Call Call.Out String Reply) (i : Nat) (out : SignedMultisigTx),
      (sampleAgent.proofStore = true ∧ sampleAgent.proofStoreRequired = true)
      ∧ Pool.Run (node sampleAgent) Pool.anyStep sampleWorld p
      ∧ (∀ e ∈ p.log, e.request.isSign = true)
      ∧ .done i (signReq "aa" "sign-a-2") (.ok (.signed out)) ∈ p.log
      ∧ p.state.db.signEvents = [] ∧ p.state.orch.proofs = []
      ∧ ¬ HasEvidence sampleAgent p.state sampleEscrow "aa" out := by
  have hplay : (rehearse freely recordFails).any (fun p =>
      p.log.all (·.request.isSign) && answeredLast (signReq "aa" "sign-a-2") p
        && decide (p.state.db.signEvents = [] ∧ p.state.orch.proofs = [])) = true := by
    decide +kernel
  obtain ⟨p, hrun, hp⟩ := rehearse_anyStep hplay
  simp only [Bool.and_eq_true, List.all_eq_true, decide_eq_true_eq] at hp
  obtain ⟨⟨hsign, hlast⟩, hrows, hproofs⟩ := hp
  obtain ⟨i, out, hdone⟩ := answeredLast_mem hlast
  refine ⟨p, i, out, ⟨rfl, rfl⟩, hrun, hsign, hdone, hrows, hproofs, ?_⟩
  rintro ⟨_, _, _, _, -, -, -, -, ⟨⟨row, hrow, -⟩, -⟩, -⟩
  rw [hrows] at hrow
  cases hrow

/-- **What a node has written it keeps**, whatever else runs, fails or crashes: a used token stays
    used, a stored answer stays as it is, and no row of evidence is changed or removed. -/
theorem records_survive {ok : World → List Event → Event → Prop} {w₀ : World}
    {p : Pool World Request Call Call.Out String Reply} (hrun : Pool.Run (node agent) ok w₀ p) :
    Remembers w₀.db.signEvents p.state p.log := by
  refine hrun.world ⟨List.prefix_rfl, by simp, by simp⟩ (fun _ _ _ _ _ _ _ h hx _ => h.did hx)
    ?_ ?_
  · intro w l e h hrest
    exact ⟨h.signEvents, fun hmem => h.consumed (List.mem_of_ne_of_mem (hrest _ _ _ _).symm hmem),
      fun hmem => h.results (List.mem_of_ne_of_mem (hrest _ _ _ _).symm hmem)⟩
  · intro w l w' h hext
    exact ⟨hext.signEvents ▸ h.signEvents, hext.consumed ▸ h.consumed, hext.results ▸ h.results⟩

theorem records_survive_replayed : ∃ p : Pool World Request Call Call.Out String Reply,
    p.state.db.signEvents.length = 2 ∧ Remembers [] p.state p.log := by
  have hplay : (rehearse freely signedThenReplayed).any
      (fun p => decide (p.state.db.signEvents.length = 2)) = true := by
    decide +kernel
  obtain ⟨p, hrun, hp⟩ := rehearse_anyStep hplay
  exact ⟨p, of_decide_eq_true hp, records_survive hrun⟩

end

end Nexum.Signer
