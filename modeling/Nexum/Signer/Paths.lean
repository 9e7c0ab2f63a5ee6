import Nexum.Signer.Agreement

/-!
# Two ways to a signature

A transaction set is signed through the worker interface (`sign_multisig_flow`) or by approving a
queued request (`approve_pending`). Both were written to leave the same traces, and in the signer's
own tables they do: the same request, the same answer, the same token id, the same two rows of
evidence. **Approving never hands a proof to the orchestrator**, though, so what was approved has
no proof there, and no bundle for submitting it can be built (`approved_without_proof`).

`approve_same_iff` says exactly when the two ways come to the same: the row is still pending, and
the orchestrator already has every proof it would have taken. Sending a staged approval again
consumes no token and never comes to the same.
-/

namespace Nexum.Signer

open Nexum.Lib
open Nexum.Transport
open Nexum.Orchestrator (ProofKey QuorumSignProof OrchestratorDb)

/-! ## 1. The same evidence -/

/-- What the two ways are to leave alike. -/
structure SameEvidence (w₁ w₂ : World) : Prop where
  signEvents : w₁.db.signEvents = w₂.db.signEvents
  requests : w₁.db.requests = w₂.db.requests
  results : w₁.db.results = w₂.db.results
  consumed : w₁.db.consumed = w₂.db.consumed
  proofs : ∀ key, w₁.orch.get key = w₂.orch.get key

theorem bundle_congr {db db' : OrchestratorDb} (hflows : db.workflows = db'.workflows)
    (hget : ∀ key, db.get key = db'.get key) (escrow hash : String) :
    db.getSubmitMultisigProofBundle escrow hash = db'.getSubmitMultisigProofBundle escrow hash := by
  simp only [OrchestratorDb.getSubmitMultisigProofBundle, OrchestratorDb.checkWorkflow, hflows,
    hget]

section
variable {agent : SignerAgent} {v : ActionTokenVerifier} {takes : ProofKey → Bool} {a : Authority}
  {out : SignedMultisigTx} {ev : SignEvent} {w w₁ w₂ : World}

/-- Every proof of this signature that the orchestrator would take is there already. -/
def AlreadyProven (agent : SignerAgent) (takes : ProofKey → Bool) (w : World) (a : Authority)
    (out : SignedMultisigTx) : Prop :=
  ∀ ev pr, EvidenceOf agent a out ev → storedProof agent takes ev = some pr →
    w.orch.get pr.key = some pr

theorem storedProof_key {role : SignerRole} (hnormal : NormalKey role ev.key)
    {pr : QuorumSignProof} (h : storedProof agent takes ev = some pr) : pr.key = ev.key := by
  unfold storedProof at h
  split at h
  · cases hrow : normalizeForStore ev with
    | error e => rw [hrow] at h; cases h
    | ok row =>
      have hkey : row.key = ev.key := by rw [normalizeForStore_ok hnormal hrow]
      simp only [hrow, Except.toOption, Option.bind_some] at h
      split at h
      · unfold proofOf at h
        cases hproof : OrchestratorDb.normalizeProof row.key.escrowIdHex row.key.role
          row.key.signRound row.key.txsetHashHex row.jti row.reqId with
        | error e => rw [hproof] at h; cases h
        | ok p =>
          rw [hproof] at h
          cases h
          rw [normalizeProof_ok (hkey ▸ hnormal) hproof, hkey]
      · cases h
  · cases h

/-- **What signing adds at the orchestrator is nothing new exactly if it is there already.** -/
theorem ProofsLeft.same_iff {hash : String} (hproofs : ProofsLeft agent takes a hash w w₂)
    (hret : txsetSha256Hex agent.crypto out.txDataHex = .ok hash)
    (hd : DigestLike agent.crypto.sha256Hex) (hv : agent.verifier = some v) (hk : Known agent a) :
    (∀ key, w₂.orch.get key = w.orch.get key) ↔ AlreadyProven agent takes w a out := by
  have hmem : ∀ pr, pr ∈ (storedProof agent takes (requestedEvent a)).toList
        ++ (storedProof agent takes (artifactEvent agent.crypto a hash)).toList
      ↔ ∃ ev, EvidenceOf agent a out ev ∧ storedProof agent takes ev = some pr := by
    intro pr
    simp only [List.mem_append, Option.mem_toList]
    constructor
    · rintro (h | h)
      · exact ⟨_, .inl rfl, h⟩
      · exact ⟨_, .inr ⟨hash, hret, rfl⟩, h⟩
    · rintro ⟨ev, rfl | ⟨hash', hret', rfl⟩, h⟩
      · exact .inl h
      · cases hret'.symm.trans hret
        exact .inr h
  rw [hproofs.orch, OrchestratorDb.foldl_put_eq_iff ?_]
  · constructor
    · intro h ev pr hev hpr
      exact h pr ((hmem pr).mpr ⟨ev, hev, hpr⟩)
    · intro h pr hpr
      obtain ⟨ev, hev, hstored⟩ := (hmem pr).mp hpr
      exact h ev pr hev hstored
  · intro p hp q hq hkey
    obtain ⟨ev, hev, hstored⟩ := (hmem p).mp hp
    obtain ⟨ev', hev', hstored'⟩ := (hmem q).mp hq
    have hsame : ev' = ev := by
      refine hev'.eq_of_key hd hv hk hev ?_
      rw [← storedProof_key (hev'.names hd hv hk).1 hstored',
        ← storedProof_key (hev.names hd hv hk).1 hstored, hkey]
    rw [hsame, hstored] at hstored'
    exact (Option.some.inj hstored').symm

/-! ## 2. Comparing the two -/

/-- The request, answer, token id and rows of evidence of a signature are determined by its
    authority and the wallet's answer. -/
theorem SignatureLeft.same {hash hash' : String} (h₁ : SignatureLeft agent a out hash w w₁)
    (h₂ : SignatureLeft agent a out hash' w w₂)
    (hproofs : ∀ key, w₁.orch.get key = w₂.orch.get key) :
    SameEvidence w₁ w₂ := by
  cases h₁.returned.symm.trans h₂.returned
  exact ⟨by rw [h₁.events, h₂.events], by rw [h₁.requests, h₂.requests],
    by rw [h₁.results, h₂.results], by rw [h₁.consumed, h₂.consumed], hproofs⟩

/-- **Approving a queued request comes to the same as signing it exactly if** the row is pending,
    not staged already, and the orchestrator already has every proof of the signature that it would
    take. In that case the bundles for submitting are the same as well. Both start in `w`, with the
    same token, the same bytes, the same wallet answer and the same willingness of the orchestrator;
    the action is whatever it is. -/
theorem approve_same_iff (hv : agent.verifier = some v) (hd : DigestLike agent.crypto.sha256Hex)
    {id : Int} {row : PendingTxSign} {token : Option String} {action : EscrowAction} {tx : String}
    {signed : SignedMultisigTx} (hrow : w.db.getPending id = some row)
    (hbytes : txsetBytes row.multisigTxsetHex = txsetBytes tx)
    (happrove : Runs (answering takes (· = out)) w (approvePending agent id token) (.ok ()) w₁)
    (hsign : Runs (answering takes (· = out)) w
      (signMultisigFlow agent row.escrowIdHex action tx token) (.ok signed) w₂) :
    (SameEvidence w₁ w₂ ↔ row.status = .pending
      ∧ ∀ a, CallAuthority agent row.escrowIdHex tx token a → AlreadyProven agent takes w a out)
    ∧ (SameEvidence w₁ w₂ → ∀ escrow hash, w₁.orch.getSubmitMultisigProofBundle escrow hash
      = w₂.orch.getSubmitMultisigProofBundle escrow hash) := by
  have hv' : agent.verifier ≠ none := hv ▸ Option.some_ne_none v
  obtain ⟨a, hgranted, hescrow, hhash, hend⟩ := sign_alone hv' hsign
  have hcall : CallAuthority agent row.escrowIdHex tx token a := ⟨hgranted, hescrow, hhash⟩
  rcases approve_alone hv' hrow happrove with
    ⟨hstatus, a', out', hash', hgranted', -, hhash', hsig', horch, rfl⟩ | ⟨hstatus, hconsumed⟩
  · -- the same token over the same bytes
    obtain ⟨bytes, hb, hdigest⟩ := txsetSha256Hex_ok hhash
    obtain ⟨bytes', hb', hdigest'⟩ := txsetSha256Hex_ok hhash'
    cases hb'.symm.trans (hbytes.trans hb)
    cases hgranted'.unique hgranted (hdigest'.trans hdigest.symm)
    rcases hend with ⟨hash, hsig, hproofs, rfl⟩ | hreplay
    · have hiff := hproofs.same_iff hsig.returned hd hv hcall.known
      refine ⟨⟨fun h => ⟨hstatus, fun a₁ ha₁ => ?_⟩, fun h => ?_⟩, fun h => ?_⟩
      · cases ha₁.granted.unique hgranted (Except.ok.inj (ha₁.hash.symm.trans hhash))
        refine hiff.mp fun key => ?_
        rw [← h.proofs key, horch]
      · refine hsig'.same hsig fun key => ?_
        rw [hiff.mpr (h.2 _ hcall) key, horch]
      · refine bundle_congr ?_ h.proofs
        rw [horch, hproofs.orch, OrchestratorDb.foldl_put_workflows]
    · exact absurd hsig'.requestNew hreplay.request
  · -- nothing was consumed, while signing consumes its token's id
    have hne : ¬ SameEvidence w₁ w₂ := by
      intro h
      have hsame := congrFun h.consumed a.jti
      rw [hconsumed] at hsame
      rcases hend with ⟨hash, hsig, -, -⟩ | hreplay
      · rw [hsig.consumed, Function.update_self, hsig.consumedNew] at hsame
        cases hsame
      · rw [hreplay.consumed, Function.update_self, hreplay.consumedNew] at hsame
        cases hsame
    refine ⟨⟨fun h => absurd h hne, fun h => ?_⟩, fun h => absurd h hne⟩
    rw [hstatus] at h
    exact absurd h.1 (by decide)

/-- A queued request for the first sample transaction set. -/
def samplePending : PendingTxSign where
  id := 1
  escrowIdHex := sampleEscrow
  fromId := "buyer"
  toId := "arbiter"
  seq := 1
  action := .encoded .release
  snapshotHashHex := digit64 '5'
  multisigTxsetHex := "aa"
  txsetHashHex := digit64 'a'
  status := .pending
  decisionReason := none

/-- The sample installation with that request, and these proofs at the orchestrator. -/
def pendingWorld (proofs : List QuorumSignProof) : World where
  db := { sampleWorld.db with pending := [samplePending], nextPendingId := 2 }
  orch := { sampleWorld.orch with proofs := proofs }

/-- What the wallet makes of the first sample transaction set. -/
def sampleSigned : SignedMultisigTx := ⟨"bb", ["txid"]⟩

/-- Approve the request and sign it, both from the same start; compare what is left. -/
def approveAndSign (proofs : List QuorumSignProof) (f : World → World → Bool) : Bool :=
  (rehearseAlone (· = sampleSigned) (approvePending sampleAgent 1 (some "sign-a-1"))
    (pendingWorld proofs)).any fun x => x.1.isOk &&
      (rehearseAlone (· = sampleSigned)
        (signMultisigFlow sampleAgent sampleEscrow .release "aa" (some "sign-a-1"))
        (pendingWorld proofs)).any fun y => y.1.toOption = some sampleSigned && f x.2 y.2

/-- Both ways, from one start. -/
structure BothWays (w w₁ w₂ : World) : Prop where
  approved : Runs (answering (fun _ => true) (· = sampleSigned)) w
    (approvePending sampleAgent 1 (some "sign-a-1")) (.ok ()) w₁
  signed : Runs (answering (fun _ => true) (· = sampleSigned)) w
    (signMultisigFlow sampleAgent sampleEscrow .release "aa" (some "sign-a-1"))
    (.ok sampleSigned) w₂

theorem approveAndSign_run {proofs : List QuorumSignProof} {f : World → World → Bool}
    (h : approveAndSign proofs f = true) :
    ∃ w₁ w₂, BothWays (pendingWorld proofs) w₁ w₂ ∧ f w₁ w₂ = true := by
  obtain ⟨x, w₁, hrun₁, h⟩ := rehearseAlone_run h
  simp only [Bool.and_eq_true] at h
  obtain ⟨hok, h⟩ := h
  obtain ⟨y, w₂, hrun₂, h⟩ := rehearseAlone_run h
  simp only [Bool.and_eq_true, decide_eq_true_eq] at h
  have hanswers : ∀ out : SignedMultisigTx,
      decide (out = sampleSigned) = true → out = sampleSigned := fun _ => of_decide_eq_true
  cases x with
  | error e => cases hok
  | ok u =>
    cases y with
    | error e => cases h.1
    | ok out =>
      obtain ⟨hout, hf⟩ := h
      cases hout
      exact ⟨w₁, w₂, ⟨hrun₁.mono fun _ _ _ _ => answering_weaken hanswers,
        hrun₂.mono fun _ _ _ _ => answering_weaken hanswers⟩, hf⟩

/-- The proofs of the sample signature. -/
def sampleProofs : List QuorumSignProof :=
  [⟨⟨sampleEscrow, "arbiter", "arbiter_first", digit64 'a'⟩, "jti-1", digit64 '1'⟩,
    ⟨⟨sampleEscrow, "arbiter", "arbiter_first", digit64 'b'⟩, "jti-1", digit64 '2'⟩]

theorem approve_same_proven :
    ∃ w₁ w₂, BothWays (pendingWorld sampleProofs) w₁ w₂ ∧ SameEvidence w₁ w₂ := by
  obtain ⟨w₁, w₂, h, -⟩ := approveAndSign_run (f := fun _ _ => true)
    (show approveAndSign sampleProofs _ = true by decide +kernel)
  have hpending : (pendingWorld sampleProofs).db.getPending 1 = some samplePending := rfl
  refine ⟨w₁, w₂, h, (approve_same_iff rfl sampleDigest hpending rfl h.approved h.signed).1.mpr
    ⟨rfl, fun a ha ev pr hev hstored => ?_⟩⟩
  cases ha.granted.unique sampleGranted_first
    (Except.ok.inj (ha.hash.symm.trans sample_reads.1.1))
  have hret : txsetSha256Hex sampleAgent.crypto "bb" = .ok (digit64 'b') := sample_reads.1.2.1
  have hfirst : storedProof sampleAgent (fun _ => true)
      (requestedEvent (sampleAuthority '1' 'a' "jti-1")) = some sampleProofs[0] := by
    decide +kernel
  have hsecond : storedProof sampleAgent (fun _ => true)
      (artifactEvent sampleCrypto (sampleAuthority '1' 'a' "jti-1") (digit64 'b'))
        = some sampleProofs[1] := by
    decide +kernel
  rcases hev with rfl | ⟨hash, hhash, rfl⟩
  · cases hfirst.symm.trans hstored
    decide +kernel
  · cases hhash.symm.trans hret
    cases hsecond.symm.trans hstored
    decide +kernel

/-- **What was approved cannot be submitted, what was signed can.** The seller's proof is there; the
    arbiter's is there only if the arbiter signed through the worker interface. -/
theorem approved_without_proof :
    ∃ w₁ w₂ bundle, sampleAgent.proofStore = true
      ∧ (pendingWorld [sellerProof]).db.getPending 1 = some samplePending
      ∧ BothWays (pendingWorld [sellerProof]) w₁ w₂
      ∧ ¬ SameEvidence w₁ w₂
      ∧ w₁.orch.getSubmitMultisigProofBundle sampleEscrow (digit64 'b')
        = .error "missing quorum proof: arbiter_first"
      ∧ w₂.orch.getSubmitMultisigProofBundle sampleEscrow (digit64 'b') = .ok bundle := by
  have hplay : approveAndSign [sellerProof] (fun w₁ w₂ =>
      decide (w₁.orch.get (arbiterKey sampleEscrow (digit64 'b')) = none)
      && (match w₁.orch.getSubmitMultisigProofBundle sampleEscrow (digit64 'b') with
        | .error e => decide (e = "missing quorum proof: arbiter_first")
        | .ok _ => false)
      && (w₂.orch.getSubmitMultisigProofBundle sampleEscrow (digit64 'b')).isOk
      && (w₂.orch.get (arbiterKey sampleEscrow (digit64 'b'))).isSome) = true := by
    decide +kernel
  obtain ⟨w₁, w₂, hboth, h⟩ := approveAndSign_run hplay
  simp only [Bool.and_eq_true, decide_eq_true_eq] at h
  obtain ⟨⟨⟨hnone, herror⟩, hok⟩, hsome⟩ := h
  have herror : w₁.orch.getSubmitMultisigProofBundle sampleEscrow (digit64 'b')
      = .error "missing quorum proof: arbiter_first" := by
    split at herror
    · rename_i e he
      rw [he, of_decide_eq_true herror]
    · cases herror
  have hbundle : ∃ bundle,
      w₂.orch.getSubmitMultisigProofBundle sampleEscrow (digit64 'b') = .ok bundle := by
    cases hb : w₂.orch.getSubmitMultisigProofBundle sampleEscrow (digit64 'b') with
    | error e => rw [hb] at hok; cases hok
    | ok bundle => exact ⟨bundle, rfl⟩
  obtain ⟨bundle, hbundle⟩ := hbundle
  refine ⟨w₁, w₂, bundle, rfl, rfl, hboth, fun hsame => ?_, herror, hbundle⟩
  rw [← hsame.proofs, hnone] at hsome
  cases hsome

end

end Nexum.Signer
