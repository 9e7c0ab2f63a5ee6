import Nexum.Signer.Alone
import Nexum.Signer.Evidence

/-!
# Two records of the same signatures

Every signature is recorded twice: in the signer's own table, where **the first row under a key
stays**, and at the orchestrator, where **the last one does**. A token for submitting is built from
the orchestrator's record and then compared with the signer's own, so the two have to agree.

They do as long as no key is written twice (`evidence_agrees`). Each signature writes two keys,
the hash it was asked for and the hash that came back, and nothing keeps the second from being a
key of another signature: if the wallet's answer to one request is what another request asks to
be signed, the orchestrator ends up with the later token and the signer with the earlier one
(`evidence_disagrees`). The orchestrator also strips white space from token ids, the signer does
not.
-/

namespace Nexum.Signer

open Nexum.Lib Nexum.Lib.Prog
open Nexum.Transport
open Nexum.Orchestrator (ProofKey QuorumSignProof OrchestratorDb)

/-! ## 1. Rows by key -/

section
variable {rows : List SignEvent} {ev row : SignEvent}

theorem mem_addEvent (h : row ∈ addEvent rows ev) : row ∈ rows ∨ row = ev := by
  unfold addEvent at h
  split at h
  · exact .inl h
  · exact (List.mem_append.mp h).imp_right List.mem_singleton.mp

/-- **What a row adds**, if nothing but a row with its key stands in its way: where there is a row
    already, nothing. -/
theorem find_addEvent_or (hclash : ∀ old ∈ rows, SignerDb.Clash old ev → old.key = ev.key)
    (key : ProofKey) : (addEvent rows ev).find? (·.key = key)
      = (rows.find? (·.key = key)).or (if key = ev.key then some ev else none) := by
  unfold addEvent
  split
  · rename_i hc
    obtain ⟨old, hold, hc⟩ := hc
    by_cases hkey : key = ev.key
    · -- the row is ignored because there is one with its key
      have hsome : (rows.find? (·.key = key)).isSome = true :=
        List.find?_isSome.mpr ⟨old, hold, by simpa [hkey] using hclash old hold hc⟩
      obtain ⟨row, hrow⟩ := Option.isSome_iff_exists.mp hsome
      rw [hrow, Option.some_or]
    · rw [if_neg hkey, Option.or_none]
  · rw [List.find?_append]
    by_cases hkey : key = ev.key
    · simp [hkey]
    · have hne : ¬ ev.key = key := fun h => hkey h.symm
      simp [hkey, hne]

/-- **A row goes in under its key** if nothing but a row with that key stands in its way, and there
    is none, or it is the same row. -/
theorem find_addEvent (hclash : ∀ old ∈ rows, SignerDb.Clash old ev → old.key = ev.key)
    (hfree : rows.find? (·.key = ev.key) = none ∨ rows.find? (·.key = ev.key) = some ev)
    (key : ProofKey) : (addEvent rows ev).find? (·.key = key)
      = if key = ev.key then some ev else rows.find? (·.key = key) := by
  rw [find_addEvent_or hclash]
  by_cases hkey : key = ev.key
  · rw [if_pos hkey, if_pos hkey, hkey]
    rcases hfree with hnone | hsome
    · rw [hnone, Option.none_or]
    · rw [hsome, Option.some_or]
  · rw [if_neg hkey, if_neg hkey, Option.or_none]

end

/-! ## 2. Sequences of calls -/

/-- The authority under which this call signs, if it does. -/
structure CallAuthority (agent : SignerAgent) (escrow tx : String) (token : Option String)
    (a : Authority) : Prop where
  granted : Granted agent token "sign_multisig" a
  escrow : normalizeHexExact escrow 32 "escrow_id_hex" = .ok a.escrowIdHex
  hash : txsetSha256Hex agent.crypto tx = .ok a.txsetHashHex

/-- The signer's own checks before it hands a row to the orchestrator pass. -/
def Storable (agent : SignerAgent) (escrow tx : String) (token : Option String)
    (out : SignedMultisigTx) : Prop :=
  ∀ a ev, CallAuthority agent escrow tx token a → EvidenceOf agent a out ev →
    ∃ row, normalizeForStore ev = .ok row

/-- **The states reached by signing calls that all succeed**, one after the other, with every proof
    stored, from `w₀`. Each call meets `ok`, a condition on the state it starts in, on what it is
    asked and on what the wallet makes of it. Meanwhile others go about their business; they do not
    write proofs in this signer's name. -/
inductive SignCalls (agent : SignerAgent)
    (ok : World → String → String → Option String → SignedMultisigTx → Prop) (w₀ : World) :
    World → Prop
  | init : SignCalls agent ok w₀ w₀
  | call {w w' : World} {escrow tx : String} {action : EscrowAction} {token : Option String}
      {out : SignedMultisigTx} (h : SignCalls agent ok w₀ w)
      (hrun : Runs (answering (fun _ => true) fun _ => True) w
        (signMultisigFlow agent escrow action tx token) (.ok out) w')
      (hstored : Storable agent escrow tx token out) (hok : ok w escrow tx token out) :
      SignCalls agent ok w₀ w'
  | meanwhile {w w' : World} (h : SignCalls agent ok w₀ w) (hb : Background w w')
      (hown : ∀ v key, agent.verifier = some v → key.role = roleKey v.signerRole →
        w'.orch.get key = w.orch.get key) :
      SignCalls agent ok w₀ w'

/-- The call is answered from a stored answer, or its token's id is trimmed and neither of the keys
    its evidence will have is in use. -/
def NoCollision (agent : SignerAgent) (w : World) (escrow tx : String) (token : Option String)
    (out : SignedMultisigTx) : Prop :=
  ∀ a, CallAuthority agent escrow tx token a → w.db.requests a.reqId ≠ none
    ∨ (trim a.jti = a.jti ∧ ∀ ev, EvidenceOf agent a out ev → w.db.getSignEvent ev.key = none)

/-- **The two records agree**: under every key of this signer's role there is the same token id and
    the same request id, or nothing in both places. -/
def Agree (own : SignerRole) (w : World) : Prop :=
  ∀ key : ProofKey, key.role = roleKey own →
    (w.db.getSignEvent key).map (fun row => (row.jti, row.reqId))
      = (w.orch.get key).map fun row => (row.jti, row.reqId)

/-- The databases answer. -/
def served : Services Call Call.Out String World :=
  fun w c r w' => w.serve c = some (r, w')

/-- The token quotes the arbiter's signature as the bundle has it. -/
structure BuiltFrom (a : Authority) (bundle : OrchestratorDb.SubmitMultisigProofBundle) :
    Prop where
  escrow : a.escrowIdHex = bundle.escrowIdHex
  hash : a.txsetHashHex = bundle.txsetHashHex
  jti : a.claims.proofArbiterJti = some bundle.proofArbiterJti
  reqId : a.claims.proofArbiterReqId = some bundle.proofArbiterReqId

/-- A token built from a bundle of the orchestrator passes the comparison with the signer's own
    record. -/
def BundlesPass (w : World) : Prop :=
  ∀ escrow hash bundle a x w', w.orch.getSubmitMultisigProofBundle escrow hash = .ok bundle →
    BuiltFrom a bundle → Runs served w (checkLocalProof a a.claims) x w' → x = .ok ()

/-! ## 3. One signature -/

section
variable {agent : SignerAgent} {v : ActionTokenVerifier} {w w' : World} {a : Authority}
  {out : SignedMultisigTx} {hash : String} {ev : SignEvent} {token : Option String}

/-- Where a row of the signer's own record comes from. -/
structure Recorded (agent : SignerAgent) (w : World) (row : SignEvent) : Prop where
  source : ∃ a out, Known agent a ∧ EvidenceOf agent a out row
  jti : trimmedNonEmpty (some row.jti) = some row.jti
  reqId : trimmedNonEmpty (some row.reqId) = some row.reqId
  consumed : w.db.consumed row.jti ≠ none

theorem Recorded.consume {row : SignEvent} (h : Recorded agent w row) {jti : String}
    {entry : ConsumedJti} (hc : w'.db.consumed = Function.update w.db.consumed jti (some entry)) :
    Recorded agent w' row := by
  refine ⟨h.source, h.jti, h.reqId, ?_⟩
  rw [hc]
  by_cases hjti : row.jti = jti
  · rw [hjti, Function.update_self]
    exact Option.some_ne_none _
  · rw [Function.update_of_ne hjti]
    exact h.consumed

theorem EvidenceOf.normalizeForStore_eq (hd : DigestLike agent.crypto.sha256Hex)
    (hv : agent.verifier = some v) (hk : Known agent a) (h : EvidenceOf agent a out ev)
    (htrim : trim a.jti = a.jti) {row : SignEvent} (hrow : normalizeForStore ev = .ok row) :
    row = ev := by
  obtain ⟨hnormal, hjti, -, hreq⟩ := h.names hd hv hk
  have hcanon : toAsciiLowercase (trim ev.reqId) = ev.reqId := by
    rw [hreq]
    exact hd.canonical _
  rw [normalizeForStore_ok hnormal hrow, hjti, htrim, hcanon, ← hjti]

theorem EvidenceOf.normalizeProof_eq (hd : DigestLike agent.crypto.sha256Hex)
    (hv : agent.verifier = some v) (hk : Known agent a) (h : EvidenceOf agent a out ev)
    (htrim : trim a.jti = a.jti) {pr : QuorumSignProof} (hproof : proofOf ev = some pr) :
    OrchestratorDb.normalizeProof ev.key.escrowIdHex ev.key.role ev.key.signRound
      ev.key.txsetHashHex ev.jti ev.reqId = .ok ⟨ev.key, ev.jti, ev.reqId⟩ := by
  obtain ⟨hnormal, hjti, -, hreq⟩ := h.names hd hv hk
  have hcanon : toAsciiLowercase (trim ev.reqId) = ev.reqId := by
    rw [hreq]
    exact hd.canonical _
  unfold proofOf at hproof
  cases hok : OrchestratorDb.normalizeProof ev.key.escrowIdHex ev.key.role ev.key.signRound
    ev.key.txsetHashHex ev.jti ev.reqId with
  | error e =>
    rw [hok] at hproof
    cases hproof
  | ok p => rw [normalizeProof_ok hnormal hok, hjti, htrim, hcanon]

theorem EvidenceOf.storedProof_eq (hd : DigestLike agent.crypto.sha256Hex)
    (hv : agent.verifier = some v) (hon : agent.proofStore = true) (hk : Known agent a)
    (h : EvidenceOf agent a out ev) (htrim : trim a.jti = a.jti) {row : SignEvent}
    (hrow : normalizeForStore ev = .ok row) {pr : QuorumSignProof}
    (hproof : proofOf row = some pr) :
    storedProof agent (fun _ => true) ev = some ⟨ev.key, ev.jti, ev.reqId⟩ := by
  have hsame := h.normalizeForStore_eq hd hv hk htrim hrow
  subst hsame
  have hok := h.normalizeProof_eq hd hv hk htrim hproof
  simp [storedProof, hon, hrow, Except.toOption, proofOf, hok]

theorem EvidenceOf.eq_of_key (hd : DigestLike agent.crypto.sha256Hex) (hv : agent.verifier = some v)
    (hk : Known agent a) {ev' : SignEvent} (h : EvidenceOf agent a out ev)
    (h' : EvidenceOf agent a out ev') (hkey : ev.key = ev'.key) : ev = ev' := by
  obtain ⟨-, hjti, -, hreq⟩ := h.names hd hv hk
  obtain ⟨-, hjti', -, hreq'⟩ := h'.names hd hv hk
  have hreqId : ev.reqId = ev'.reqId := by rw [hreq, hreq', hkey]
  cases ev
  cases ev'
  exact (SignEvent.mk.injEq ..).mpr ⟨hkey, hjti.trans hjti'.symm, hreqId⟩

theorem Recorded.clash_key (hd : DigestLike agent.crypto.sha256Hex) (hv : agent.verifier = some v)
    {old : SignEvent} (hold : Recorded agent w old) (hk : Known agent a)
    (hnew : w.db.consumed a.jti = none) (h : EvidenceOf agent a out ev)
    (hclash : SignerDb.Clash old ev) : old.key = ev.key := by
  obtain ⟨a', out', hk', h'⟩ := hold.source
  refine Nexum.Signer.clash_key hd hv hk' hk h' h (fun hjti => ?_) hclash
  have hconsumed := hold.consumed
  rw [(h'.names hd hv hk').2.1, hjti, hnew] at hconsumed
  exact absurd rfl hconsumed

/-- **What one signature adds to the signer's record.** -/
theorem SignatureLeft.getSignEvent (hsig : SignatureLeft agent a out hash w w')
    (hd : DigestLike agent.crypto.sha256Hex) (hv : agent.verifier = some v) (hk : Known agent a)
    (hrows : ∀ row ∈ w.db.signEvents, Recorded agent w row)
    (hfree : ∀ ev, EvidenceOf agent a out ev → w.db.getSignEvent ev.key = none) (key : ProofKey) :
    w'.db.getSignEvent key
      = if key = (artifactEvent agent.crypto a hash).key then
          some (artifactEvent agent.crypto a hash)
        else if key = (requestedEvent a).key then some (requestedEvent a)
        else w.db.getSignEvent key := by
  have hx : EvidenceOf agent a out (requestedEvent a) := .inl rfl
  have hy : EvidenceOf agent a out (artifactEvent agent.crypto a hash) :=
    .inr ⟨hash, hsig.returned, rfl⟩
  have hfirst := find_addEvent
    (fun old hold hc => (hrows old hold).clash_key hd hv hk hsig.consumedNew hx hc)
    (.inl (hfree _ hx))
  unfold SignerDb.getSignEvent
  rw [hsig.events, find_addEvent ?_ ?_ key, hfirst key]
  · intro old hold hc
    rcases mem_addEvent hold with hold | rfl
    · exact (hrows old hold).clash_key hd hv hk hsig.consumedNew hy hc
    · exact Nexum.Signer.clash_key hd hv hk hk hx hy (fun _ => rfl) hc
  · -- the second key may be the first one again
    rw [hfirst]
    split
    · rename_i hkey
      exact .inr (congrArg some (hx.eq_of_key hd hv hk hy hkey.symm))
    · exact .inl (hfree _ hy)

/-- **What it adds to the orchestrator's**: both rows, the second one last. -/
theorem ProofsLeft.orch_eq (hproofs : ProofsLeft agent (fun _ => true) a hash w w')
    (hret : txsetSha256Hex agent.crypto out.txDataHex = .ok hash)
    (hd : DigestLike agent.crypto.sha256Hex) (hv : agent.verifier = some v)
    (hon : agent.proofStore = true) (hk : Known agent a) (htrim : trim a.jti = a.jti)
    (hstorable : ∀ ev, EvidenceOf agent a out ev → ∃ row, normalizeForStore ev = .ok row) :
    w'.orch = (w.orch.put ⟨(requestedEvent a).key, a.jti, (requestedEvent a).reqId⟩).put
      ⟨(artifactEvent agent.crypto a hash).key, a.jti,
        (artifactEvent agent.crypto a hash).reqId⟩ := by
  have hstored : ∀ ev ∈ [requestedEvent a, artifactEvent agent.crypto a hash],
      EvidenceOf agent a out ev →
      storedProof agent (fun _ => true) ev = some ⟨ev.key, ev.jti, ev.reqId⟩ := by
    intro ev hmem hev
    obtain ⟨row, hrow⟩ := hstorable ev hev
    obtain ⟨pr, hpr⟩ := hproofs.accepted ev hmem row hon hrow rfl
    exact hev.storedProof_eq hd hv hon hk htrim hrow hpr
  rw [hproofs.orch, hstored _ (by simp) (.inl rfl), hstored _ (by simp) (.inr ⟨hash, hret, rfl⟩)]
  rfl

theorem ProofsLeft.get (hproofs : ProofsLeft agent (fun _ => true) a hash w w')
    (hsig : SignatureLeft agent a out hash w w') (hd : DigestLike agent.crypto.sha256Hex)
    (hv : agent.verifier = some v) (hon : agent.proofStore = true) (hk : Known agent a)
    (htrim : trim a.jti = a.jti)
    (hstorable : ∀ ev, EvidenceOf agent a out ev → ∃ row, normalizeForStore ev = .ok row)
    (key : ProofKey) :
    (w'.orch.get key).map (fun row => (row.jti, row.reqId))
      = (if key = (artifactEvent agent.crypto a hash).key
        then some (artifactEvent agent.crypto a hash)
        else if key = (requestedEvent a).key then some (requestedEvent a) else none).elim
          ((w.orch.get key).map fun row => (row.jti, row.reqId))
          fun row => some (row.jti, row.reqId) := by
  rw [hproofs.orch_eq hsig.returned hd hv hon hk htrim hstorable, OrchestratorDb.get_put,
    OrchestratorDb.get_put]
  split
  · rfl
  · split <;> rfl

theorem agree_signed (hsig : SignatureLeft agent a out hash w w')
    (hproofs : ProofsLeft agent (fun _ => true) a hash w w')
    (hd : DigestLike agent.crypto.sha256Hex) (hv : agent.verifier = some v)
    (hon : agent.proofStore = true) (hk : Known agent a) (htrim : trim a.jti = a.jti)
    (hstorable : ∀ ev, EvidenceOf agent a out ev → ∃ row, normalizeForStore ev = .ok row)
    (hrows : ∀ row ∈ w.db.signEvents, Recorded agent w row)
    (hfree : ∀ ev, EvidenceOf agent a out ev → w.db.getSignEvent ev.key = none)
    (hagree : Agree v.signerRole w) : Agree v.signerRole w' := by
  intro key hkey
  rw [hproofs.get hsig hd hv hon hk htrim hstorable key, hsig.getSignEvent hd hv hk hrows hfree key,
    ← hagree key hkey]
  split
  · rfl
  · split <;> rfl

theorem recorded_signed (hsig : SignatureLeft agent a out hash w w')
    (hd : DigestLike agent.crypto.sha256Hex) (hv : agent.verifier = some v)
    (hgranted : Granted agent token "sign_multisig" a) (hk : Known agent a)
    (htrim : trim a.jti = a.jti)
    (hstorable : ∀ ev, EvidenceOf agent a out ev → ∃ row, normalizeForStore ev = .ok row)
    (hrows : ∀ row ∈ w.db.signEvents, Recorded agent w row) :
    ∀ row ∈ w'.db.signEvents, Recorded agent w' row := by
  have hjti : trimmedNonEmpty (some a.jti) = some a.jti := by
    have hblank := hgranted.jti
    simp only [isBlank, htrim, beq_eq_false_iff_ne] at hblank
    simp [trimmedNonEmpty, htrim, hblank]
  have hnew : ∀ ev, EvidenceOf agent a out ev → Recorded agent w' ev := by
    intro ev hev
    obtain ⟨row, hrow⟩ := hstorable ev hev
    have hsame := hev.normalizeForStore_eq hd hv hk htrim hrow
    have hown : ev.jti = a.jti := (hev.names hd hv hk).2.1
    refine ⟨⟨a, out, hk, hev⟩, hown ▸ hjti, hsame ▸ normalizeForStore_reqId hrow, ?_⟩
    rw [hown, hsig.consumed, Function.update_self]
    exact Option.some_ne_none _
  intro row hrow
  rw [hsig.events] at hrow
  rcases mem_addEvent hrow with hrow | rfl
  · rcases mem_addEvent hrow with hrow | rfl
    · exact (hrows row hrow).consume hsig.consumed
    · exact hnew _ (.inl rfl)
  · exact hnew _ (.inr ⟨hash, hsig.returned, rfl⟩)

end

/-! ## 4. Every sequence of calls -/

section
variable {agent : SignerAgent} {v : ActionTokenVerifier} {w₀ w : World}

theorem CallAuthority.known {escrow tx : String} {token : Option String} {a : Authority}
    (h : CallAuthority agent escrow tx token a) : Known agent a :=
  ⟨⟨token, h.granted⟩, normalizeHex_idem h.escrow, tx, h.hash⟩

/-- The invariant of a sequence of calls. -/
structure Recording (agent : SignerAgent) (v : ActionTokenVerifier) (w : World) : Prop where
  rows : ∀ row ∈ w.db.signEvents, Recorded agent w row
  agree : Agree v.signerRole w

theorem recording_of_calls (hv : agent.verifier = some v) (hd : DigestLike agent.crypto.sha256Hex)
    (hon : agent.proofStore = true) (hevents : w₀.db.signEvents = [])
    (hproofs : ∀ row ∈ w₀.orch.proofs, row.key.role ≠ roleKey v.signerRole)
    (hcalls : SignCalls agent (NoCollision agent) w₀ w) : Recording agent v w := by
  induction hcalls with
  | init =>
    refine ⟨fun row hrow => ?_, fun key hkey => ?_⟩
    · rw [hevents] at hrow
      cases hrow
    · have hlocal : w₀.db.getSignEvent key = none := by
        unfold SignerDb.getSignEvent
        rw [hevents]
        rfl
      have hremote : w₀.orch.get key = none := by
        refine List.find?_eq_none.mpr fun row hrow heq => hproofs row hrow ?_
        rw [of_decide_eq_true heq, hkey]
      rw [hlocal, hremote]
      rfl
  | meanwhile h hb hown ih =>
    refine ⟨fun row hrow => ?_, fun key hkey => ?_⟩
    · have hold := ih.rows row (hb.signEvents ▸ hrow)
      exact ⟨hold.source, hold.jti, hold.reqId, hb.consumed.symm ▸ hold.consumed⟩
    · rw [hown v key hv hkey, ← ih.agree key hkey]
      unfold SignerDb.getSignEvent
      rw [hb.signEvents]
  | call h hrun hstored hok ih =>
    obtain ⟨a, hgranted, hescrow, hhash, hend⟩ := sign_alone (hv ▸ Option.some_ne_none v) hrun
    have hcall : CallAuthority agent _ _ _ a := ⟨hgranted, hescrow, hhash⟩
    rcases hend with ⟨hash, hsig, hproofs', -⟩ | hreplay
    · rcases hok a hcall with hcached | ⟨htrim, hfree⟩
      · exact absurd hsig.requestNew hcached
      · have hstorable := fun ev => hstored a ev hcall
        exact ⟨recorded_signed hsig hd hv hgranted hcall.known htrim hstorable ih.rows,
          agree_signed hsig hproofs' hd hv hon hcall.known htrim hstorable ih.rows hfree ih.agree⟩
    · refine ⟨fun row hrow => ?_, fun key hkey => ?_⟩
      · exact (ih.rows row (hreplay.events ▸ hrow)).consume hreplay.consumed
      · rw [hreplay.orch, ← ih.agree key hkey]
        unfold SignerDb.getSignEvent
        rw [hreplay.events]

/-- The comparison of a token with the signer's own record passes if they say the same. -/
theorem checkLocalProof_passes {a : Authority} {claims : ActionClaims} {ev : SignEvent}
    (hfind : w.db.getSignEvent (arbiterKey a.escrowIdHex a.txsetHashHex) = some ev)
    (hjti : trimmedNonEmpty claims.proofArbiterJti = some ev.jti)
    (hreq : trimmedNonEmpty claims.proofArbiterReqId = some ev.reqId) {x : Except String Unit}
    {w' : World} (hrun : Runs served w (checkLocalProof a claims) x w') : x = .ok () := by
  cases hrun with
  | call hexec hrest =>
    simp only [served, World.serve, World.read, Option.some.injEq, Prod.mk.injEq] at hexec
    obtain ⟨rfl, rfl⟩ := hexec
    rw [hfind] at hrest
    have hpass : ¬ (ev.jti ≠ ev.jti ∨ ev.reqId ≠ ev.reqId) := by simp
    simp only [Prog.ofExcept, hjti, hreq, Prog.okOr] at hrest
    change Runs served _ (if ev.jti ≠ ev.jti ∨ ev.reqId ≠ ev.reqId then _ else pure ()) _ _ at hrest
    rw [if_neg hpass] at hrest
    cases hrest
    rfl

theorem Recording.bundlesPass (h : Recording agent v w) (hrole : v.signerRole = .arbiter) :
    BundlesPass w := by
  intro escrow hash bundle a x w' hbundle hbuilt hrun
  simp only [OrchestratorDb.getSubmitMultisigProofBundle, Check.bind_eq_ok, Check.failIf_eq_ok,
    Check.okOr_eq_ok, Check.pure_eq_ok, Check.exists_unit] at hbundle
  obtain ⟨e, -, t, -, -, arbiter, harbiter, seller, -, -, -, rfl⟩ := hbundle
  have hagree := h.agree ⟨e, "arbiter", "arbiter_first", t⟩ (by rw [hrole]; rfl)
  rw [harbiter] at hagree
  obtain ⟨ev, hev, hids⟩ := Option.map_eq_some_iff.mp hagree
  obtain ⟨hjti, hreqId⟩ := Prod.mk.inj hids
  have hrow := h.rows ev (List.mem_of_find?_eq_some hev)
  refine checkLocalProof_passes (?_ : _ = some ev) ?_ ?_ hrun
  · rw [hbuilt.escrow, hbuilt.hash]
    exact hev
  · rw [hbuilt.jti, ← hjti]
    exact hrow.jti
  · rw [hbuilt.reqId, ← hreqId]
    exact hrow.reqId

/-- **The two records agree** after every sequence of successful signing calls none of which writes
    a key that is in use already, and then a token built from the orchestrator's record passes the
    comparison with the signer's own. -/
theorem evidence_agrees (hv : agent.verifier = some v) (hd : DigestLike agent.crypto.sha256Hex)
    (hon : agent.proofStore = true) (hevents : w₀.db.signEvents = [])
    (hproofs : ∀ row ∈ w₀.orch.proofs, row.key.role ≠ roleKey v.signerRole)
    (hcalls : SignCalls agent (NoCollision agent) w₀ w) :
    Agree v.signerRole w ∧ (v.signerRole = .arbiter → BundlesPass w) := by
  have h := recording_of_calls hv hd hon hevents hproofs hcalls
  exact ⟨h.agree, h.bundlesPass⟩

theorem storable_of {escrow tx hash : String} {token : Option String} {out : SignedMultisigTx}
    {a : Authority} (hgranted : Granted agent token "sign_multisig" a)
    (hreq : txsetSha256Hex agent.crypto tx = .ok a.txsetHashHex)
    (hret : txsetSha256Hex agent.crypto out.txDataHex = .ok hash)
    (h : ∀ ev ∈ [requestedEvent a, artifactEvent agent.crypto a hash],
      ∃ row, normalizeForStore ev = .ok row) : Storable agent escrow tx token out := by
  intro a' ev ha' hev
  cases ha'.granted.unique hgranted (Except.ok.inj (ha'.hash.symm.trans hreq))
  rcases hev with rfl | ⟨hash', hret', rfl⟩
  · exact h _ (by simp)
  · cases hret'.symm.trans hret
    exact h _ (by simp)

/-- The arbiter's authority over a sample transaction set. -/
def sampleAuthority (req hash : Char) (jti : String) : Authority :=
  ⟨digit64 req, signClaims hash jti, sampleEscrow, digit64 hash⟩

/-- What an authority and the two rows of its signature come to. -/
def Reads (req hash back : Char) (jti : String) : Prop :=
  isBlank jti = false
    ∧ normalizeHex64 (digit64 hash) "txset_hash_hex" = .ok (digit64 hash)
    ∧ digit64 req
      = signReqId sampleCrypto sampleEscrow "sign_multisig" "arbiter_first" (digit64 hash)
    ∧ ∀ row ∈ [requestedEvent (sampleAuthority req hash jti),
        artifactEvent sampleCrypto (sampleAuthority req hash jti) (digit64 back)],
      normalizeForStore row = .ok row

instance (req hash back : Char) (jti : String) : Decidable (Reads req hash back jti) :=
  inferInstanceAs (Decidable (_ ∧ _ ∧ _ ∧ _))

/-- The digests of the sample transaction sets, and the three signatures. -/
theorem sample_reads :
    (txsetSha256Hex sampleCrypto "aa" = .ok (digit64 'a')
      ∧ txsetSha256Hex sampleCrypto "bb" = .ok (digit64 'b')
      ∧ txsetSha256Hex sampleCrypto "cc" = .ok (digit64 'c')
      ∧ txsetSha256Hex sampleCrypto "dd" = .ok (digit64 'd')
      ∧ txsetSha256Hex sampleCrypto "ee" = .ok (digit64 'e'))
    ∧ Reads '1' 'a' 'b' "jti-1" ∧ Reads '2' 'b' 'c' "jti-3" ∧ Reads '7' 'd' 'e' "jti-5" := by
  decide +kernel

theorem Reads.granted {token jti : String} {req hash back : Char} (h : Reads req hash back jti)
    (hjwt : sampleCrypto.verifyJwt token = .ok (signClaims hash jti)) :
    Granted sampleAgent (some token) "sign_multisig" (sampleAuthority req hash jti) := by
  obtain ⟨hjti, hnorm, hreq, -⟩ := h
  exact ⟨⟨token, rfl, hjwt⟩, rfl, ⟨_, rfl, rfl, fun _ => rfl⟩, hjti, digit64 hash, hnorm, hreq⟩

theorem sampleGranted_first :
    Granted sampleAgent (some "sign-a-1") "sign_multisig" (sampleAuthority '1' 'a' "jti-1") :=
  sample_reads.2.1.granted rfl

/-- Neither key of the evidence is in use. -/
def unwritten (a : Authority) (back : Char) (w : World) : Bool :=
  [requestedEvent a, artifactEvent sampleCrypto a (digit64 back)].all fun ev =>
    w.db.getSignEvent ev.key = none

section
variable {tx out token jti : String} {req hash back : Char} (h : Reads req hash back jti)
  (hjwt : sampleCrypto.verifyJwt token = .ok (signClaims hash jti))
  (hreq : txsetSha256Hex sampleCrypto tx = .ok (digit64 hash))
  (hret : txsetSha256Hex sampleCrypto out = .ok (digit64 back))

include h hjwt hreq hret

theorem Reads.storable : Storable sampleAgent sampleEscrow tx (some token) ⟨out, ["txid"]⟩ :=
  storable_of (h.granted hjwt) hreq hret fun ev hev => ⟨ev, h.2.2.2 ev hev⟩

theorem Reads.noCollision (htrim : trim jti = jti)
    (hfree : unwritten (sampleAuthority req hash jti) back w = true) :
    NoCollision sampleAgent w sampleEscrow tx (some token) ⟨out, ["txid"]⟩ := by
  intro a ha
  cases ha.granted.unique (h.granted hjwt) (Except.ok.inj (ha.hash.symm.trans hreq))
  refine .inr ⟨htrim, fun ev hev => ?_⟩
  simp only [unwritten, List.all_cons, List.all_nil, Bool.and_true, Bool.and_eq_true,
    decide_eq_true_eq] at hfree
  rcases hev with rfl | ⟨hash', hret', rfl⟩
  · exact hfree.1
  · cases hret'.symm.trans hret
    exact hfree.2

end

/-- A sample signing call, on its own. -/
def rehearseSign (tx token : String) (w : World) :
    Option (Except String SignedMultisigTx × World) :=
  rehearseAlone (fun _ => true)
    (signMultisigFlow sampleAgent sampleEscrow .release tx (some token)) w

/-- The call returned `out`, and left a world that `f` accepts. -/
def returning (out : SignedMultisigTx) (f : World → Bool)
    (x : Except String SignedMultisigTx × World) : Bool :=
  x.1.toOption = some out && f x.2

theorem SignCalls.rehearsed {ok : World → String → String → Option String → SignedMultisigTx → Prop}
    {tx token : String} {out : SignedMultisigTx} {f : World → Bool}
    (h : SignCalls sampleAgent ok w₀ w)
    (hplay : (rehearseSign tx token w).any (returning out f) = true)
    (hstored : Storable sampleAgent sampleEscrow tx (some token) out)
    (hok : ok w sampleEscrow tx (some token) out) :
    ∃ w', SignCalls sampleAgent ok w₀ w' ∧ f w' = true := by
  obtain ⟨x, w', hrun, hx⟩ := rehearseAlone_run hplay
  simp only [returning, Bool.and_eq_true, decide_eq_true_eq] at hx
  cases x with
  | error e => cases hx.1
  | ok out' =>
    cases hx.1
    exact ⟨w', .call h (hrun.mono fun _ _ _ _ => answering_weaken fun _ _ => trivial) hstored hok,
      hx.2⟩

/-- Two sets are signed under two tokens. -/
theorem evidence_agrees_twice :
    ∃ w, SignCalls sampleAgent (NoCollision sampleAgent) sampleWorld w
      ∧ w.db.signEvents.length = 4 ∧ Agree .arbiter w ∧ BundlesPass w := by
  obtain ⟨⟨ha, hb, -, hd, he⟩, hfirst, -, hfourth⟩ := sample_reads
  have hplay : (rehearseSign "aa" "sign-a-1" sampleWorld).any (returning ⟨"bb", ["txid"]⟩ fun w =>
      unwritten (sampleAuthority '7' 'd' "jti-5") 'e' w && (rehearseSign "dd" "sign-d-5" w).any
        (returning ⟨"ee", ["txid"]⟩ fun w => w.db.signEvents.length = 4)) = true := by
    decide +kernel
  obtain ⟨w₁, h₁, hplay₁⟩ := SignCalls.rehearsed .init hplay (hfirst.storable rfl ha hb)
    (hfirst.noCollision rfl ha hb (by decide +kernel) (by decide +kernel))
  obtain ⟨hfree, hplay₁⟩ := Bool.and_eq_true_iff.mp hplay₁
  obtain ⟨w₂, h₂, hlen⟩ := h₁.rehearsed hplay₁ (hfourth.storable rfl hd he)
    (hfourth.noCollision rfl hd he (by decide +kernel) hfree)
  have h := evidence_agrees rfl sampleDigest rfl rfl (by rintro _ ⟨⟩) h₂
  exact ⟨w₂, h₂, of_decide_eq_true hlen, h.1, h.2 rfl⟩

/-! ## 5. A key that is written twice -/

/-- The comparison turns a token down that says something else than the signer's own record. -/
theorem checkLocalProof_denies {a : Authority} {claims : ActionClaims} {ev : SignEvent}
    {jti reqId : String}
    (hfind : w.db.getSignEvent (arbiterKey a.escrowIdHex a.txsetHashHex) = some ev)
    (hjti : trimmedNonEmpty claims.proofArbiterJti = some jti)
    (hreq : trimmedNonEmpty claims.proofArbiterReqId = some reqId)
    (hne : ev.jti ≠ jti ∨ ev.reqId ≠ reqId) :
    ∃ w', Runs served w (checkLocalProof a claims)
      (.error "submit denied: local arbiter quorum proof mismatch (token vs signer db)") w' := by
  refine ⟨{ w with db := w.db.abortSignRequest a.reqId }, ?_⟩
  have hread : served w (.getSignEvent (arbiterKey a.escrowIdHex a.txsetHashHex)) (.ok (some ev))
      w := by
    simp only [served, World.serve, World.read, hfind]
  have habort : served w (.abortSignRequest a.reqId) (.ok ())
      { w with db := w.db.abortSignRequest a.reqId } := rfl
  refine .call hread ?_
  simp only [Prog.ofExcept, hjti, hreq, Prog.okOr]
  change Runs served _ (if ev.jti ≠ jti ∨ ev.reqId ≠ reqId then _ else pure ()) _ _
  rw [if_pos hne]
  exact .call habort .fail

/-- The seller's proof for the second sample transaction set. -/
def sellerProof : QuorumSignProof :=
  ⟨⟨sampleEscrow, "seller", "seller_second", digit64 'b'⟩, "seller-jti", digit64 '4'⟩

/-- The arbiter's authority for submitting it, its token as the orchestrator's bundle has it. -/
def bundledAuthority : Authority :=
  { sampleAuthority '6' 'b' "jti-4" with
    claims := { sampleClaims "submit_multisig" "arbiter_submit" 'b' "jti-4" with
      proofArbiterJti := some "jti-3"
      proofSellerJti := some "seller-jti"
      proofArbiterReqId := some (digit64 '2')
      proofSellerReqId := some (digit64 '4') } }

/-- The bundle, once the seller's proof is there too. -/
def sampleBundle (w : World) : Except String OrchestratorDb.SubmitMultisigProofBundle :=
  (w.orch.put sellerProof).getSubmitMultisigProofBundle sampleEscrow (digit64 'b')

/-- The signer has the first token for the second transaction set, the orchestrator the second. -/
def disagreement (w : World) : Bool :=
  (w.db.getSignEvent (arbiterKey sampleEscrow (digit64 'b'))).any (·.jti = "jti-1")
    && ((w.orch.put sellerProof).get (arbiterKey sampleEscrow (digit64 'b'))).any (·.jti = "jti-3")
    && (sampleBundle w).toOption
      = some ⟨sampleEscrow, digit64 'b', "jti-3", digit64 '2', "seller-jti", digit64 '4'⟩

/-- **The two records disagree.** The wallet turns a first transaction set into a second one, which
    is then signed itself under another token: the signer keeps the first token for it, the
    orchestrator the second, and a token built from the orchestrator's bundle is turned down. -/
theorem evidence_disagrees :
    ∃ w bundle e, sampleAgent.proofStore = true ∧ sampleWorld.db.signEvents = []
      ∧ sampleWorld.orch.proofs = []
      ∧ SignCalls sampleAgent (fun _ _ _ _ _ => True) sampleWorld w
      ∧ ¬ Agree .arbiter w
      ∧ w.orch.getSubmitMultisigProofBundle sampleEscrow (digit64 'b') = .ok bundle
      ∧ BuiltFrom bundledAuthority bundle
      ∧ ∃ w', Runs served w (checkLocalProof bundledAuthority bundledAuthority.claims) (.error e)
        w' := by
  have h₀ : SignCalls sampleAgent (fun _ _ _ _ _ => True) sampleWorld sampleWorld := .init
  have hplay : (rehearseSign "aa" "sign-a-1" sampleWorld).any (returning ⟨"bb", ["txid"]⟩ fun w =>
      (rehearseSign "bb" "sign-b-3" w).any (returning ⟨"cc", ["txid"]⟩ disagreement)) = true := by
    decide +kernel
  obtain ⟨⟨ha, hb, hc, -⟩, hfirst, hsecond, -⟩ := sample_reads
  obtain ⟨w₁, h₁, hplay₁⟩ := h₀.rehearsed hplay (hfirst.storable rfl ha hb) trivial
  obtain ⟨w₂, h₂, hdis⟩ := h₁.rehearsed hplay₁ (hsecond.storable rfl hb hc) trivial
  simp only [disagreement, Bool.and_eq_true, decide_eq_true_eq, Option.any_eq_true] at hdis
  obtain ⟨⟨⟨ev, hev, hjti⟩, pr, hpr, hjti'⟩, hbundle⟩ := hdis
  have h₃ : SignCalls sampleAgent (fun _ _ _ _ _ => True) sampleWorld
      { w₂ with orch := w₂.orch.put sellerProof } := by
    refine .meanwhile h₂ ⟨rfl, rfl, rfl, rfl, fun _ => OrchestratorDb.mem_put _⟩ ?_
    rintro _ key ⟨⟩ hrole
    have hne : key ≠ sellerProof.key := by
      rintro rfl
      exact absurd hrole (by decide)
    simp only [OrchestratorDb.get_put, if_neg hne]
  cases hb : sampleBundle w₂ with
  | error e => rw [hb] at hbundle; cases hbundle
  | ok bundle =>
    rw [hb] at hbundle
    cases hbundle
    have hquoted : trimmedNonEmpty bundledAuthority.claims.proofArbiterJti = some "jti-3"
        ∧ trimmedNonEmpty bundledAuthority.claims.proofArbiterReqId = some (digit64 '2') := by
      decide +kernel
    refine ⟨_, _, _, rfl, rfl, rfl, h₃, fun hagree => ?_, hb, ⟨rfl, rfl, rfl, rfl⟩,
      checkLocalProof_denies hev hquoted.1 hquoted.2 (.inl ?_)⟩
    · have hsame := hagree (arbiterKey sampleEscrow (digit64 'b')) rfl
      simp only [hpr, show SignerDb.getSignEvent _ _ = some ev from hev, Option.map_some,
        Option.some.injEq, Prod.mk.injEq, hjti, hjti'] at hsame
      exact absurd hsame.1 (by decide)
    · rw [hjti]
      decide

end

end Nexum.Signer
