import Nexum.Signer.Lifecycle

/-!
# Every flow follows the protocol

One pass over the text of the flows, part by part, in the order they are written. Each part gets
one lemma that says where it may be entered and where it leaves the bookkeeping when it returns;
parts that make none of the calls the protocol watches are `Quiet`, and leave it alone. The last
section puts the parts together: what signing, approving, rejecting and submitting guarantee.

Everything here assumes that a token verifier is configured. Without one the flows use the
wallet with no authority at all, which the protocol forbids.
-/

namespace Nexum.Signer

open Nexum.Lib Nexum.Lib.Prog
open Nexum.Transport

/-! ## 1. The quiet parts of the flows -/

/-- The calls with which an artifact or a token is looked at. -/
def Call.looks : Call → Bool
  | .getEscrowAdmissionArtifact _ | .unixNow | .rateLimitCheck _ _ => true
  | _ => false

theorem quiet_of_looks (c : Call) (h : c.looks = true) : c.quiet = true := by
  cases c <;> first | rfl | cases h

theorem only_validateStoredEscrowAdmission (agent : SignerAgent) (e h : String)
    (action : EscrowAction) (expected : Option String) :
    Only (·.looks = true) (validateStoredEscrowAdmission agent e h action expected)
      fun _ => True := by
  unfold validateStoredEscrowAdmission
  cases agent.bundle with
  | none => exact .pure trivial
  | some b =>
    refine .perform_bind rfl fun row _ _ => .okOr_bind fun row _ => ?_
    refine .ofExcept_bind fun artifact _ => .ofExcept_bind fun actual _ => ?_
    exact .failIf_bind fun _ => .ofExcept fun _ _ => trivial

theorem quiet_validateStoredEscrowAdmission (agent : SignerAgent) (e h : String)
    (action : EscrowAction) (expected : Option String) :
    Quiet (validateStoredEscrowAdmission agent e h action expected) fun _ => True :=
  (only_validateStoredEscrowAdmission ..).mono quiet_of_looks

theorem looks_of_tells (c : Call) (h : c.tells = true) : c.looks = true := by
  cases c <;> first | rfl | cases h

theorem only_verifyCommon (agent : SignerAgent) (v : ActionTokenVerifier) (token : String)
    (u : TokenUse) :
    Only (·.looks = true) (verifyCommon agent v token u) fun t =>
      agent.crypto.verifyJwt token = .ok t.claims
        ∧ ∃ now, checkClaims agent.crypto v now u t.claims = .ok t :=
  (tells_verifyCommon ..).mono looks_of_tells

variable {agent : SignerAgent}

/-! ## 2. Up to the token -/

/-- A flow that has only read so far, and found the transaction set acceptable. -/
structure Prepared (agent : SignerAgent) (g₀ : Ghost) (job : Job) (g : Ghost) : Prop where
  same : ∃ snapshot described, g = { g₀ with snapshot := snapshot, described := described }
  vetted : g.Vetted job.escrowIdHex job.txDataHex
  hash : txsetSha256Hex agent.crypto job.txDataHex = .ok job.txsetHashHex

theorem describeTransfer_ensures (context tx : String) (g : Ghost) :
    Ensures (lifecycle agent) (describeTransfer context tx) g fun check g' =>
      ∃ desc, g' = { g with described := some (tx, desc) }
        ∧ transferCheckFromDesc desc = .ok check := by
  unfold describeTransfer
  refine .performOr_bind trivial fun desc g' hd => ?_
  obtain ⟨-, rfl⟩ := hd
  refine .okOr_bind fun desc hdesc => .ofExcept fun check hcheck => ?_
  subst hdesc
  exact ⟨desc, rfl, Check.mapError_eq_ok.mp hcheck⟩

theorem fromStr_eq_ok {α : Type} {j : Json α} {a : α} (h : j.fromStr = .ok a) :
    j = .encoded a := by
  cases j with
  | encoded b => cases h; rfl
  | malformed raw err => cases h

/-- What the two flows of the worker interface are about, from what they were asked. -/
structure Job.For (job : Job) (agent : SignerAgent) (escrow tx : String) : Prop where
  escrow : normalizeHexExact escrow 32 "escrow_id_hex" = .ok job.escrowIdHex
  txData : validateTxDataHex tx agent.maxTxsetHexLen = .ok job.txDataHex

/-- The calls with which a request is looked into before its token. -/
def Call.surveys : Call → Bool
  | .activeSnapshotForEscrow _ | .ensureWalletOpen | .describeTransfer _ => true
  | c => c.looks

theorem surveys_of_looks (c : Call) (h : c.looks = true) : c.surveys = true := by
  cases c <;> first | rfl | cases h

theorem surveys_of_describes {tx : String} (c : Call) (h : Call.describes tx c) :
    c.surveys = true := by
  cases c <;> first | rfl | exact h.elim

theorem only_prepare (agent : SignerAgent) (during escrow : String) (action : EscrowAction)
    (tx : String) :
    Only (·.surveys = true) (prepare agent during escrow action tx) fun job =>
      job.For agent escrow tx
        ∧ txsetSha256Hex agent.crypto job.txDataHex = .ok job.txsetHashHex := by
  unfold prepare
  refine .ofExcept_bind fun escrowIdHex hescrow => .ofExcept_bind fun text htext => ?_
  refine .ofExcept_bind fun hash hhash => .perform_bind rfl fun active _ _ => ?_
  refine .okOr_bind fun active _ => .ofExcept_bind fun snapshot _ => ?_
  refine Ensures.bind ((only_validateStoredEscrowAdmission ..).mono surveys_of_looks) ?_
  intro _ _ _
  refine .perform_bind rfl fun _ _ _ => ?_
  refine Ensures.bind ((only_describeTransfer ..).mono surveys_of_describes) fun check _ _ => ?_
  exact .ofExcept_bind fun _ _ => .pure ⟨⟨hescrow, htext⟩, hhash⟩

theorem prepare_ensures (during escrow : String) (action : EscrowAction) (tx : String)
    {g : Ghost} (haction : g.action = some (.encoded action)) :
    Ensures (lifecycle agent) (prepare agent during escrow action tx) g fun job g' =>
      Prepared agent g job g' ∧ job.For agent escrow tx := by
  unfold prepare
  refine .ofExcept_bind fun escrowIdHex hescrow => .ofExcept_bind fun txDataHex htx => ?_
  refine .ofExcept_bind fun txsetHashHex hhash => .perform_bind trivial fun active g₁ hd => ?_
  obtain ⟨-, rfl⟩ := hd
  refine .okOr_bind fun active hactive => .ofExcept_bind fun snapshot hsnapshot => ?_
  subst hactive
  refine (quiet_validateStoredEscrowAdmission ..).ensures_bind (lifecycle_ignores agent)
    fun _ _ => .perform_bind trivial fun _ g₂ hd => ?_
  obtain ⟨-, rfl⟩ := hd
  refine (describeTransfer_ensures ..).bind fun check g₃ hd => ?_
  obtain ⟨desc, rfl, hcheck⟩ := hd
  refine .ofExcept_bind fun _ hpolicy => .pure ⟨⟨⟨_, _, rfl⟩, ?_, hhash⟩, hescrow, htx⟩
  exact ⟨active, snapshot, action, desc, check, rfl, fromStr_eq_ok hsnapshot, haction, rfl, hcheck,
    hpolicy⟩

/-! ## 3. The token -/

theorem granted_of_checkClaims {v : ActionTokenVerifier} {token : String} {now : Nat}
    {u : TokenUse} {t : VerifiedSignToken} (hv : agent.verifier = some v)
    (hround : u.op = "sign_multisig" → u.signRound = expectedSignRound v.signerRole)
    (hjwt : agent.crypto.verifyJwt token = .ok t.claims)
    (hclaims : checkClaims agent.crypto v now u t.claims = .ok t) :
    Granted agent (some token) u.op (t.authority u.escrowIdHex u.txsetHashHex) := by
  obtain ⟨-, hrole, hsign, hescrow, hjti, hash, hnorm, hreq⟩ := checkClaims_ok hclaims
  refine ⟨⟨token, rfl, hjwt⟩, hescrow, ⟨v, hv, hrole, fun hop => ?_⟩, hjti, hash, hnorm, ?_⟩
  · exact hsign.trans (hround hop)
  · show t.reqId = signReqId agent.crypto u.escrowIdHex u.op t.claims.signRound hash
    rw [hsign]
    exact hreq

theorem quiet_verifySignMultisig {v : ActionTokenVerifier} (hv : agent.verifier = some v)
    (token escrow hash snapshot : String) :
    Quiet (verifySignMultisig agent v token escrow hash snapshot) fun t =>
      Granted agent (some token) "sign_multisig" (t.authority escrow hash) := by
  refine Ensures.mono ((only_verifyCommon ..).mono quiet_of_looks) ?_
  rintro t - ⟨hjwt, now, hclaims⟩
  exact granted_of_checkClaims hv (fun _ => rfl) hjwt hclaims

theorem quiet_verifySubmitMultisig {v : ActionTokenVerifier} (hv : agent.verifier = some v)
    (token escrow hash snapshot : String) :
    Quiet (verifySubmitMultisig agent v token escrow hash snapshot) fun t =>
      Granted agent (some token) "submit_multisig" (t.authority escrow hash) := by
  refine Ensures.bind ((only_verifyCommon ..).mono quiet_of_looks) ?_
  rintro t - ⟨hjwt, now, hclaims⟩
  refine .ofExcept_bind fun _ _ => .pure ?_
  exact granted_of_checkClaims hv
    (fun hop => absurd (show "submit_multisig" = _ from hop) (by decide)) hjwt hclaims

/-! ## 4. Holding a request -/

/-- A flow that has just inserted its request. -/
def Ghost.started (g : Ghost) (a : Authority) (op : String) : Ghost :=
  { g with phase := .started a.reqId, request := some (a.reqId, requestRow a op) }

/-- A flow that also holds its token's id. -/
def Ghost.armed (g : Ghost) (a : Authority) (op : String) : Ghost :=
  { g with
    phase := .armed a.reqId a.jti
    request := some (a.reqId, requestRow a op)
    consumed := some (a.jti, consumedRow a op a.claims.exp) }

theorem abortAndFail_ensures {α : Type} {reqId e : String} {g : Ghost} {R : α → Ghost → Prop}
    (h : May agent g (.abortSignRequest reqId)) :
    Ensures (lifecycle agent) (abortAndFail reqId e) g R :=
  .attempt_bind h fun _ _ _ => .fail

theorem consumeOrAbort_ensures (a : Authority) (op : String) {g : Ghost}
    (hnone : g.consumed = none) :
    Ensures (lifecycle agent) (consumeOrAbort a op a.claims.exp) (g.started a op) fun _ g' =>
      g' = g.armed a op := by
  refine .attempt_bind ⟨hnone, .inr ⟨_, rfl⟩⟩ fun r g' hd => ?_
  obtain ⟨-, rfl⟩ := hd
  cases r with
  | ok u => exact .pure rfl
  | error e => exact abortAndFail_ensures (.inl rfl)

/-- What a flow may return when it answers from a completed request. -/
def Replayed {α : Type} (a : Authority) (op : String)
    (parse : Json SignRequestCachedResult → Except String α) (g : Ghost) (x : α) (g' : Ghost) :
    Prop :=
  ∃ row json, parse json = .ok x ∧ g' = { g with
    found := some (a.reqId, row)
    cached := some (a.reqId, json)
    consumed := some (a.jti, consumedRow a op a.claims.exp) }

theorem replay_ensures {α : Type} (a : Authority) (op : String)
    (parse : Json SignRequestCachedResult → Except String α) {g : Ghost} (hidle : g.phase = .idle)
    (hnone : g.consumed = none) :
    Ensures (lifecycle agent) (replay a op a.claims.exp parse) g (Replayed a op parse g) := by
  refine .perform_bind hidle fun row g₁ hd => ?_
  obtain ⟨-, rfl⟩ := hd
  refine .okOr_bind fun row hrow => .failIf_bind fun _ => .failIf_bind fun _ => ?_
  subst hrow
  refine .perform_bind ⟨hnone, .inl hidle⟩ fun _ g₂ hd => ?_
  obtain ⟨-, rfl⟩ := hd
  refine .perform_bind trivial fun json g₃ hd => ?_
  obtain ⟨-, rfl⟩ := hd
  refine .okOr_bind fun json hjson => .ofExcept fun x hx => ⟨row, json, hx, ?_⟩
  subst hjson
  simp only [Ghost.next, hidle, Phase.consume, consumedRow]

theorem startOrReplay_ensures {α : Type} {a : Authority} {op : String}
    {parse : Json SignRequestCachedResult → Except String α} {fresh : Flow α} {g : Ghost}
    {R : α → Ghost → Prop} (hidle : g.phase = .idle) (hnone : g.consumed = none)
    (hfresh : Ensures (lifecycle agent) fresh (g.started a op) R)
    (hreplay : ∀ x g', Replayed a op parse g x g' → R x g') :
    Ensures (lifecycle agent) (startOrReplay a op a.claims.exp parse fresh) g R := by
  refine .attempt_bind hidle fun r g' hd => ?_
  obtain ⟨-, rfl⟩ := hd
  cases r with
  | ok u => exact hfresh
  | error e =>
    show Ensures _ (if _ then _ else _) _ _
    split
    · exact (replay_ensures a op parse hidle hnone).mono hreplay
    · exact .fail

/-! ## 5. The wallet and the evidence -/

theorem walletSign_ensures {a : Authority} {tx : String} {g : Ghost}
    (h : Cleared agent g "sign_multisig" a tx) :
    Ensures (lifecycle agent) (walletSign a tx) g fun out g' =>
      g' = { g with phase := .completed a tx out } := by
  refine .attempt_bind h fun r g' hd => ?_
  obtain ⟨-, rfl⟩ := hd
  cases r with
  | error e => exact abortAndFail_ensures (.inr (.inr rfl))
  | ok out =>
    refine .perform_bind (.inl ⟨a, tx, out, rfl, rfl, rfl, rfl⟩) fun _ g'' hd => .pure ?_
    obtain ⟨-, rfl⟩ := hd
    rfl

theorem walletSubmit_ensures {a : Authority} {tx : String} {g : Ghost}
    (h : Cleared agent g "submit_multisig" a tx) (hp : g.Proven a) :
    Ensures (lifecycle agent) (walletSubmit a tx) g fun _ _ => True := by
  refine .attempt_bind ⟨h, hp⟩ fun r g' hd => ?_
  obtain ⟨-, rfl⟩ := hd
  cases r with
  | error e => exact abortAndFail_ensures (.inr (.inr rfl))
  | ok out => exact .perform_bind (.inr rfl) fun _ _ _ => .pure trivial

/-- How storing one row changes the list of rows offered to the orchestrator: not at all where
    storing is off, or where the row does not pass and that is tolerated. -/
inductive Stores (agent : SignerAgent) (ev : SignEvent) (before : List (SignEvent × Bool)) :
    List (SignEvent × Bool) → Prop
  | off (hoff : agent.proofStore = false) : Stores agent ev before before
  | malformed {e : String} (hon : agent.proofStore = true) (h : normalizeForStore ev = .error e)
      (hreq : agent.proofStoreRequired = false) : Stores agent ev before before
  | offered {row : SignEvent} {ok : Bool} (hon : agent.proofStore = true)
      (h : normalizeForStore ev = .ok row) (hok : ok = true ∨ agent.proofStoreRequired = false) :
      Stores agent ev before (before ++ [(row, ok)])

/-- No row is offered. -/
def StoresNothing (_ : SignEvent) (before after : List (SignEvent × Bool)) : Prop :=
  after = before

/-- A flow that has completed its request may store this row. -/
def Ghost.MayStore (agent : SignerAgent) (g : Ghost) (ev : SignEvent) : Prop :=
  ∃ a tx out, g.phase = .completed a tx out ∧ EvidenceOf agent a out ev

theorem storeQuorumSignProof_wp {ev : SignEvent} {g : Ghost} (h : g.MayStore agent ev) :
    wp (lifecycle agent) (storeQuorumSignProof ev)
      (fun r g' => (∃ e, normalizeForStore ev = .error e ∧ r = .error e ∧ g' = g)
        ∨ ∃ row, normalizeForStore ev = .ok row
          ∧ g' = { g with offered := g.offered ++ [(row, r.isOk)] }) g := by
  unfold storeQuorumSignProof
  rw [wp_bind, wp_ofExcept]
  cases hrow : normalizeForStore ev with
  | error e => exact .inl ⟨e, rfl, rfl, rfl⟩
  | ok row =>
    obtain ⟨a, tx, out, hphase, hof⟩ := h
    refine wp_perform.mpr ⟨⟨a, tx, out, ev, hphase, hof, hrow⟩, ?_⟩
    rintro r g' ⟨-, rfl⟩
    exact .inr ⟨row, rfl, rfl⟩

theorem maybeStoreQuorumSignProof_ensures {ev : SignEvent} {g : Ghost} (h : g.MayStore agent ev) :
    Ensures (lifecycle agent) (maybeStoreQuorumSignProof agent ev) g fun _ g' =>
      ∃ after, Stores agent ev g.offered after ∧ g' = { g with offered := after } := by
  unfold maybeStoreQuorumSignProof
  split
  · rename_i hoff
    exact .pure ⟨g.offered, .off hoff, rfl⟩
  · rename_i hon
    have hon : agent.proofStore = true := by simpa using hon
    refine .reify_bind (storeQuorumSignProof_wp h) fun r g' hr => ?_
    rcases hr with ⟨e, hrow, rfl, rfl⟩ | ⟨row, hrow, rfl⟩
    · exact .failIf fun hreq =>
        ⟨g'.offered, .malformed hon hrow (Bool.eq_false_iff.mpr hreq), rfl⟩
    · cases r with
      | ok u => exact .pure ⟨_, .offered hon hrow (.inl rfl), rfl⟩
      | error e =>
        refine .failIf fun hreq => ⟨_, .offered hon hrow (.inr ?_), rfl⟩
        exact Bool.eq_false_iff.mpr hreq

/-- Where a flow ends that signed: both rows written, and offered as `P` says. -/
def Evidenced (agent : SignerAgent)
    (P : SignEvent → List (SignEvent × Bool) → List (SignEvent × Bool) → Prop) (a : Authority)
    (tx : String) (g : Ghost) (out : SignedMultisigTx) (g' : Ghost) : Prop :=
  ∃ hash mid after, txsetSha256Hex agent.crypto out.txDataHex = .ok hash
    ∧ P (requestedEvent a) g.offered mid ∧ P (artifactEvent agent.crypto a hash) mid after
    ∧ g' = { g with
        phase := .completed a tx out
        wrote := g.wrote ++ [requestedEvent a, artifactEvent agent.crypto a hash]
        offered := after }

theorem recordEvidence_ensures {store : SignEvent → Flow Unit}
    {P : SignEvent → List (SignEvent × Bool) → List (SignEvent × Bool) → Prop}
    (hstore : ∀ ev g, Ghost.MayStore agent g ev →
      Ensures (lifecycle agent) (store ev) g fun _ g' =>
        ∃ after, P ev g.offered after ∧ g' = { g with offered := after })
    (a : Authority) (tx : String) (out : SignedMultisigTx) (g : Ghost) :
    Ensures (lifecycle agent) (recordEvidence agent store a out)
      { g with phase := .completed a tx out } fun _ g' => Evidenced agent P a tx g out g' := by
  refine .perform_bind ⟨a, tx, out, rfl, .inl rfl⟩ fun _ g₁ hd => ?_
  obtain ⟨-, rfl⟩ := hd
  refine (hstore _ _ ⟨a, tx, out, rfl, .inl rfl⟩).bind fun _ g₂ hg₂ => ?_
  obtain ⟨mid, hmid, rfl⟩ := hg₂
  refine .ofExcept_bind fun hash hhash => ?_
  refine .perform_bind ⟨a, tx, out, rfl, .inr ⟨hash, hhash, rfl⟩⟩ fun _ g₃ hd => ?_
  obtain ⟨-, rfl⟩ := hd
  refine (hstore _ _ ⟨a, tx, out, rfl, .inr ⟨hash, hhash, rfl⟩⟩).mono fun _ g₄ hg₄ => ?_
  obtain ⟨after, hafter, rfl⟩ := hg₄
  refine ⟨hash, mid, after, hhash, hmid, hafter, ?_⟩
  simp only [Ghost.next, List.append_assoc, List.cons_append, List.nil_append]

/-! ## 6. Every flow follows the protocol -/

/-- The wallet may be used by a flow that prepared `job` and holds the authority `a` over it. -/
theorem cleared_armed {g₀ g : Ghost} {job : Job} {op : String} {a : Authority}
    (hp : Prepared agent g₀ job g) (hg : Granted agent g₀.token op a)
    (hae : a.escrowIdHex = job.escrowIdHex) (hhash : a.txsetHashHex = job.txsetHashHex)
    (hescrow : g₀.queueId = none →
      normalizeHexExact a.escrowIdHex 32 "escrow_id_hex" = .ok a.escrowIdHex) :
    Cleared agent (g.armed a op) op a job.txDataHex := by
  obtain ⟨⟨snapshot, described, rfl⟩, hvetted, hash⟩ := hp
  exact ⟨rfl, hg, rfl, rfl, hae ▸ hvetted, hhash ▸ hash, hescrow⟩

theorem Cleared.read_proof {g : Ghost} {op : String} {a : Authority} {tx : String}
    (h : Cleared agent g op a tx) (ev : SignEvent) :
    Cleared agent { g with proof := some ev } op a tx :=
  ⟨h.phase, h.granted, h.request, h.consumed, h.vetted, h.hash, h.escrow⟩

/-- What every flow with a verifier does before it takes hold of its request: nothing that counts
    here, and what comes after it has an authority. -/
theorem authorized_ensures {α : Type} {verify : String → Flow VerifiedSignToken} {op e : String}
    {job : Job} {token : Option String} {k : VerifiedSignToken → Flow α} {g : Ghost}
    {R : α → Ghost → Prop}
    (hverify : ∀ t, Quiet (verify t) fun verified =>
      Granted agent (some t) op (verified.authority job.escrowIdHex job.txsetHashHex))
    (hk : ∀ verified, Granted agent token op
        (verified.authority job.escrowIdHex job.txsetHashHex) →
      Ensures (lifecycle agent) (k verified) g R) :
    Ensures (lifecycle agent) (do
      let t ← okOr token e
      let verified ← verify t
      validateStoredEscrowAdmission agent job.escrowIdHex job.snapshotHash job.action
        verified.claims.escrowAdmissionHash
      k verified) g R := by
  refine .okOr_bind fun t ht => ?_
  refine (hverify t).ensures_bind (lifecycle_ignores agent) fun verified hgranted => ?_
  refine (quiet_validateStoredEscrowAdmission ..).ensures_bind (lifecycle_ignores agent)
    fun _ _ => hk verified ?_
  exact ht ▸ hgranted

theorem Prepared.fresh {g₀ g : Ghost} {job : Job} (h : Prepared agent g₀ job g)
    (hidle : g₀.phase = .idle) (hnone : g₀.consumed = none) :
    g.phase = .idle ∧ g.consumed = none := by
  obtain ⟨_, _, rfl⟩ := h.same
  exact ⟨hidle, hnone⟩

/-- What the signing flow guarantees when it returns. -/
def SignPost (agent : SignerAgent) (escrow tx : String) (g₀ : Ghost) (out : SignedMultisigTx)
    (g' : Ghost) : Prop :=
  ∃ job g a, Prepared agent g₀ job g ∧ job.For agent escrow tx
    ∧ Granted agent g₀.token "sign_multisig" a
    ∧ a.escrowIdHex = job.escrowIdHex ∧ a.txsetHashHex = job.txsetHashHex
    ∧ (Evidenced agent (Stores agent) a job.txDataHex (g.armed a "sign_multisig") out g'
      ∨ Replayed a "sign_multisig" parseCachedSignResult g out g')

theorem signMultisigFlow_ensures (hv : agent.verifier ≠ none) (escrow : String)
    (action : EscrowAction) (tx : String) (token : Option String) :
    Ensures (lifecycle agent) (signMultisigFlow agent escrow action tx token)
      (.start token none (some (.encoded action)))
      (SignPost agent escrow tx (.start token none (some (.encoded action)))) := by
  unfold signMultisigFlow
  refine (prepare_ensures _ _ _ _ rfl).bind fun job g hjob => ?_
  obtain ⟨hprep, hfor⟩ := hjob
  obtain ⟨hidle, hnone⟩ := hprep.fresh rfl rfl
  cases hver : agent.verifier with
  | none => exact absurd hver hv
  | some v =>
    refine authorized_ensures (fun t => quiet_verifySignMultisig hver ..)
      fun verified hgranted => ?_
    refine startOrReplay_ensures hidle hnone ?_ fun x g' hx =>
      ⟨job, g, _, hprep, hfor, hgranted, rfl, rfl, .inr hx⟩
    refine (consumeOrAbort_ensures _ _ hnone).bind fun _ g₁ hg₁ => ?_
    subst hg₁
    have hcleared := cleared_armed hprep hgranted rfl rfl fun _ => normalizeHex_idem hfor.escrow
    refine (walletSign_ensures hcleared).bind fun out g₂ hg₂ => ?_
    subst hg₂
    refine (recordEvidence_ensures (fun _ _ => maybeStoreQuorumSignProof_ensures) _ _ out _).bind
      fun _ g₃ hg₃ => .pure ?_
    exact ⟨job, g, _, hprep, hfor, hgranted, rfl, rfl, .inl hg₃⟩

theorem quiet_sendBodyWithSeq (recipient escrow : String) (msgType : MsgType) (body : EscrowBody)
    (seq : Option Nat) :
    Quiet (sendBodyWithSeq agent recipient escrow msgType body seq) fun _ => True := by
  refine (only_sendBodyWithSeq ..).mono fun c hc => ?_
  cases c <;> first | rfl | exact hc.elim

theorem quiet_of_setsAside {id : Int} (c : Call) (h : Call.setsAside id c) : c.quiet = true := by
  cases c <;> first | rfl | exact h.elim

theorem quiet_deadLetter {α : Type} (row : PendingTxSign) (detail : String) (R : α → Prop) :
    Quiet (deadLetter row detail) R :=
  (only_deadLetter ..).mono quiet_of_setsAside

theorem quiet_deadLetterIf (c : Prop) [Decidable c] (row : PendingTxSign) (detail : String) :
    Quiet (deadLetterIf c row detail) fun _ => ¬ c :=
  (only_deadLetterIf ..).mono quiet_of_setsAside

/-- The calls with which a row is looked into before its token. -/
def Call.weighs (id : Int) (c : Call) : Prop :=
  c.surveys = true ∨ Call.setsAside id c

theorem only_prepareApproval (agent : SignerAgent) (row : PendingTxSign) :
    Only (Call.weighs row.id) (prepareApproval agent row) fun job =>
      job.escrowIdHex = row.escrowIdHex
        ∧ txsetSha256Hex agent.crypto row.multisigTxsetHex = .ok job.txsetHashHex := by
  have hasideIf : ∀ (p : Prop) [Decidable p] (detail : String),
      Only (Call.weighs row.id) (deadLetterIf p row detail) fun _ => ¬ p :=
    fun p _ detail => (only_deadLetterIf p row detail).mono fun _ => .inr
  unfold prepareApproval
  refine .ofExcept_bind fun computed hcomputed => Ensures.bind (hasideIf _ _) fun _ _ _ => ?_
  refine .ofExcept_bind fun _ _ => .perform_bind (.inl rfl) fun active _ _ => ?_
  refine .okOr_bind fun active _ => Ensures.bind (hasideIf _ _) fun _ _ _ => ?_
  refine .ofExcept_bind fun snapshot _ => .ofExcept_bind fun action _ => ?_
  refine Ensures.bind ((only_validateStoredEscrowAdmission ..).mono
    fun c hc => .inl (surveys_of_looks c hc)) fun _ _ _ => .perform_bind (.inl rfl) fun _ _ _ => ?_
  refine Ensures.bind ((only_describeTransfer ..).mono
    fun c hc => .inl (surveys_of_describes c hc)) fun check _ _ => ?_
  split
  · exact (only_deadLetter ..).mono fun _ => .inr
  · exact .pure ⟨rfl, hcomputed⟩

theorem prepareApproval_ensures (row : PendingTxSign) {g : Ghost}
    (haction : g.action = some row.action) :
    Ensures (lifecycle agent) (prepareApproval agent row) g fun job g' =>
      Prepared agent g job g' ∧ job.escrowIdHex = row.escrowIdHex
        ∧ job.txDataHex = row.multisigTxsetHex := by
  have hign := lifecycle_ignores agent
  unfold prepareApproval
  refine .ofExcept_bind fun computed hhash => ?_
  refine (quiet_deadLetterIf ..).ensures_bind hign fun _ _ => ?_
  refine .ofExcept_bind fun _ _ => .perform_bind trivial fun active g₁ hd => ?_
  obtain ⟨-, rfl⟩ := hd
  refine .okOr_bind fun active hactive => ?_
  subst hactive
  refine (quiet_deadLetterIf ..).ensures_bind hign fun _ _ => ?_
  refine .ofExcept_bind fun snapshot hsnapshot => .ofExcept_bind fun action hact => ?_
  have hact : row.action = .encoded action := by
    cases hj : row.action with
    | encoded b => rw [hj] at hact; cases hact; rfl
    | malformed raw err => rw [hj] at hact; cases hact
  refine (quiet_validateStoredEscrowAdmission ..).ensures_bind hign fun _ _ => ?_
  refine .perform_bind trivial fun _ g₂ hd => ?_
  obtain ⟨-, rfl⟩ := hd
  refine (describeTransfer_ensures ..).bind fun check g₃ hd => ?_
  obtain ⟨desc, rfl, hcheck⟩ := hd
  cases hpolicy : validateTransferAgainstSnapshot snapshot action check with
  | error e =>
    refine ((quiet_deadLetter row _ fun _ => False).ensures hign _).mono ?_
    exact fun _ _ h => h.2.elim
  | ok u =>
    refine .pure ⟨⟨⟨_, _, rfl⟩, ?_, hhash⟩, rfl, rfl⟩
    exact ⟨active, snapshot, action, desc, check, rfl, fromStr_eq_ok hsnapshot, hact ▸ haction, rfl,
      hcheck, hpolicy⟩

/-- What signing for an approval guarantees when it returns. -/
def ApproveSignPost (agent : SignerAgent) (row : PendingTxSign) (g₀ : Ghost)
    (out : SignedMultisigTx) (g' : Ghost) : Prop :=
  ∃ job g a, Prepared agent g₀ job g ∧ Granted agent g₀.token "sign_multisig" a
    ∧ a.escrowIdHex = row.escrowIdHex ∧ job.txDataHex = row.multisigTxsetHex
    ∧ a.txsetHashHex = job.txsetHashHex
    ∧ Evidenced agent StoresNothing a job.txDataHex (g.armed a "sign_multisig") out g'

theorem approveSign_ensures (hv : agent.verifier ≠ none) (id : Int) (row : PendingTxSign)
    (token : Option String) :
    Ensures (lifecycle agent) (approveSign agent row token) (.reading token id row)
      (ApproveSignPost agent row (.reading token id row)) := by
  unfold approveSign
  refine (prepareApproval_ensures row rfl).bind fun job g hjob => ?_
  obtain ⟨hprep, hje, hjt⟩ := hjob
  obtain ⟨hidle, hnone⟩ := hprep.fresh rfl rfl
  cases hver : agent.verifier with
  | none => exact absurd hver hv
  | some v =>
    refine authorized_ensures (fun t => quiet_verifySignMultisig hver ..)
      fun verified hgranted => ?_
    refine .perform_bind hidle fun _ g₁ hd => ?_
    obtain ⟨-, rfl⟩ := hd
    refine (consumeOrAbort_ensures _ _ hnone).bind fun _ g₂ hg₂ => ?_
    subst hg₂
    have hcleared := cleared_armed hprep hgranted rfl rfl fun h => absurd h (Option.some_ne_none id)
    refine (walletSign_ensures hcleared).bind fun out g₃ hg₃ => ?_
    subst hg₃
    have hstore : ∀ (ev : SignEvent) (g : Ghost), g.MayStore agent ev →
        Ensures (lifecycle agent) (pure () : Flow Unit) g fun _ g' =>
          ∃ after, StoresNothing ev g.offered after ∧ g' = { g with offered := after } :=
      fun _ g _ => .pure ⟨g.offered, rfl, rfl⟩
    refine (recordEvidence_ensures hstore _ _ out _).bind fun _ g₄ hg₄ => .pure ?_
    exact ⟨job, g, _, hprep, hgranted, hje, hjt, rfl, hg₄⟩

theorem quiet_stageAndSendApproval (id : Int) (row : PendingTxSign) (out : SignedMultisigTx) :
    Quiet (stageAndSendApproval agent id row out) fun _ => True := by
  unfold stageAndSendApproval
  refine .perform_bind rfl fun seq _ _ => .perform_bind rfl fun _ _ _ => ?_
  exact Ensures.bind (quiet_sendBodyWithSeq ..) fun _ _ _ => .perform rfl fun _ _ _ => trivial

theorem quiet_resendApproval (id : Int) (row : PendingTxSign) :
    Quiet (resendApproval agent id row) fun _ => True := by
  unfold resendApproval
  refine .ofExcept_bind fun staged _ => ?_
  exact Ensures.bind (quiet_sendBodyWithSeq ..) fun _ _ _ => .perform rfl fun _ _ _ => trivial

/-- What an approval guarantees when it returns: it signed, or it sent again what was staged. -/
def ApprovePost (agent : SignerAgent) (token : Option String) (id : Int) (row : PendingTxSign)
    (g' : Ghost) : Prop :=
  (row.status = .pending ∧ ∃ out, ApproveSignPost agent row (.reading token id row) out g')
    ∨ (row.status = .approvedSending ∧ g' = .reading token id row)

theorem approveRow_ensures (hv : agent.verifier ≠ none) (id : Int) (token : Option String)
    (row : PendingTxSign) :
    Ensures (lifecycle agent) (approveRow agent id token row) (.reading token id row)
      fun _ g' => ApprovePost agent token id row g' := by
  have hign := lifecycle_ignores agent
  unfold approveRow
  cases hstatus : row.status with
  | approvedSending =>
    refine ((quiet_resendApproval id row).ensures hign _).mono fun _ _ h => .inr ?_
    exact ⟨hstatus, h.1⟩
  | pending =>
    refine (approveSign_ensures hv id row token).bind fun out g₁ hout => ?_
    refine ((quiet_stageAndSendApproval id row out).ensures hign _).mono fun _ g₂ h => .inl ?_
    exact ⟨hstatus, out, h.1 ▸ hout⟩
  | approved => exact .fail
  | approvedSent => exact .fail
  | rejectedSending => exact .fail
  | rejected => exact .fail
  | failedDeadLetter => exact .fail

theorem approvePending_ensures (hv : agent.verifier ≠ none) (id : Int) (token : Option String) :
    Ensures (lifecycle agent) (approvePending agent id token) (.start token (some id) none)
      fun _ _ => True := by
  unfold approvePending
  refine .perform_bind rfl fun row g hd => .okOr_bind fun row hrow => ?_
  obtain ⟨-, rfl⟩ := hd
  subst hrow
  exact (approveRow_ensures hv id token row).mono fun _ _ _ => trivial

theorem quiet_stageAndSendRejection (id : Int) (row : PendingTxSign) (reason : String) :
    Quiet (stageAndSendRejection agent id row reason) fun _ => True := by
  unfold stageAndSendRejection
  refine .perform_bind rfl fun seq _ _ => .perform_bind rfl fun _ _ _ => ?_
  exact Ensures.bind (quiet_sendBodyWithSeq ..) fun _ _ _ => .perform rfl fun _ _ _ => trivial

theorem quiet_resendRejection (id : Int) (row : PendingTxSign) :
    Quiet (resendRejection agent id row) fun _ => True := by
  unfold resendRejection
  refine .ofExcept_bind fun staged _ => ?_
  exact Ensures.bind (quiet_sendBodyWithSeq ..) fun _ _ _ => .perform rfl fun _ _ _ => trivial

theorem rejectPending_ensures (id : Int) (reason : String) :
    Ensures (lifecycle agent) (rejectPending agent id reason) (.start none (some id) none)
      fun _ _ => True := by
  have hign := lifecycle_ignores agent
  unfold rejectPending
  refine .perform_bind rfl fun row g₁ _ => .okOr_bind fun row _ => ?_
  unfold rejectRow
  cases row.status with
  | rejectedSending =>
    exact ((quiet_resendRejection id row).ensures hign _).mono fun _ _ _ => trivial
  | pending =>
    exact ((quiet_stageAndSendRejection id row reason).ensures hign _).mono fun _ _ _ => trivial
  | approved => exact .fail
  | approvedSending => exact .fail
  | approvedSent => exact .fail
  | rejected => exact .fail
  | failedDeadLetter => exact .fail

theorem checkLocalProof_ensures {a : Authority} {jti : String} {g : Ghost}
    (h : g.phase = .armed a.reqId jti) :
    Ensures (lifecycle agent) (checkLocalProof a a.claims) g fun _ g' =>
      ∃ ev, g' = { g with proof := some ev } ∧ g'.Proven a := by
  have habort : ∀ ev, May agent { g with proof := ev } (.abortSignRequest a.reqId) :=
    fun _ => .inr (.inl ⟨jti, h⟩)
  refine .perform_bind trivial fun proof g₁ hd => ?_
  obtain ⟨hkey, rfl⟩ := hd
  cases proof with
  | none => exact abortAndFail_ensures (habort g.proof)
  | some ev =>
    refine .okOr_bind fun jti' hjti => .okOr_bind fun reqId' _ => ?_
    split
    · exact abortAndFail_ensures (habort (some ev))
    · rename_i hsame
      rw [not_or, not_not] at hsame
      exact .pure ⟨ev, rfl, ev, rfl, hkey, hsame.1 ▸ hjti⟩

theorem checkSellerProof_ensures {a : Authority} {jti : String} {g : Ghost}
    (h : g.phase = .armed a.reqId jti) :
    Ensures (lifecycle agent) (checkSellerProof agent a a.claims) g fun _ g' => g' = g := by
  have habort : May agent g (.abortSignRequest a.reqId) := .inr (.inl ⟨jti, h⟩)
  unfold checkSellerProof
  split
  · exact abortAndFail_ensures habort
  · exact abortAndFail_ensures habort
  · refine .reify_bind ((only_verifySubmitSeller (fun _ _ => rfl) ..).wp
      (lifecycle_ignores agent) g) ?_
    rintro r g' ⟨rfl, -⟩
    cases r with
    | ok u => exact .pure rfl
    | error e => exact abortAndFail_ensures habort

theorem submitMultisigFlow_ensures (hv : agent.verifier ≠ none) (escrow : String)
    (action : EscrowAction) (tx : String) (token : Option String) :
    Ensures (lifecycle agent) (submitMultisigFlow agent escrow action tx token)
      (.start token none (some (.encoded action))) fun _ _ => True := by
  unfold submitMultisigFlow
  refine (prepare_ensures _ _ _ _ rfl).bind fun job g hjob => ?_
  obtain ⟨hprep, hfor⟩ := hjob
  obtain ⟨hidle, hnone⟩ := hprep.fresh rfl rfl
  cases hver : agent.verifier with
  | none => exact absurd hver hv
  | some v =>
    refine authorized_ensures (fun t => quiet_verifySubmitMultisig hver ..)
      fun verified hgranted => ?_
    refine startOrReplay_ensures hidle hnone ?_ fun _ _ _ => trivial
    refine (consumeOrAbort_ensures _ _ hnone).bind fun _ g₁ hg₁ => ?_
    subst hg₁
    have hcleared := cleared_armed hprep hgranted rfl rfl fun _ => normalizeHex_idem hfor.escrow
    refine (checkLocalProof_ensures hcleared.phase).bind fun _ g₂ hg₂ => ?_
    obtain ⟨ev, rfl, hproven⟩ := hg₂
    have hcleared := hcleared.read_proof ev
    refine (checkSellerProof_ensures hcleared.phase).bind fun _ g₃ hg₃ => ?_
    subst hg₃
    exact walletSubmit_ensures hcleared hproven

end Nexum.Signer
