import Nexum.Signer.Admitted

/-!
# Does a queued request stay approvable?

A signing request is checked when its message is handled, and once more, by other code, when it is
approved. What the first check accepted the second should accept too, as long as nothing it looks
at has changed.

One thing both look at is changed by *other requests*: the table of admissions has one row for each
escrow, and whoever handles a signing request for the escrow writes it, before the request is
checked any further. A queued release is then refused because of the refund that came after it.
The row is also keyed by the escrow id **as the artifact spells it** and looked up by the id as the
request spells it, while the two were compared ignoring case.

Between these two, everything the approval checks follows from what the handler checked.
-/

namespace Nexum.Signer

open Nexum.Lib Nexum.Lib.Prog
open Nexum.Transport

variable {agent : SignerAgent}

/-! ## 1. What the stored artifact stays -/

/-- For the approval the two artifacts are the same: they differ in their signatures at most. -/
structure SameTerms (agent : SignerAgent) (a b : EscrowAdmissionArtifact) : Prop where
  action : b.action = a.action
  snapshotHash : eqIgnoreAsciiCase b.snapshotHashHex a.snapshotHashHex = true
  hash : b.hashHex agent.crypto.toAdmissionCrypto = a.hashHex agent.crypto.toAdmissionCrypto

theorem SameTerms.refl (a : EscrowAdmissionArtifact) : SameTerms agent a a :=
  ⟨rfl, eqIgnoreAsciiCase_iff.mpr rfl, rfl⟩

/-- Once the artifact was stored, nobody stores one on other terms under its escrow id. -/
def KeepsTerms (agent : SignerAgent) (artifact : EscrowAdmissionArtifact) (_ : World)
    (l : List TaskEvent) : TaskEvent → Prop
  | .did _ _ (.upsertEscrowAdmissionArtifact e row) _ =>
    e = artifact.escrowIdHex → Stored l e (admissionRow agent artifact) →
      ∀ b, row.artifactJson = .encoded b → SameTerms agent artifact b
  | _ => True

/-- The table holds an accepted artifact on these terms. -/
def Holds (agent : SignerAgent) (artifact : EscrowAdmissionArtifact) (w : World) : Prop :=
  ∃ b, w.db.admissions artifact.escrowIdHex = some (admissionRow agent b)
    ∧ b.escrowIdHex = artifact.escrowIdHex ∧ Accepted agent b ∧ SameTerms agent artifact b

section
variable {artifact : EscrowAdmissionArtifact} {l : List TaskEvent} {w w' : World} {c : Call}
  {r : Except String c.Out} {i : Nat} {task : Task}

theorem Holds.of_admissions (h : Holds agent artifact w)
    (heq : w'.db.admissions = w.db.admissions) : Holds agent artifact w' := by
  obtain ⟨b, hrow, hrest⟩ := h
  exact ⟨b, heq ▸ hrow, hrest⟩

theorem KeepsTerms.of_stores {row : EscrowAdmissionArtifactRow} {b : EscrowAdmissionArtifact}
    (hok : KeepsTerms agent artifact w l (.did i task c r))
    (hstores : StoresArtifact artifact.escrowIdHex row c r) (hrow : row.artifactJson = .encoded b)
    (h : Stored l artifact.escrowIdHex (admissionRow agent artifact)) :
    SameTerms agent artifact b := by
  cases c with
  | upsertEscrowAdmissionArtifact e stored =>
    cases r with
    | error err => exact hstores.elim
    | ok u =>
      obtain ⟨rfl, rfl⟩ := hstores
      exact hok rfl h b hrow
  | _ => exact hstores.elim

theorem holds_stores {e : String} {b : EscrowAdmissionArtifact} (hkey : b.escrowIdHex = e)
    (haccepted : Accepted agent b) (hstores : StoresArtifact e (admissionRow agent b) c r)
    (hok : KeepsTerms agent artifact w l (.did i task c r))
    (hnew : w'.db.admissions = Function.update w.db.admissions e (some (admissionRow agent b)))
    (hl : Stored l artifact.escrowIdHex (admissionRow agent artifact) → Holds agent artifact w)
    (h : Stored (.did i task c r :: l) artifact.escrowIdHex (admissionRow agent artifact)) :
    Holds agent artifact w' := by
  by_cases he : artifact.escrowIdHex = e
  · refine ⟨b, by rw [hnew, he, Function.update_self], hkey.trans he.symm, haccepted, ?_⟩
    -- it is the artifact itself, or it came after the artifact
    rcases h.of_did with hhere | hbefore
    · obtain ⟨-, hrow⟩ := hhere.unique hstores
      obtain rfl : artifact = b := Json.encoded.inj (congrArg (·.artifactJson) hrow)
      exact .refl artifact
    · exact hok.of_stores (he ▸ hstores) rfl hbefore
  · rcases h.of_did with hhere | hbefore
    · exact absurd (hhere.unique hstores).1 he
    · obtain ⟨a, hrow, hrest⟩ := hl hbefore
      refine ⟨a, ?_, hrest⟩
      rw [hnew, Function.update_of_ne he, hrow]

/-- **One call leaves an artifact on these terms in the table.** -/
theorem holds_did (hexec : exec w c r w')
    (hobeys : Pool.Obeys Seen.next (Seen.May agent) Seen.start (.did i task c r :: l))
    (hok : KeepsTerms agent artifact w l (.did i task c r))
    (hl : Stored l artifact.escrowIdHex (admissionRow agent artifact) → Holds agent artifact w)
    (h : Stored (.did i task c r :: l) artifact.escrowIdHex (admissionRow agent artifact)) :
    Holds agent artifact w' := by
  rcases exec_admissions hexec with ⟨hsame, hnone⟩ | ⟨e, row, hstores, hnew⟩
  · have hbefore := h.of_did.resolve_left (hnone _ _)
    exact (hl hbefore).of_admissions hsame
  · obtain ⟨b, rfl, hkey, haccepted⟩ : Keyed agent e row := keyed_of_stored hobeys (.here hstores)
    exact holds_stores hkey haccepted hstores hok hnew hl h

end

variable {v : ActionTokenVerifier} {artifact : EscrowAdmissionArtifact} {w₀ : World}
  {p : Pool World Task Call Call.Out String Unit}

theorem run_holds (hv : agent.verifier = some v) (hb : agent.bundle ≠ none)
    (hrun : Pool.Run (guarded agent) (KeepsTerms agent artifact) w₀ p)
    (h : Stored p.log artifact.escrowIdHex (admissionRow agent artifact)) :
    Holds agent artifact p.state := by
  have hinv : Pool.Obeys Seen.next (Seen.May agent) Seen.start p.log →
      Stored p.log artifact.escrowIdHex (admissionRow agent artifact) →
      Holds agent artifact p.state := by
    refine hrun.world (I := fun w l => Pool.Obeys Seen.next (Seen.May agent) Seen.start l →
      Stored l artifact.escrowIdHex (admissionRow agent artifact) → Holds agent artifact w)
      ?_ ?_ ?_ ?_
    · rintro - ⟨i, task, c, r, hmem, -⟩
      exact absurd hmem List.not_mem_nil
    · intro w l i task c r w' hl hexec hok hobeys
      exact holds_did hexec hobeys hok (hl hobeys.2)
    · intro w l ev hl hev hobeys hstored
      cases ev with
      | did i task c r => exact absurd rfl (hev i task c r)
      | _ => exact hl hobeys (hstored.of_other hev)
    · intro w l w' hl hext hobeys hstored
      exact (hl hobeys hstored).of_admissions hext
  exact hinv (hrun.obeys (Task.follows hv hb)) h

/-! ## 2. The approval, when nothing fails -/

section
variable {o : Oracle} {w : World} {snapshot : ContractSnapshot} {req : TxSignReqBody}
  {env : NxmsEnvelope} {active : SnapshotRow} {row stored : PendingTxSign} {g : Seen}

theorem validateStored_holds {escrow snapshotHash hash : String} {action : EscrowAction}
    {expected : Option String} (hholds : Holds agent artifact w)
    (hescrow : artifact.escrowIdHex = escrow)
    (hverified : verifyEscrowAdmissionArtifact agent artifact escrow snapshotHash action = .ok hash)
    (hexp : checkExpectedAdmission (artifact.hashHex agent.crypto.toAdmissionCrypto) expected
      = .ok ()) :
    (validateStoredEscrowAdmission agent escrow snapshotHash action expected).eval (honest o) w
      = (.ok (), w) := by
  obtain ⟨b, hrow, hkey, hb, hterms⟩ := hholds
  obtain ⟨⟨bundle, hbundle, -⟩, -, hsnapshot, haction, -⟩ :=
    verifyEscrowAdmissionArtifact_eq_ok.mp hverified
  have hagain : verifyEscrowAdmissionArtifact agent b escrow snapshotHash action
      = .ok (b.hashHex agent.crypto.toAdmissionCrypto) := by
    refine verifyEscrowAdmissionArtifact_eq_ok.mpr ⟨hb, ?_, ?_, hterms.action.trans haction, rfl⟩
    · rw [hkey, hescrow, eqIgnoreAsciiCase_iff]
    · rw [eqIgnoreAsciiCase_iff] at hsnapshot ⊢
      exact (eqIgnoreAsciiCase_iff.mp hterms.snapshotHash).trans hsnapshot
  unfold validateStoredEscrowAdmission
  rw [hbundle]
  have hread : (ask (.getEscrowAdmissionArtifact escrow) : Flow _).eval (honest o) w
      = (.ok (some (admissionRow agent b)), w) := by
    show ((Except.ok (w.db.admissions escrow) : Except String _), w) = _
    rw [← hescrow, hrow]
  refine eval_ok_bind hread (eval_ok_bind (a := admissionRow agent b) rfl ?_)
  refine eval_ok_bind (eval_ofExcept (a := b) rfl w) (eval_ok_bind (eval_ofExcept hagain w) ?_)
  have hdrift : ¬ eqIgnoreAsciiCase (b.hashHex agent.crypto.toAdmissionCrypto)
      (admissionRow agent b).artifactHashHex = false := by
    simp [eqIgnoreAsciiCase_iff, admissionRow]
  exact eval_ok_bind (eval_failIf hdrift w) (eval_ofExcept (hterms.hash ▸ hexp) w)

/-- The row in the queue is the one that was put there, not decided yet; its id is the
    database's. -/
@[mk_iff] structure Queues (row stored : PendingTxSign) : Prop where
  escrowIdHex : stored.escrowIdHex = row.escrowIdHex
  action : stored.action = row.action
  snapshotHashHex : stored.snapshotHashHex = row.snapshotHashHex
  multisigTxsetHex : stored.multisigTxsetHex = row.multisigTxsetHex
  txsetHashHex : stored.txsetHashHex = row.txsetHashHex
  status : stored.status = row.status

instance (row stored : PendingTxSign) : Decidable (Queues row stored) :=
  decidable_of_iff' _ (queues_iff row stored)

theorem eval_deadLetterIf {c : Prop} [Decidable c] (hc : ¬ c) (detail : String) :
    (deadLetterIf c stored detail).eval (honest o) w = (.ok (), w) := by
  unfold deadLetterIf
  rw [if_neg hc]
  rfl

theorem eval_describeTransfer {context tx : String} {desc : List DescribeTransferRow}
    {check : TransferCheck} (htells : o (.describeTransfer tx) = some desc)
    (hcheck : transferCheckFromDesc desc = .ok check) :
    (describeTransfer context tx).eval (honest o) w = (.ok check, w) := by
  have hcall : (performOr (.describeTransfer tx) (context ++ ·) : Flow _).eval (honest o) w
      = (.ok (some desc), w) := by
    rw [← htells]
    rfl
  unfold describeTransfer
  refine eval_ok_bind hcall (eval_ok_bind (a := desc) rfl (eval_ofExcept ?_ w))
  exact Check.mapError_eq_ok.mpr hcheck

/-- The job an approval of the row finds. -/
def queuedJob (agent : SignerAgent) (req : TxSignReqBody) (snapshot : ContractSnapshot)
    (row : PendingTxSign) : Job :=
  ⟨req.escrowIdHex, req.action, req.multisigTxsetHex, row.txsetHashHex,
    canonicalPolicyHashSha256Hex agent.crypto snapshot⟩

/-- **What the handler accepted the approval accepts.** -/
theorem prepareApproval_accepts (h : g.Accepts agent env req artifact active snapshot row)
    (hspelled : artifact.escrowIdHex = req.escrowIdHex) (hqueues : Queues row stored)
    (hholds : Holds agent artifact w)
    (hactive : w.db.activeSnapshotForEscrow req.escrowIdHex = some active)
    (htells : ∀ desc, g.described = some (req.multisigTxsetHex, desc) →
      o (.describeTransfer req.multisigTxsetHex) = some desc) :
    (prepareApproval agent stored).eval (honest o) w
      = (.ok (queuedJob agent req snapshot row), w) := by
  obtain ⟨hash, hverified⟩ := h.verified
  obtain ⟨named, hnormal, hnamed⟩ := h.named
  obtain ⟨desc, check, hdesc, hcheck, hpolicy⟩ := h.described
  obtain ⟨hnormal, hcase⟩ := normalizeHex_congr hnormal hnamed
    "pending.snapshot_hash_hex must be 64 hex chars"
  have hstored : checkStoredHash agent.crypto stored row.txsetHashHex = true := by
    simp [checkStoredHash, hqueues.txsetHashHex, eqIgnoreAsciiCase_iff]
  have hread : (ask (.activeSnapshotForEscrow req.escrowIdHex) : Flow _).eval (honest o) w
      = (.ok (some active), w) := by
    rw [← hactive]
    rfl
  unfold prepareApproval
  rw [hqueues.multisigTxsetHex, hqueues.snapshotHashHex, hqueues.escrowIdHex, hqueues.action,
    h.multisigTxsetHex, h.snapshotHashHex, h.escrowIdHex, h.action]
  refine eval_ok_bind (eval_ofExcept h.hash w) (eval_ok_bind (eval_deadLetterIf ?_ _) ?_)
  · simp [hstored]
  refine eval_ok_bind (eval_ofExcept hnormal w) (eval_ok_bind hread ?_)
  refine eval_ok_bind (a := active) rfl (eval_ok_bind (eval_deadLetterIf ?_ _) ?_)
  · simp [hcase]
  have hdecoded : active.snapshotJson.fromStr = .ok snapshot := by rw [h.decoded]; rfl
  refine eval_ok_bind (eval_ofExcept hdecoded w) (eval_ok_bind (a := req.action) rfl ?_)
  refine eval_ok_bind (validateStored_holds hholds hspelled hverified rfl) ?_
  have hopen : (ask .ensureWalletOpen : Flow _).eval (honest o) w
      = (.ok (o .ensureWalletOpen), w) := rfl
  refine eval_ok_bind hopen ?_
  refine eval_ok_bind (eval_describeTransfer (htells desc hdesc) hcheck) ?_
  rw [hpolicy]
  rfl

theorem eval_tells {α : Type} {q : Flow α} {R : α → Prop} (h : Only (·.tells = true) q R) {a : α}
    (heval : (q.eval (honest o) w).1 = .ok a) : q.eval (honest o) w = (.ok a, w) := by
  have hcall : ∀ (w' : World) (u : Unit) (c : Call), w' = w →
      (Prog.only (·.tells = true) : Rules Call Call.Out String Unit).may u c →
      ∃ u', (Prog.only (·.tells = true)).does u c (honest o w' c).1 u' ∧ (honest o w' c).2 = w := by
    rintro _ u c rfl hc
    refine ⟨(), trivial, ?_⟩
    cases c <;> first | rfl | cases hc
  obtain ⟨-, -, hw⟩ := eval_inv hcall (ensures_iff.mp h) (s := w) rfl
  exact Prod.ext heval hw

theorem checkExpectedAdmission_of_named {claims : ActionClaims}
    (h : NamedBy agent artifact claims) :
    checkExpectedAdmission (artifact.hashHex agent.crypto.toAdmissionCrypto)
      claims.escrowAdmissionHash = .ok () := by
  unfold checkExpectedAdmission
  cases hhash : claims.escrowAdmissionHash with
  | none => rfl
  | some hash =>
    simp only [Check.bind_eq_ok, Check.failIf_eq_ok, not_not]
    exact ⟨_, h hash hhash, rfl⟩

end

/-! ## 3. Queued requests stay approvable on the same terms -/

/-- A token for the row, the snapshot and the artifact that was not used before, for a request
    that was not made before. -/
structure ValidFor (agent : SignerAgent) (v : ActionTokenVerifier) (o : Oracle) (w : World)
    (token : String) (row : PendingTxSign) (snapshot : ContractSnapshot)
    (artifact : EscrowAdmissionArtifact) (t : VerifiedSignToken) : Prop where
  verified : ((verifySignMultisig agent v token row.escrowIdHex row.txsetHashHex
    (canonicalPolicyHashSha256Hex agent.crypto snapshot)).eval (honest o) w).1 = .ok t
  named : NamedBy agent artifact t.claims
  fresh : w.db.requests t.reqId = none
  unused : w.db.consumed t.claims.jti = none

/-- The row `row`, put in the queue by the task `i` after the events `l`, waits in `w` under the
    number `id`; the escrow's snapshot and the wallet's description are as the task found them,
    and the token is valid for it. -/
structure Waits (agent : SignerAgent) (v : ActionTokenVerifier) (o : Oracle) (env : NxmsEnvelope)
    (artifact : EscrowAdmissionArtifact) (i : Nat) (l : List TaskEvent) (row : PendingTxSign)
    (id : Int) (token : String) (w : World) : Prop where
  queued : ∃ stored, w.db.getPending id = some stored ∧ Queues row stored
  valid : ∃ active snapshot t,
    (seenOf (.envelope env) i l).snapshot = some (row.escrowIdHex, active)
      ∧ w.db.activeSnapshotForEscrow row.escrowIdHex = some active
      ∧ active.snapshotJson = .encoded snapshot ∧ ValidFor agent v o w token row snapshot artifact t
  described : ∀ desc, (seenOf (.envelope env) i l).described = some (row.multisigTxsetHex, desc) →
    o (.describeTransfer row.multisigTxsetHex) = some desc

/-- Signing the row's transaction set is among the calls. -/
def ReachesWallet (row : PendingTxSign) (calls : List Call) : Prop :=
  ∃ a, .signMultisig (some a) row.multisigTxsetHex ∈ calls

section
variable {o : Oracle} {env : NxmsEnvelope} {req : TxSignReqBody} {i : Nat}
  {l : List TaskEvent} {row stored : PendingTxSign} {id : Int} {token : String} {w : World}

theorem approveFresh_reaches {a : Authority} (hunused : w.db.consumed a.jti = none)
    (exp : Nat) (tx : String) :
    .signMultisig (some a) tx ∈ (approveFresh agent a exp tx).calls (honest o) w := by
  have hconsume : (consumeOrAbort a "sign_multisig" exp).eval (honest o) w
      = (.ok (), (honest o w (consumeJti a "sign_multisig" exp)).2) := by
    have hok : (honest o w (consumeJti a "sign_multisig" exp)).1 = .ok () := by
      simp [honest, World.serve, World.transact, SignerDb.consumeActionJti, hunused]
    unfold consumeOrAbort
    refine eval_ok_bind (a := .ok ()) ?_ rfl
    show ((Except.ok (honest o w _).1 : Except String _), _) = _
    rw [hok]
  unfold approveFresh
  refine calls_right hconsume (calls_left ?_)
  unfold walletSign
  exact List.mem_cons_self

/-- **On these terms the approval of a waiting row gets to the wallet.** -/
theorem approvePending_reaches (hv : agent.verifier = some v)
    (haccepts : ∃ active snapshot, (seenOf (.envelope env) i l).Accepts agent env req artifact
      active snapshot row) (hspelled : artifact.escrowIdHex = req.escrowIdHex)
    (hholds : Holds agent artifact w)
    (hwaits : Waits agent v o env artifact i l row id token w) :
    ReachesWallet row ((approvePending agent id (some token)).calls (honest o) w) := by
  obtain ⟨active, snapshot, haccepts⟩ := haccepts
  obtain ⟨stored, hstored, hqueues⟩ := hwaits.queued
  obtain ⟨active', snapshot', t, hread, hactive, hdecoded, hvalid⟩ := hwaits.valid
  -- the snapshot that is active is the one the handler read
  have hescrow := haccepts.escrowIdHex
  obtain rfl : active = active' := by
    rw [haccepts.read, Option.some.injEq, Prod.mk.injEq] at hread
    exact hread.2
  obtain rfl : snapshot = snapshot' := Json.encoded.inj (haccepts.decoded.symm.trans hdecoded)
  have htells := hwaits.described
  rw [haccepts.multisigTxsetHex] at htells
  have hjob := prepareApproval_accepts haccepts hspelled hqueues hholds (hescrow ▸ hactive) htells
  have htoken := eval_tells (tells_verifyCommon ..) hvalid.verified
  rw [hescrow] at htoken
  obtain ⟨hash, hverified⟩ := haccepts.verified
  have hagain := validateStored_holds (o := o) hholds hspelled hverified
    (checkExpectedAdmission_of_named hvalid.named)
  have hget : (ask (.getPending id) : Flow _).eval (honest o) w = (.ok (some stored), w) :=
    eval_perform (Prod.ext (congrArg Except.ok hstored) rfl)
  have hpending : stored.status = .pending := hqueues.status.trans haccepts.status
  let a := t.authority req.escrowIdHex row.txsetHashHex
  have hstart : (ask (startRequest a "sign_multisig") : Flow _).eval (honest o) w
      = (.ok (), (honest o w (startRequest a "sign_multisig")).2) := by
    have hok : (honest o w (startRequest a "sign_multisig")).1 = .ok () := by
      have hfresh : w.db.requests a.reqId = none := hvalid.fresh
      simp [honest, World.serve, World.transact, SignerDb.startSignRequest, hfresh]
    exact eval_perform (Prod.ext hok rfl)
  refine ⟨a, ?_⟩
  unfold approvePending
  refine calls_right hget (calls_right (a := stored) rfl ?_)
  unfold approveRow
  rw [hpending]
  refine calls_left ?_
  unfold approveSign
  refine calls_right hjob ?_
  rw [hv]
  refine calls_right (a := token) rfl (calls_right htoken (calls_right hagain ?_))
  refine calls_right hstart ?_
  rw [haccepts.multisigTxsetHex]
  refine approveFresh_reaches ?_ t.claims.exp _
  have hframe : (honest o w (startRequest a "sign_multisig")).2.db.consumed = w.db.consumed := by
    simp only [honest, World.serve, World.transact, SignerDb.startSignRequest, Option.getD_some]
    split <;> rfl
  rw [hframe]
  exact hvalid.unused

theorem stored_of_seen {task : Task} {x : String × EscrowAdmissionArtifactRow}
    (h : (seenOf task i l).stored = some x) : Stored l x.1 x.2 := by
  unfold seenOf at h
  induction l with
  | nil => cases h
  | cons ev l ih =>
    cases ev with
    | did j task' c r =>
      simp only [Pool.book] at h
      split at h
      · cases c with
        | upsertEscrowAdmissionArtifact e stored =>
          cases r with
          | error err => exact (ih h).cons
          | ok u =>
            obtain rfl : (e, stored) = x := Option.some.inj h
            exact .here ⟨rfl, rfl⟩
        | _ => cases r <;> exact (ih h).cons
      · exact (ih h).cons
    | _ => exact (ih h).cons

theorem Asks.unique {req' : TxSignReqBody} (h : Asks agent env req) (h' : Asks agent env req') :
    req = req' := by
  obtain ⟨payload, hopen, hbody⟩ := h
  obtain ⟨payload', hopen', hbody'⟩ := h'
  obtain rfl : payload = payload' := Except.ok.inj (hopen.symm.trans hopen')
  exact EscrowBody.txSignReq.inj (Except.ok.inj (hbody.symm.trans hbody'))

/-- **Queued requests stay approvable**, as long as nobody stores an artifact on other terms under
    the escrow id, and the artifact spells that id as the request does. -/
theorem queued_approvable (hv : agent.verifier = some v) (hb : agent.bundle ≠ none)
    (hasks : Asks agent env req) (hbrought : req.escrowAdmissionArtifact = some artifact)
    (hspelled : artifact.escrowIdHex = req.escrowIdHex)
    (hrun : Pool.Run (guarded agent) (KeepsTerms agent artifact) w₀ p) {l₁ : List TaskEvent}
    (hlog : p.log = l₁ ++ .did i (.envelope env) (.enqueuePendingTx row) (.ok ()) :: l)
    (hwaits : Waits agent v o env artifact i l row id token p.state) :
    ReachesWallet row ((approvePending agent id (some token)).calls (honest o) p.state) := by
  have hobeys := hrun.obeys (Task.follows hv hb)
  rw [hlog] at hobeys
  obtain ⟨env', req', artifact', active, snapshot, haccepts⟩ := hobeys.split
  -- what was accepted is what the envelope brought
  obtain rfl : env = env' := Task.envelope.inj ((seenOf_task ..).symm.trans haccepts.task)
  obtain rfl : req = req' := hasks.unique haccepts.asks
  obtain rfl : artifact = artifact' := Option.some.inj (hbrought.symm.trans haccepts.brought)
  obtain ⟨j, task, c, r, hmem, hstores⟩ := stored_of_seen haccepts.stored
  have hstored : Stored p.log artifact.escrowIdHex (admissionRow agent artifact) := by
    refine ⟨j, task, c, r, ?_, hstores⟩
    rw [hlog]
    exact List.mem_append_right _ (List.mem_cons_of_mem _ hmem)
  exact approvePending_reaches hv ⟨active, snapshot, haccepts⟩ hspelled
    (run_holds hv hb hrun hstored) hwaits

end

/-! ## 4. Two rehearsed queues -/

/-- The row that the sample envelope puts in the queue, and what happened before. -/
def queuedAt : List TaskEvent → Option (PendingTxSign × List TaskEvent)
  | [] => none
  | .did 0 (.envelope env) (.enqueuePendingTx row) (.ok _) :: l =>
    if env = sampleEnvelope then some (row, l) else queuedAt l
  | _ :: l => queuedAt l

theorem queuedAt_sound {l l₂ : List TaskEvent} {row : PendingTxSign}
    (h : queuedAt l = some (row, l₂)) :
    ∃ l₁, l = l₁ ++ .did 0 (.envelope sampleEnvelope) (.enqueuePendingTx row) (.ok ()) :: l₂ := by
  have hcons : ∀ (ev : TaskEvent) {l : List TaskEvent}, (∃ l₁, l = l₁ ++
      .did 0 (.envelope sampleEnvelope) (.enqueuePendingTx row) (.ok ()) :: l₂) →
      ∃ l₁, ev :: l = l₁ ++
        .did 0 (.envelope sampleEnvelope) (.enqueuePendingTx row) (.ok ()) :: l₂ := by
    rintro ev l ⟨l₁, rfl⟩
    exact ⟨ev :: l₁, rfl⟩
  fun_induction queuedAt l with
  | case1 => cases h
  | case2 row' u l =>
    cases h
    exact ⟨[], rfl⟩
  | case3 env row' u l henv ih => exact hcons _ (ih h)
  | case4 ev l hev ih => exact hcons _ (ih h)

def guardedVerifier : ActionTokenVerifier :=
  ⟨true, 0, 100, .arbiter, "sandbox", "wallet", "stagenet", none⟩

/-- What the sample envelope brings along. -/
def releaseArtifact : EscrowAdmissionArtifact := sampleArtifact .release 'c'

/-- The token is the first one for the release. -/
def validForSample (row : PendingTxSign) (w : World) : Bool :=
  match ((verifySignMultisig guardedAgent guardedVerifier "sign-a-1" row.escrowIdHex
    row.txsetHashHex (canonicalPolicyHashSha256Hex guardedAgent.crypto sellerGets100)).eval
      (honest guardedOracle) w).1 with
  | .ok t => (w.db.requests t.reqId).isNone && (w.db.consumed t.claims.jti).isNone
    && t.claims.escrowAdmissionHash = some (digit64 'c')
  | .error _ => false

/-- A check that the row waits under the number 1. -/
def waitsSample (row : PendingTxSign) (l : List TaskEvent) (w : World) : Bool :=
  let g := seenOf (.envelope sampleEnvelope) 0 l
  (w.db.getPending 1).any (Queues row ·)
    && g.snapshot.any (fun x => x.1 = row.escrowIdHex
      ∧ w.db.activeSnapshotForEscrow row.escrowIdHex = some x.2
      ∧ x.2.snapshotJson = .encoded sellerGets100)
    && validForSample row w
    && g.described.all (fun x => guardedOracle (.describeTransfer row.multisigTxsetHex) = some x.2)

theorem namedBy_release {claims : ActionClaims}
    (h : claims.escrowAdmissionHash = some (digit64 'c')) :
    NamedBy guardedAgent releaseArtifact claims := by
  intro hash hhash
  obtain rfl : digit64 'c' = hash := Option.some.inj (h.symm.trans hhash)
  decide +kernel

theorem validForSample_sound {row : PendingTxSign} {w : World} (h : validForSample row w = true) :
    ∃ t, ValidFor guardedAgent guardedVerifier guardedOracle w "sign-a-1" row sellerGets100
      releaseArtifact t := by
  unfold validForSample at h
  split at h
  · rename_i t ht
    simp only [Bool.and_eq_true, Option.isNone_iff_eq_none, decide_eq_true_eq] at h
    obtain ⟨⟨hfresh, hunused⟩, hnamed⟩ := h
    exact ⟨t, ht, namedBy_release hnamed, hfresh, hunused⟩
  · cases h

theorem waitsSample_sound {row : PendingTxSign} {l : List TaskEvent} {w : World}
    (h : waitsSample row l w = true) :
    Waits guardedAgent guardedVerifier guardedOracle sampleEnvelope releaseArtifact 0 l row 1
      "sign-a-1" w := by
  simp only [waitsSample, Bool.and_eq_true, Option.any_eq_true, Option.all_eq_true,
    decide_eq_true_eq] at h
  obtain ⟨⟨⟨⟨stored, hstored, hqueues⟩, ⟨e, active⟩, hread, rfl, hactive, hdecoded⟩, hvalid⟩,
    hdescribed⟩ := h
  obtain ⟨t, hvalid⟩ := validForSample_sound hvalid
  exact ⟨⟨stored, hstored, hqueues⟩,
    ⟨active, sellerGets100, t, hread, hactive, hdecoded, hvalid⟩,
    fun desc hdesc => hdescribed _ hdesc⟩

theorem sampleEnvelope_asks : Asks guardedAgent sampleEnvelope (sampleAsked "text") := by
  have hopen : (openIncoming guardedAgent sampleEnvelope).toOption.map (·.data) = some "text" := by
    decide +kernel
  obtain ⟨payload, hpayload, hdata⟩ := Option.map_eq_some_iff.mp hopen
  cases hx : openIncoming guardedAgent sampleEnvelope with
  | error e =>
    rw [hx] at hpayload
    cases hpayload
  | ok found =>
    rw [hx] at hpayload
    cases hpayload
    refine ⟨_, hx, ?_⟩
    rw [hdata]
    rfl

/-- The sample envelope is handled, and then a second one with this text. -/
def handleTwo (text : String) : List (Act Task Mode) :=
  [ .start 0 (.envelope sampleEnvelope), .calls 0 (List.replicate 6 .works), .close 0,
    .start 1 (.envelope { sampleEnvelope with seq := 2, ciphertextB64 := text }),
    .calls 1 (List.replicate 6 .works), .close 1 ]

/-- Only the artifact of the release is stored. -/
def keepsRelease (_ : World) (_ : List TaskEvent) : TaskEvent → Bool
  | .did _ _ (.upsertEscrowAdmissionArtifact _ row) _ =>
    row = admissionRow guardedAgent releaseArtifact
  | _ => true

theorem keepsRelease_sound (w : World) (l : List TaskEvent) (ev : TaskEvent)
    (h : keepsRelease w l ev = true) : KeepsTerms guardedAgent releaseArtifact w l ev := by
  unfold keepsRelease at h
  split at h
  · obtain rfl := of_decide_eq_true h
    rintro - - b hb
    obtain rfl : releaseArtifact = b := Json.encoded.inj hb
    exact .refl _
  · rename_i hev
    unfold KeepsTerms
    split
    · exact absurd rfl (hev _ _ _ _ _)
    · trivial

theorem queued_approvable_twice : ∃ (p : Pool World Task Call Call.Out String Unit)
    (row : PendingTxSign), 2 ≤ p.state.db.pending.length
      ∧ ReachesWallet row ((approvePending guardedAgent 1 (some "sign-a-1")).calls
        (honest guardedOracle) p.state) := by
  have hplay : (rehearseGuarded keepsRelease (handleTwo "text")).any (fun p =>
      2 ≤ p.state.db.pending.length
        && (queuedAt p.log).any fun x => waitsSample x.1 x.2 p.state) = true := by
    decide +kernel
  obtain ⟨p, hrun, hp⟩ := Pool.follow_run keepsRelease_sound hplay
  simp only [Bool.and_eq_true, Option.any_eq_true, decide_eq_true_eq] at hp
  obtain ⟨hlength, ⟨row, l⟩, hqueued, hwaits⟩ := hp
  obtain ⟨l₁, hlog⟩ := queuedAt_sound hqueued
  exact ⟨p, row, hlength, queued_approvable rfl (by nofun) sampleEnvelope_asks rfl rfl hrun hlog
    (waitsSample_sound hwaits)⟩

def signsNothing : Call → Bool
  | .signMultisig _ _ => false
  | _ => true

/-- **A queued release is refused because of the refund that came after it**: the table has the
    refund's artifact by then. -/
theorem queued_refused : ∃ (p : Pool World Task Call Call.Out String Unit)
    (l₁ l₂ : List TaskEvent) (row : PendingTxSign),
      Asks guardedAgent sampleEnvelope (sampleAsked "text")
      ∧ (sampleAsked "text").escrowAdmissionArtifact = some releaseArtifact
      ∧ Pool.Run (guarded guardedAgent) Pool.anyStep sampleWorld p
      ∧ p.log = l₁ ++ .did 0 (.envelope sampleEnvelope) (.enqueuePendingTx row) (.ok ()) :: l₂
      ∧ Waits guardedAgent guardedVerifier guardedOracle sampleEnvelope releaseArtifact 0 l₂ row 1
        "sign-a-1" p.state
      ∧ ¬ ReachesWallet row ((approvePending guardedAgent 1 (some "sign-a-1")).calls
        (honest guardedOracle) p.state)
      ∧ ((approvePending guardedAgent 1 (some "sign-a-1")).eval (honest guardedOracle) p.state).1
        = .error "escrow admission action mismatch" := by
  have hplay : (rehearseGuarded (fun _ _ _ => true) (handleTwo "refund")).any (fun p =>
      ((queuedAt p.log).any fun x => waitsSample x.1 x.2 p.state)
        && ((approvePending guardedAgent 1 (some "sign-a-1")).calls (honest guardedOracle)
          p.state).all signsNothing
        && ((approvePending guardedAgent 1 (some "sign-a-1")).eval (honest guardedOracle)
          p.state).1 = .error "escrow admission action mismatch") = true := by
    decide +kernel
  obtain ⟨p, hrun, hp⟩ := Pool.follow_run (fun _ _ _ _ => trivial) hplay
  simp only [Bool.and_eq_true, Option.any_eq_true] at hp
  obtain ⟨⟨⟨⟨row, l⟩, hqueued, hwaits⟩, hcalls⟩, hresult⟩ := hp
  obtain ⟨l₁, hlog⟩ := queuedAt_sound hqueued
  refine ⟨p, l₁, l, row, sampleEnvelope_asks, rfl, hrun, hlog, waitsSample_sound hwaits, ?_, ?_⟩
  · rintro ⟨a, ha⟩
    cases List.all_eq_true.mp hcalls _ ha
  · exact of_decide_eq_true hresult

end Nexum.Signer
