import Nexum.Lib.Books
import Nexum.Signer.Delivery

/-!
# No use of the wallet without an admission

Under a runtime trust bundle a signer keeps, for each escrow, the last admission artifact a
signing request brought along, and every flow checks it again before it touches the wallet: once
with the other checks on the way in, and once more after its token was verified, then also
against the hash the token carries. The table has **one row for each escrow and any request may
overwrite it at any time**, so the two checks may see different artifacts.

The second check makes the same demands as the first, and one more. Whatever the row was in
between, the artifact it saw is for this escrow, this action, the snapshot the transfer was held
against, and the token; and what is in the table was put there by a signing request under the
escrow id that the artifact itself names.
-/

namespace Nexum.Signer

open Nexum.Lib Nexum.Lib.Prog
open Nexum.Transport

/-! ## 1. The signer at work -/

/-- What a signer does: take in a message, or serve a request. -/
inductive Task
  | envelope (env : NxmsEnvelope)
  | request (q : Request)

def Task.prog (agent : SignerAgent) : Task → Flow Unit
  | .envelope env => processEnvelope agent env
  | .request q => do
    let _ ← q.prog agent
    pure ()

/-- Any number of tasks at once. Everybody else leaves the admissions alone. -/
def guarded (agent : SignerAgent) : System World Task Call Call.Out String Unit where
  prog := Task.prog agent
  exec := exec
  ext w w' := w'.db.admissions = w.db.admissions

abbrev TaskEvent := Entry Task Call Call.Out String Unit

/-- What a task has read last: the queued row, the snapshot, the wallet's description of a
    transaction set, the artifact; and the artifact it has stored last. -/
structure Seen where
  task : Task
  queued : Option PendingTxSign
  snapshot : Option (String × SnapshotRow)
  described : Option (String × List DescribeTransferRow)
  artifact : Option (String × EscrowAdmissionArtifactRow)
  stored : Option (String × EscrowAdmissionArtifactRow)

def Seen.start (task : Task) : Seen := ⟨task, none, none, none, none, none⟩

def Seen.next (g : Seen) : (c : Call) → Except String c.Out → Seen
  | .getPending _, .ok row => { g with queued := row }
  | .activeSnapshotForEscrow e, .ok row => { g with snapshot := row.map (e, ·) }
  | .describeTransfer tx, .ok desc => { g with described := desc.map (tx, ·) }
  | .getEscrowAdmissionArtifact e, .ok row => { g with artifact := row.map (e, ·) }
  | .upsertEscrowAdmissionArtifact e row, .ok _ => { g with stored := some (e, row) }
  | _, _ => g

/-- What the task numbered `i` had read when the log was `l`. -/
def seenOf (task : Task) (i : Nat) (l : List TaskEvent) : Seen :=
  Pool.book Seen.next (.start task) i l

theorem Seen.next_task (g : Seen) (c : Call) (r : Except String c.Out) :
    (g.next c r).task = g.task := by
  cases c <;> cases r <;> rfl

theorem seenOf_task (task : Task) (i : Nat) (l : List TaskEvent) :
    (seenOf task i l).task = task := by
  unfold seenOf
  induction l with
  | nil => rfl
  | cons ev l ih =>
    cases ev with
    | did j q c r =>
      simp only [Pool.book]
      split
      · rw [Seen.next_task, ih]
      · exact ih
    | _ => exact ih

/-! ## 2. What an admission is -/

def Request.Token (q : Request) (agent : SignerAgent) (claims : ActionClaims) : Prop :=
  ∃ token, q.token = some token ∧ agent.crypto.verifyJwt token = .ok claims

/-- The escrow and the action a task is about. -/
def Seen.About (g : Seen) (escrow : String) (action : EscrowAction) : Prop :=
  match g.task with
  | .request (.sign e a _ _) | .request (.submit e a _ _) =>
    normalizeHexExact e 32 "escrow_id_hex" = .ok escrow ∧ action = a
  | .request (.approve _ _) =>
    ∃ row, g.queued = some row ∧ row.escrowIdHex = escrow ∧ row.action = .encoded action
  | _ => False

/-- The transaction set was held against this snapshot of the escrow, and passed. -/
def Seen.Checked (g : Seen) (escrow : String) (action : EscrowAction) (txDataHex : String)
    (snapshot : ContractSnapshot) : Prop :=
  ∃ active desc check, g.snapshot = some (escrow, active)
    ∧ active.snapshotJson = .encoded snapshot ∧ g.described = some (txDataHex, desc)
    ∧ transferCheckFromDesc desc = .ok check
    ∧ validateTransferAgainstSnapshot snapshot action check = .ok ()

/-- The artifact passes the signer's trust bundle. -/
def Accepted (agent : SignerAgent) (artifact : EscrowAdmissionArtifact) : Prop :=
  ∃ bundle, agent.bundle = some bundle
    ∧ artifact.verifyAgainstBundle agent.crypto.toAdmissionCrypto bundle = .ok ()

/-- It does, and it names this snapshot and this action. -/
structure Admits (agent : SignerAgent) (artifact : EscrowAdmissionArtifact)
    (snapshot : ContractSnapshot) (action : EscrowAction) : Prop where
  accepted : Accepted agent artifact
  snapshotHash : eqIgnoreAsciiCase artifact.snapshotHashHex
    (canonicalPolicyHashSha256Hex agent.crypto snapshot) = true
  action : artifact.action = action

/-- The artifact is the one the claims name, if they name one. -/
def NamedBy (agent : SignerAgent) (artifact : EscrowAdmissionArtifact) (claims : ActionClaims) :
    Prop :=
  ∀ hash, claims.escrowAdmissionHash = some hash →
    normalizeHexExact hash 64 "action_token.escrow_admission_hash"
      = .ok (artifact.hashHex agent.crypto.toAdmissionCrypto)

/-- What a task has to have seen to use the wallet. -/
def Seen.Permits (agent : SignerAgent) (g : Seen) (txDataHex : String) : Prop :=
  ∃ q escrow action snapshot row artifact, g.task = .request q ∧ g.About escrow action
    ∧ g.Checked escrow action txDataHex snapshot
    ∧ g.artifact = some (escrow, row) ∧ row.artifactJson = .encoded artifact
    ∧ Admits agent artifact snapshot action
    ∧ ∀ claims, q.Token agent claims → NamedBy agent artifact claims

/-- The row an artifact is kept in. -/
def admissionRow (agent : SignerAgent) (artifact : EscrowAdmissionArtifact) :
    EscrowAdmissionArtifactRow :=
  ⟨artifact.hashHex agent.crypto.toAdmissionCrypto, .encoded artifact⟩

/-- The row is that of an accepted artifact, under the escrow id the artifact itself names. -/
def Keyed (agent : SignerAgent) (escrow : String) (row : EscrowAdmissionArtifactRow) : Prop :=
  ∃ artifact, row = admissionRow agent artifact ∧ artifact.escrowIdHex = escrow
    ∧ Accepted agent artifact

/-- The signing request in an envelope. -/
def Asks (agent : SignerAgent) (env : NxmsEnvelope) (req : TxSignReqBody) : Prop :=
  ∃ payload, openIncoming agent env = .ok payload
    ∧ agent.crypto.parseBody payload.data = .ok (.txSignReq req)

/-- What a task has to have seen and stored to put this row in the queue. -/
structure Seen.Accepts (agent : SignerAgent) (g : Seen) (env : NxmsEnvelope) (req : TxSignReqBody)
    (artifact : EscrowAdmissionArtifact) (active : SnapshotRow) (snapshot : ContractSnapshot)
    (row : PendingTxSign) : Prop where
  task : g.task = .envelope env
  asks : Asks agent env req
  brought : req.escrowAdmissionArtifact = some artifact
  stored : g.stored = some (artifact.escrowIdHex, admissionRow agent artifact)
  verified : ∃ hash, verifyEscrowAdmissionArtifact agent artifact req.escrowIdHex
    (canonicalPolicyHashSha256Hex agent.crypto snapshot) req.action = .ok hash
  read : g.snapshot = some (req.escrowIdHex, active)
  decoded : active.snapshotJson = .encoded snapshot
  named : ∃ hash, normalizeHexExact req.snapshotHashHex 64 "snapshot_hash_hex" = .ok hash
    ∧ eqIgnoreAsciiCase (trim req.snapshotHashHex) active.hashHex = true
  described : ∃ desc check, g.described = some (req.multisigTxsetHex, desc)
    ∧ transferCheckFromDesc desc = .ok check
    ∧ validateTransferAgainstSnapshot snapshot req.action check = .ok ()
  hash : txsetSha256Hex agent.crypto req.multisigTxsetHex = .ok row.txsetHashHex
  escrowIdHex : row.escrowIdHex = req.escrowIdHex
  action : row.action = .encoded req.action
  snapshotHashHex : row.snapshotHashHex = active.hashHex
  multisigTxsetHex : row.multisigTxsetHex = req.multisigTxsetHex
  status : row.status = .pending

/-- What a task may do. -/
def Seen.May (agent : SignerAgent) (g : Seen) : Call → Prop
  | .signMultisig _ tx | .submitMultisig _ tx => g.Permits agent tx
  | .upsertEscrowAdmissionArtifact e row => Keyed agent e row
  | .enqueuePendingTx row =>
    ∃ env req artifact active snapshot, g.Accepts agent env req artifact active snapshot row
  | _ => True

/-- The protocol. -/
abbrev admitting (agent : SignerAgent) : Rules Call Call.Out String Seen :=
  keeping Seen.next (Seen.May agent)

/-! ## 3. The parts of a task -/

variable {agent : SignerAgent} {g : Seen}

/-- Calls that are of no consequence to what was seen. -/
def Call.blind : Call → Bool
  | .getPending _ | .activeSnapshotForEscrow _ | .describeTransfer _ => false
  | .getEscrowAdmissionArtifact _ | .upsertEscrowAdmissionArtifact _ _ => false
  | .signMultisig _ _ | .submitMultisig _ _ | .enqueuePendingTx _ => false
  | _ => true

theorem Seen.next_blind {c : Call} (g : Seen) (hc : c.blind = true) (r : Except String c.Out) :
    g.next c r = g := by
  cases c <;> first | rfl | cases hc

theorem admitting_ignores : (admitting agent).Ignores (·.blind = true) := by
  intro g c hc
  refine ⟨?_, ?_⟩
  · cases c <;> trivial
  · rintro r g' rfl
    exact g.next_blind hc r

theorem admitting_ignores_working {a : Authority} {tx : String} (h : g.Permits agent tx) :
    (admitting agent).IgnoresAt g (Working a tx) := by
  intro c hc
  cases c with
  | signMultisig on t =>
    obtain ⟨-, rfl⟩ := hc
    exact ⟨h, fun r g' hg => hg⟩
  | submitMultisig on t =>
    obtain ⟨-, rfl⟩ := hc
    exact ⟨h, fun r g' hg => hg⟩
  | _ => first | exact ⟨trivial, fun r g' hg => hg⟩ | exact hc.elim

theorem blind_of_tells (c : Call) (h : c.tells = true) : c.blind = true := by
  cases c <;> first | rfl | cases h

theorem blind_of_sends {body : EscrowBody} (c : Call) (h : Sends body c) : c.blind = true := by
  cases c <;> first | rfl | exact h.elim

theorem blind_of_setsAside {id : Int} (c : Call) (h : Call.setsAside id c) : c.blind = true := by
  cases c <;> first | rfl | exact h.elim

theorem describeTransfer_seen (context tx : String) :
    Ensures (admitting agent) (describeTransfer context tx) g fun check g' =>
      ∃ desc, g' = { g with described := some (tx, desc) }
        ∧ transferCheckFromDesc desc = .ok check := by
  unfold describeTransfer
  refine .performOr_bind trivial fun desc g' hd => ?_
  obtain rfl : g' = g.next _ _ := hd
  refine .okOr_bind fun desc hdesc => .ofExcept fun check hcheck => ?_
  subst hdesc
  exact ⟨desc, rfl, Check.mapError_eq_ok.mp hcheck⟩

theorem verifyEscrowAdmissionArtifact_eq_ok {artifact : EscrowAdmissionArtifact}
    {escrow snapshotHash hash : String} {action : EscrowAction} :
    verifyEscrowAdmissionArtifact agent artifact escrow snapshotHash action = .ok hash ↔
      Accepted agent artifact ∧ eqIgnoreAsciiCase artifact.escrowIdHex escrow = true
        ∧ eqIgnoreAsciiCase artifact.snapshotHashHex snapshotHash = true
        ∧ artifact.action = action ∧ artifact.hashHex agent.crypto.toAdmissionCrypto = hash := by
  simp only [verifyEscrowAdmissionArtifact, Accepted, Check.bind_eq_ok, Check.okOr_eq_ok,
    Check.failIf_eq_ok, Check.pure_eq_ok, Check.exists_unit, not_not, Bool.not_eq_false]
  constructor
  · rintro ⟨bundle, hbundle, haccepted, hrest⟩
    exact ⟨⟨bundle, hbundle, haccepted⟩, hrest⟩
  · rintro ⟨⟨bundle, hbundle, haccepted⟩, hrest⟩
    exact ⟨bundle, hbundle, haccepted, hrest⟩

theorem validateStored_seen (hb : agent.bundle ≠ none) (escrow : String)
    (snapshot : ContractSnapshot) (action : EscrowAction) (expected : Option String) :
    Ensures (admitting agent) (validateStoredEscrowAdmission agent escrow
        (canonicalPolicyHashSha256Hex agent.crypto snapshot) action expected) g fun _ g' =>
      ∃ row artifact, g' = { g with artifact := some (escrow, row) }
        ∧ row.artifactJson = .encoded artifact ∧ Admits agent artifact snapshot action
        ∧ checkExpectedAdmission (artifact.hashHex agent.crypto.toAdmissionCrypto) expected
          = .ok () := by
  unfold validateStoredEscrowAdmission
  cases hbundle : agent.bundle with
  | none => exact absurd hbundle hb
  | some bundle =>
    refine .perform_bind trivial fun row g' hg => ?_
    obtain rfl : g' = g.next _ _ := hg
    refine .okOr_bind fun row hrow => .ofExcept_bind fun artifact hartifact => ?_
    subst hrow
    refine .ofExcept_bind fun actual hactual => .failIf_bind fun _ => .ofExcept fun _ hexp => ?_
    obtain ⟨haccepted, -, hsnapshot, haction, rfl⟩ := verifyEscrowAdmissionArtifact_eq_ok.mp hactual
    exact ⟨row, artifact, rfl, fromStr_eq_ok hartifact, ⟨haccepted, hsnapshot, haction⟩, hexp⟩

/-- What the checks on the way in establish for a request. -/
structure Ready (agent : SignerAgent) (q : Request) (job : Job) (snapshot : ContractSnapshot)
    (g : Seen) : Prop where
  task : g.task = .request q
  about : g.About job.escrowIdHex job.action
  checked : g.Checked job.escrowIdHex job.action job.txDataHex snapshot
  hash : job.snapshotHash = canonicalPolicyHashSha256Hex agent.crypto snapshot

theorem prepare_seen (hb : agent.bundle ≠ none) (during escrow : String) (action : EscrowAction)
    (tx : String) {q : Request} (hq : ∀ e, normalizeHexExact escrow 32 "escrow_id_hex" = .ok e →
      ∀ g : Seen, g.task = .request q → g.About e action) :
    Ensures (admitting agent) (prepare agent during escrow action tx) (.start (.request q))
      fun job g => ∃ snapshot, Ready agent q job snapshot g := by
  unfold prepare
  refine .ofExcept_bind fun e he => .ofExcept_bind fun txDataHex _ => .ofExcept_bind fun _ _ => ?_
  refine .perform_bind trivial fun active g₁ hd => ?_
  obtain rfl : g₁ = Seen.next _ _ _ := hd
  refine .okOr_bind fun active hactive => .ofExcept_bind fun snapshot hsnapshot => ?_
  subst hactive
  refine (validateStored_seen hb ..).bind ?_
  rintro _ _ ⟨row, artifact, rfl, -⟩
  refine .perform_bind trivial fun _ g₂ hd => ?_
  obtain rfl : g₂ = Seen.next _ _ _ := hd
  refine (describeTransfer_seen ..).bind ?_
  rintro check _ ⟨desc, rfl, hcheck⟩
  refine .ofExcept_bind fun _ hpolicy => .pure ⟨snapshot, rfl, hq e he _ rfl, ?_, rfl⟩
  exact ⟨active, desc, check, rfl, fromStr_eq_ok hsnapshot, rfl, hcheck, hpolicy⟩

theorem prepareApproval_seen (hb : agent.bundle ≠ none) (id : Int) (token : Option String)
    (row : PendingTxSign) :
    Ensures (admitting agent) (prepareApproval agent row)
      { Seen.start (.request (.approve id token)) with queued := some row }
      fun job g => ∃ snapshot, Ready agent (.approve id token) job snapshot g := by
  unfold prepareApproval
  refine .ofExcept_bind fun computed _ => ?_
  refine ((only_deadLetterIf ..).mono blind_of_setsAside).ensures_bind admitting_ignores
    fun _ _ => .ofExcept_bind fun _ _ => .perform_bind trivial fun active g₁ hd => ?_
  obtain rfl : g₁ = Seen.next _ _ _ := hd
  refine .okOr_bind fun active hactive => ?_
  subst hactive
  refine ((only_deadLetterIf ..).mono blind_of_setsAside).ensures_bind admitting_ignores
    fun _ _ => .ofExcept_bind fun snapshot hsnapshot => .ofExcept_bind fun action haction => ?_
  have haction : row.action = .encoded action := by
    cases hj : row.action with
    | encoded b => rw [hj] at haction; cases haction; rfl
    | malformed raw err => rw [hj] at haction; cases haction
  refine (validateStored_seen hb ..).bind ?_
  rintro _ _ ⟨stored, artifact, rfl, -⟩
  refine .perform_bind trivial fun _ g₂ hd => ?_
  obtain rfl : g₂ = Seen.next _ _ _ := hd
  refine (describeTransfer_seen ..).bind ?_
  rintro check _ ⟨desc, rfl, hcheck⟩
  cases hpolicy : validateTransferAgainstSnapshot snapshot action check with
  | error e =>
    refine (((only_deadLetter row _ fun _ => False).mono blind_of_setsAside).ensures
      admitting_ignores _).mono ?_
    exact fun _ _ h => h.2.elim
  | ok u =>
    refine .pure ⟨snapshot, rfl, ⟨row, rfl, rfl, haction⟩, ?_, rfl⟩
    exact ⟨active, desc, check, rfl, fromStr_eq_ok hsnapshot, rfl, hcheck, hpolicy⟩

theorem permits_of_stored {q : Request} {job : Job} {snapshot : ContractSnapshot} {token : String}
    {claims : ActionClaims} {row : EscrowAdmissionArtifactRow} {artifact : EscrowAdmissionArtifact}
    (h : Ready agent q job snapshot g) (htoken : q.token = some token)
    (hjwt : agent.crypto.verifyJwt token = .ok claims)
    (hrow : row.artifactJson = .encoded artifact)
    (hadmits : Admits agent artifact snapshot job.action)
    (hexp : checkExpectedAdmission (artifact.hashHex agent.crypto.toAdmissionCrypto)
      claims.escrowAdmissionHash = .ok ()) :
    Seen.Permits agent { g with artifact := some (job.escrowIdHex, row) } job.txDataHex := by
  refine ⟨q, job.escrowIdHex, job.action, snapshot, row, artifact, h.task, h.about, h.checked, rfl,
    hrow, hadmits, ?_⟩
  rintro claims' ⟨token', htoken', hjwt'⟩ hash hhash
  obtain rfl : token = token' := Option.some.inj (htoken.symm.trans htoken')
  obtain rfl : claims = claims' := Except.ok.inj (hjwt.symm.trans hjwt')
  rw [hhash] at hexp
  simp only [checkExpectedAdmission, Check.bind_eq_ok, Check.failIf_eq_ok, not_not] at hexp
  obtain ⟨expected, hnorm, rfl⟩ := hexp
  exact hnorm

/-- From the checks on the way in to the end, for a flow that verifies its token with `verify` and
    then is at work for a request. -/
theorem tokenPart_seen {α : Type} (hb : agent.bundle ≠ none) {q : Request} {job : Job}
    {snapshot : ContractSnapshot} (h : Ready agent q job snapshot g) {token : String}
    (htoken : q.token = some token) {verify : Flow VerifiedSignToken} (hverify :
      Only (·.tells = true) verify fun t => agent.crypto.verifyJwt token = .ok t.claims)
    {rest : VerifiedSignToken → Flow α}
    (hrest : ∀ t, ∃ a, Only (Working a job.txDataHex) (rest t) fun _ => True) :
    Ensures (admitting agent) (do
      let t ← verify
      validateStoredEscrowAdmission agent job.escrowIdHex job.snapshotHash job.action
        t.claims.escrowAdmissionHash
      rest t) g fun _ _ => True := by
  refine (hverify.mono blind_of_tells).ensures_bind admitting_ignores fun t hjwt => ?_
  rw [h.hash]
  refine (validateStored_seen hb ..).bind ?_
  rintro _ _ ⟨row, artifact, rfl, hrow, hadmits, hexp⟩
  have hpermits := permits_of_stored h htoken hjwt hrow hadmits hexp
  obtain ⟨a, hwork⟩ := hrest t
  refine ensures_iff.mpr (wp_mono (hwork.wpAt (admitting_ignores_working hpermits)) ?_)
  exact fun _ _ _ _ _ => trivial

/-! ## 4. Every task follows the protocol -/

/-- The end of a decision: the answer is sent and the row is closed. -/
theorem close_seen (recipient escrow : String) (msgType : MsgType) (body : EscrowBody)
    (seq : Option Nat) (id : Int) (status : PendingStatus) (reason : Option DecisionReason)
    (g : Seen) :
    Ensures (admitting agent) (do
      sendBodyWithSeq agent recipient escrow msgType body seq
      ask (.setPendingStatus id status reason)) g fun _ _ => True :=
  ((only_sendBodyWithSeq ..).mono blind_of_sends).ensures_bind admitting_ignores
    fun _ _ => .perform trivial fun _ _ _ => trivial

section
variable {v : ActionTokenVerifier} (hv : agent.verifier = some v) (hb : agent.bundle ≠ none)
include hv hb

theorem sign_seen (escrow : String) (action : EscrowAction) (tx : String)
    (token : Option String) :
    Ensures (admitting agent) (signMultisigFlow agent escrow action tx token)
      (.start (.request (.sign escrow action tx token))) fun _ _ => True := by
  unfold signMultisigFlow
  have hq : ∀ e, normalizeHexExact escrow 32 "escrow_id_hex" = .ok e → ∀ g : Seen,
      g.task = .request (.sign escrow action tx token) → g.About e action := by
    intro e he g hg
    rw [Seen.About, hg]
    exact ⟨he, rfl⟩
  refine (prepare_seen hb "sign" escrow action tx hq).bind ?_
  rintro job g ⟨snapshot, hready⟩
  rw [hv]
  refine .okOr_bind fun raw hraw => ?_
  refine tokenPart_seen hb hready hraw ?_ fun t => ⟨_, working_startOrReplay _ _ ?_⟩
  · exact Ensures.mono (tells_verifyCommon ..) fun t _ ht => ht.1
  · exact working_signFresh _ _ _

theorem submit_seen (escrow : String) (action : EscrowAction) (tx : String)
    (token : Option String) :
    Ensures (admitting agent) (submitMultisigFlow agent escrow action tx token)
      (.start (.request (.submit escrow action tx token))) fun _ _ => True := by
  unfold submitMultisigFlow
  have hq : ∀ e, normalizeHexExact escrow 32 "escrow_id_hex" = .ok e → ∀ g : Seen,
      g.task = .request (.submit escrow action tx token) → g.About e action := by
    intro e he g hg
    rw [Seen.About, hg]
    exact ⟨he, rfl⟩
  refine (prepare_seen hb "submit" escrow action tx hq).bind ?_
  rintro job g ⟨snapshot, hready⟩
  rw [hv]
  refine .okOr_bind fun raw hraw => ?_
  refine tokenPart_seen hb hready hraw ?_ fun t => ⟨_, working_startOrReplay _ _ ?_⟩
  · unfold verifySubmitMultisig
    refine Ensures.bind (tells_verifyCommon ..) fun t _ ht => ?_
    exact .ofExcept_bind fun _ _ => .pure ht.1
  · exact working_submitFresh _ _ _

theorem approveSign_seen (id : Int) (token : Option String) (row : PendingTxSign) :
    Ensures (admitting agent) (approveSign agent row token)
      { Seen.start (.request (.approve id token)) with queued := some row }
      fun _ _ => True := by
  unfold approveSign
  refine (prepareApproval_seen hb id token row).bind ?_
  rintro job g ⟨snapshot, hready⟩
  rw [hv]
  refine .okOr_bind fun raw hraw => ?_
  refine tokenPart_seen hb hready hraw ?_ fun t =>
    ⟨t.authority job.escrowIdHex job.txsetHashHex, ?_⟩
  · exact Ensures.mono (tells_verifyCommon ..) fun t _ ht => ht.1
  · exact .perform_bind trivial fun _ _ _ => working_approveFresh _ _ _

theorem approve_seen (id : Int) (token : Option String) :
    Ensures (admitting agent) (approvePending agent id token)
      (.start (.request (.approve id token))) fun _ _ => True := by
  unfold approvePending
  refine .perform_bind trivial fun row g hd => .okOr_bind fun row hrow => ?_
  obtain rfl : g = Seen.next _ _ _ := hd
  subst hrow
  unfold approveRow
  cases row.status with
  | approvedSending =>
    unfold resendApproval
    exact .ofExcept_bind fun staged _ => close_seen ..
  | pending =>
    refine (approveSign_seen hv hb id token row).bind fun out g _ => ?_
    unfold stageAndSendApproval
    exact .perform_bind trivial fun _ _ _ => .perform_bind trivial fun _ _ _ => close_seen ..
  | _ => exact .fail

end

theorem reject_seen (id : Int) (reason : String) (g : Seen) :
    Ensures (admitting agent) (rejectPending agent id reason) g fun _ _ => True := by
  unfold rejectPending
  refine .perform_bind trivial fun row g _ => .okOr_bind fun row _ => ?_
  unfold rejectRow
  cases row.status with
  | rejectedSending =>
    unfold resendRejection
    exact .ofExcept_bind fun staged _ => close_seen ..
  | pending =>
    unfold stageAndSendRejection
    exact .perform_bind trivial fun _ _ _ => .perform_bind trivial fun _ _ _ => close_seen ..
  | _ => exact .fail

theorem admit_seen (hb : agent.bundle ≠ none) (req : TxSignReqBody) (hash : String) (g : Seen) :
    Ensures (admitting agent) (admitTxSignReq agent req hash) g fun _ g' =>
      ∃ artifact, req.escrowAdmissionArtifact = some artifact
        ∧ (∃ h, verifyEscrowAdmissionArtifact agent artifact req.escrowIdHex hash req.action
          = .ok h)
        ∧ g' = { g with stored := some (artifact.escrowIdHex, admissionRow agent artifact) } := by
  unfold admitTxSignReq
  split
  · exact absurd ‹_› hb
  · refine .okOr_bind fun artifact hartifact => .ofExcept_bind fun h hverified => ?_
    have hkeyed : Seen.May agent g (.upsertEscrowAdmissionArtifact artifact.escrowIdHex
        (admissionRow agent artifact)) :=
      ⟨artifact, rfl, rfl, (verifyEscrowAdmissionArtifact_eq_ok.mp hverified).1⟩
    refine .perform hkeyed fun _ g' hg => ?_
    exact ⟨artifact, hartifact, ⟨h, hverified⟩, hg⟩

theorem checkTxSignReq_seen (hb : agent.bundle ≠ none) {env : NxmsEnvelope} {payload : NxmsPayload}
    (hopen : openIncoming agent env = .ok payload) :
    Ensures (admitting agent) (checkTxSignReq agent payload) (.start (.envelope env)) fun row g =>
      ∃ env req artifact active snapshot,
        g.Accepts agent env req artifact active snapshot row := by
  unfold checkTxSignReq
  refine .ofExcept_bind fun body hbody => .okOr_bind fun req hreq => ?_
  refine .ofExcept_bind fun _ hvalid => ?_
  have hasks : Asks agent env req := by
    refine ⟨payload, hopen, ?_⟩
    cases body with
    | txSignReq r => cases hreq; exact hbody
    | _ => cases hreq
  refine .perform_bind trivial fun active g hg => ?_
  obtain rfl : g = Seen.next _ _ _ := hg
  refine .okOr_bind fun active hactive => .failIf_bind fun hhash => ?_
  subst hactive
  refine .ofExcept_bind fun snapshot hsnapshot => (admit_seen hb ..).bind ?_
  rintro _ _ ⟨artifact, hbrought, hverified, rfl⟩
  refine .perform_bind trivial fun _ g hg => ?_
  obtain rfl : g = Seen.next _ _ _ := hg
  refine (describeTransfer_seen ..).bind ?_
  rintro check _ ⟨desc, rfl, hcheck⟩
  refine .ofExcept_bind fun _ hpolicy => .ofExcept_bind fun txsetHashHex htx => .pure ?_
  refine ⟨env, req, artifact, active, snapshot, ?_⟩
  simp only [validateTxSignReq, Check.bind_eq_ok, Check.pure_eq_ok, Check.exists_unit] at hvalid
  obtain ⟨-, -, hash, hnormal, -⟩ := hvalid
  exact {
    task := rfl, asks := hasks, brought := hbrought, stored := rfl, verified := hverified
    read := rfl, decoded := fromStr_eq_ok hsnapshot
    named := ⟨hash, hnormal, by simpa using hhash⟩
    described := ⟨desc, check, rfl, hcheck, hpolicy⟩
    hash := htx, escrowIdHex := rfl, action := rfl, snapshotHashHex := rfl
    multisigTxsetHex := rfl, status := rfl }

theorem processEnvelope_seen (hb : agent.bundle ≠ none) (env : NxmsEnvelope) :
    Ensures (admitting agent) (processEnvelope agent env) (.start (.envelope env))
      fun _ _ => True := by
  unfold processEnvelope
  refine .ofExcept_bind fun payload hopen => .perform_bind trivial fun _ g hg => ?_
  obtain rfl : g = Seen.next _ _ _ := hg
  unfold handlePayload
  split
  · unfold handleTxSignReq
    refine (checkTxSignReq_seen hb hopen).bind fun row g hrow => ?_
    exact .perform hrow fun _ _ _ => trivial
  · unfold sendBody
    refine (((only_sendBodyWithSeq ..).mono blind_of_sends).ensures admitting_ignores _).mono ?_
    exact fun _ _ _ => trivial

/-- **Whatever it is given to do**, a signer with a bundle and a verifier follows the protocol. -/
theorem Task.follows {v : ActionTokenVerifier} (hv : agent.verifier = some v)
    (hb : agent.bundle ≠ none) (task : Task) :
    wp (admitting agent) (task.prog agent) (fun _ _ => True) (.start task) := by
  have hensures : ∀ {α : Type} {p : Flow α} {f : α → Reply},
      Ensures (admitting agent) p (.start task) (fun _ _ => True) →
      wp (admitting agent) (do
        let _ ← (do
          let a ← p
          pure (f a) : Flow Reply)
        pure ()) (fun _ _ => True) (.start task) := by
    intro α p f h
    refine wp_mono (ensures_iff.mp ((h.bind (Q := fun _ _ => True) fun _ _ _ => .pure trivial).bind
      (Q := fun _ _ => True) fun _ _ _ => .pure trivial)) fun _ _ _ => trivial
  cases task with
  | envelope env =>
    exact wp_mono (ensures_iff.mp (processEnvelope_seen hb env)) fun _ _ _ => trivial
  | request q =>
    cases q with
    | sign e action tx token => exact hensures (sign_seen hv hb e action tx token)
    | submit e action tx token => exact hensures (submit_seen hv hb e action tx token)
    | approve id token => exact hensures (approve_seen hv hb id token)
    | reject id reason => exact hensures (reject_seen id reason _)

/-! ## 5. What is in the table was stored -/

/-- The call stored this row for this escrow. -/
def StoresArtifact (escrow : String) (row : EscrowAdmissionArtifactRow) :
    (c : Call) → Except String c.Out → Prop
  | .upsertEscrowAdmissionArtifact e stored, .ok _ => e = escrow ∧ stored = row
  | _, _ => False

/-- The row was stored for the escrow at some time. -/
def Stored (l : List TaskEvent) (escrow : String) (row : EscrowAdmissionArtifactRow) : Prop :=
  ∃ i task c r, .did i task c r ∈ l ∧ StoresArtifact escrow row c r

section
variable {l : List TaskEvent} {ev : TaskEvent} {escrow : String} {row : EscrowAdmissionArtifactRow}
  {w w' : World} {c : Call} {r : Except String c.Out}

theorem Stored.cons (h : Stored l escrow row) : Stored (ev :: l) escrow row := by
  obtain ⟨i, task, c, r, hmem, hstores⟩ := h
  exact ⟨i, task, c, r, List.mem_cons_of_mem _ hmem, hstores⟩

theorem Stored.here {i : Nat} {task : Task} (h : StoresArtifact escrow row c r) :
    Stored (.did i task c r :: l) escrow row :=
  ⟨i, task, c, r, List.mem_cons_self, h⟩

theorem Stored.of_did {i : Nat} {task : Task} (h : Stored (.did i task c r :: l) escrow row) :
    StoresArtifact escrow row c r ∨ Stored l escrow row := by
  obtain ⟨j, task', c', r', hmem, hstores⟩ := h
  rcases List.mem_cons.mp hmem with heq | hmem
  · cases heq
    exact .inl hstores
  · exact .inr ⟨j, task', c', r', hmem, hstores⟩

theorem Stored.of_other (hev : ∀ i q c r, ev ≠ .did i q c r)
    (h : Stored (ev :: l) escrow row) : Stored l escrow row := by
  obtain ⟨j, task, c, r, hmem, hstores⟩ := h
  rcases List.mem_cons.mp hmem with heq | hmem
  · exact absurd heq.symm (hev j task c r)
  · exact ⟨j, task, c, r, hmem, hstores⟩

theorem StoresArtifact.unique {escrow' : String} {row' : EscrowAdmissionArtifactRow}
    (h : StoresArtifact escrow row c r) (h' : StoresArtifact escrow' row' c r) :
    escrow = escrow' ∧ row = row' := by
  cases c with
  | upsertEscrowAdmissionArtifact e stored =>
    cases r with
    | error err => exact h.elim
    | ok u => exact ⟨h.1.symm.trans h'.1, h.2.symm.trans h'.2⟩
  | _ => exact h.elim

/-- **Only storing an artifact changes the admissions**, and only if it succeeds. -/
theorem exec_admissions (h : exec w c r w') :
    (w'.db.admissions = w.db.admissions ∧ ∀ e row, ¬ StoresArtifact e row c r)
      ∨ ∃ e row, StoresArtifact e row c r
        ∧ w'.db.admissions = Function.update w.db.admissions e (some row) := by
  cases hc : c.admits with
  | false =>
    refine .inl ⟨(exec_confined h).admissions hc, ?_⟩
    intro e row hstores
    cases c with
    | upsertEscrowAdmissionArtifact e' row' => cases hc
    | _ => exact hstores
  | true =>
    cases c with
    | upsertEscrowAdmissionArtifact e row =>
      rcases exec_local h rfl rfl with heq | ⟨⟨err, rfl⟩, rfl⟩
      · cases heq
        exact .inr ⟨e, row, ⟨rfl, rfl⟩, rfl⟩
      · exact .inl ⟨rfl, fun _ _ => id⟩
    | _ => cases hc

theorem Seen.next_artifact {g : Seen} {x : String × EscrowAdmissionArtifactRow}
    (hexec : exec w c r w') (h : (g.next c r).artifact = some x) :
    g.artifact = some x ∨ w.db.admissions x.1 = some x.2 := by
  cases c with
  | getEscrowAdmissionArtifact e =>
    cases r with
    | error err => exact .inl h
    | ok found =>
      have hserve : found = w.db.admissions e := by
        have := exec_ok hexec (by simp [World.serve, World.read])
        cases this
        rfl
      subst hserve
      obtain ⟨row, hrow, rfl⟩ := Option.map_eq_some_iff.mp h
      exact .inr hrow
  | _ => cases r <;> exact .inl h

/-- Rows that are in the table, and rows a task has read there, were stored. -/
structure Sourced (w : World) (l : List TaskEvent) : Prop where
  table : ∀ e row, w.db.admissions e = some row → Stored l e row
  seen : ∀ task i e row, (seenOf task i l).artifact = some (e, row) → Stored l e row

theorem Sourced.did (h : Sourced w l) (hexec : exec w c r w') (i : Nat) (task : Task) :
    Sourced w' (.did i task c r :: l) where
  table e row hrow := by
    rcases exec_admissions hexec with ⟨hsame, -⟩ | ⟨e', row', hstores, hnew⟩
    · rw [hsame] at hrow
      exact (h.table e row hrow).cons
    · rw [hnew] at hrow
      by_cases he : e = e'
      · subst he
        rw [Function.update_self, Option.some.injEq] at hrow
        subst hrow
        exact .here hstores
      · rw [Function.update_of_ne he] at hrow
        exact (h.table e row hrow).cons
  seen task' j e row hseen := by
    simp only [seenOf, Pool.book] at hseen
    split at hseen
    · rcases Seen.next_artifact hexec hseen with hold | hread
      · exact (h.seen task' j e row hold).cons
      · exact (h.table e row hread).cons
    · exact (h.seen task' j e row hseen).cons

theorem Sourced.rest (h : Sourced w l) (hev : ∀ i q c r, ev ≠ .did i q c r) :
    Sourced w (ev :: l) where
  table e row hrow := (h.table e row hrow).cons
  seen task i e row hseen := by
    refine (h.seen task i e row ?_).cons
    cases ev with
    | did j q c r => exact absurd rfl (hev j q c r)
    | _ => exact hseen

end

/-! ## 6. Every use of the wallet was admitted -/

variable {v : ActionTokenVerifier} {bundle : RuntimeTrustBundle} {w₀ : World}
  {p : Pool World Task Call Call.Out String Unit}

theorem run_sourced (hempty : ∀ e, w₀.db.admissions e = none)
    (hrun : Pool.Run (guarded agent) Pool.anyStep w₀ p) : Sourced p.state p.log := by
  refine hrun.world (I := Sourced) ?_ ?_ ?_ ?_
  · refine ⟨fun e row hrow => ?_, fun _ _ _ _ h => ?_⟩
    · rw [hempty e] at hrow
      cases hrow
    · cases h
  · exact fun w l i task c r w' h hexec _ => h.did hexec i task
  · exact fun w l ev h hev => h.rest hev
  · intro w l w' h hext
    have hext : w'.db.admissions = w.db.admissions := hext
    exact ⟨hext ▸ h.table, h.seen⟩

theorem keyed_of_stored {l : List TaskEvent} {escrow : String} {row : EscrowAdmissionArtifactRow}
    (hobeys : Pool.Obeys Seen.next (Seen.May agent) Seen.start l) (h : Stored l escrow row) :
    Keyed agent escrow row := by
  obtain ⟨i, task, c, r, hmem, hstores⟩ := h
  obtain ⟨after, before, rfl⟩ := List.append_of_mem hmem
  have hmay := hobeys.split
  cases c with
  | upsertEscrowAdmissionArtifact e stored =>
    cases r with
    | error err => exact hstores.elim
    | ok u =>
      obtain ⟨rfl, rfl⟩ := hstores
      exact hmay
  | _ => exact hstores.elim

/-- The wallet's signing or submitting of this transaction set. -/
def Call.uses (txDataHex : String) : Call → Prop
  | .signMultisig _ tx | .submitMultisig _ tx => tx = txDataHex
  | _ => False

/-- A use of the wallet for the request `q` is admitted by this artifact, given what its task has
    seen and what was stored so far. -/
structure AdmittedBy (agent : SignerAgent) (bundle : RuntimeTrustBundle) (l : List TaskEvent)
    (g : Seen) (q : Request) (txDataHex escrow : String) (action : EscrowAction)
    (snapshot : ContractSnapshot) (artifact : EscrowAdmissionArtifact) : Prop where
  about : g.About escrow action
  checked : g.Checked escrow action txDataHex snapshot
  stored : ∃ row, row.artifactJson = .encoded artifact ∧ Stored l escrow row
  accepted : artifact.verifyAgainstBundle agent.crypto.toAdmissionCrypto bundle = .ok ()
  escrowIdHex : artifact.escrowIdHex = escrow
  action : artifact.action = action
  snapshotHash : eqIgnoreAsciiCase artifact.snapshotHashHex
    (canonicalPolicyHashSha256Hex agent.crypto snapshot) = true
  named : ∀ claims, q.Token agent claims → NamedBy agent artifact claims

/-- **No signature without admission.** -/
theorem wallet_admitted (hv : agent.verifier = some v) (hb : agent.bundle = some bundle)
    (hempty : ∀ e, w₀.db.admissions e = none)
    (hrun : Pool.Run (guarded agent) Pool.anyStep w₀ p) {l₁ l₂ : List TaskEvent} {i : Nat}
    {task : Task} {c : Call} {r : Except String c.Out}
    (hlog : p.log = l₁ ++ .did i task c r :: l₂) {txDataHex : String} (huses : c.uses txDataHex) :
    ∃ q escrow action snapshot artifact, task = .request q
      ∧ AdmittedBy agent bundle l₂ (seenOf task i l₂) q txDataHex escrow action snapshot
        artifact := by
  obtain ⟨p', hrun', hlog', -⟩ := hrun.before hlog
  have hobeys := hrun.obeys (Task.follows hv (by simp [hb]))
  rw [hlog] at hobeys
  have hpermits : (seenOf task i l₂).Permits agent txDataHex := by
    have hmay := hobeys.split
    cases c with
    | signMultisig on tx =>
      obtain rfl : tx = txDataHex := huses
      exact hmay
    | submitMultisig on tx =>
      obtain rfl : tx = txDataHex := huses
      exact hmay
    | _ => exact huses.elim
  obtain ⟨q, escrow, action, snapshot, row, artifact, htask, habout, hchecked, hseen, hrow,
    hadmits, hnamed⟩ := hpermits
  have hstored : Stored l₂ escrow row :=
    hlog' ▸ (run_sourced hempty hrun').seen task i escrow row (hlog' ▸ hseen)
  obtain ⟨artifact', hkept, hkey, -⟩ :=
    keyed_of_stored (hlog' ▸ hrun'.obeys (Task.follows hv (by simp [hb]))) hstored
  obtain rfl : artifact' = artifact := by
    rw [hkept] at hrow
    exact Json.encoded.inj hrow
  obtain ⟨bundle', hb', haccepted⟩ := hadmits.accepted
  obtain rfl : bundle = bundle' := Option.some.inj (hb.symm.trans hb')
  exact ⟨q, escrow, action, snapshot, artifact', (seenOf_task task i l₂).symm.trans htask, habout,
    hchecked, ⟨row, hrow, hstored⟩, haccepted, hkey, hadmits.action, hadmits.snapshotHash, hnamed⟩

/-! ## 7. A rehearsed admission -/

/-- An artifact for the sample escrow, signed by both guards; its digest is one digit repeated. -/
def sampleArtifact (action : EscrowAction) (digest : Char) : EscrowAdmissionArtifact where
  schema := escrowAdmissionSchemaV1
  escrowIdHex := sampleEscrow
  snapshotHashHex := digit64 '5'
  action := action
  runtimeTrustEpoch := "epoch-1"
  admittedAtUnixMs := 1
  signatures := [("guard-1", "ag-01", "key-1"), ("guard-2", "ag-02", "key-2")].map fun x =>
    ⟨x.1, x.2.1, x.2.2, x.2.2, digit64 digest, escrowAdmissionSigAlg, 1⟩

def sampleGuards : RuntimeTrustBundle where
  trustEpoch := "epoch-1"
  peers := [⟨"guard-1", "ag-01", "key-1"⟩, ⟨"guard-2", "ag-02", "key-2"⟩]

/-- What the sample envelope asks for; one with another text asks for a refund. -/
def sampleAsked (text : String) : TxSignReqBody :=
  if text = "text" then
    ⟨sampleEscrow, .release, "aa", digit64 '5', some (sampleArtifact .release 'c'), none⟩
  else ⟨sampleEscrow, .refund, "bb", digit64 '5', some (sampleArtifact .refund 'b'), none⟩

/-- The second transaction set pays the buyer. -/
def guardedOracle : Oracle
  | .describeTransfer tx =>
    if tx = "bb" then some [⟨some [⟨some "buyer-address", some 100⟩], some 7, some 0, some 0⟩]
    else intakeOracle (.describeTransfer tx)
  | c => intakeOracle c

/-- The sample installation under a trust bundle. A guard's signature is its key, and every token
    names the artifact of the release. -/
def guardedAgent : SignerAgent :=
  { intakeAgent with
    bundle := some sampleGuards
    crypto := { intakeAgent.crypto with
      b64Decode := fun text => .ok (utf8 text)
      falconVerify := fun pk _ sig => if sig = pk then .ok () else .error "bad signature"
      admissionJson := fun a =>
        match a.action with
        | .release => [0xcc]
        | .refund => [0xbb]
      openEnvelope := fun _ env => .ok ⟨escrowAppProtoV1, env.msgType, env.escrowIdHex, env.from_,
        env.to_, env.seq, env.ciphertextB64⟩
      parseBody := fun data => .ok (.txSignReq (sampleAsked data))
      verifyJwt := fun token => (sampleCrypto.verifyJwt token).map
        ({ · with escrowAdmissionHash := some (digit64 'c') }) } }

/-- What becomes of it when these acts are followed, as far as `chk` lets them. -/
def rehearseGuarded (chk : World → List TaskEvent → TaskEvent → Bool)
    (acts : List (Act Task Mode)) : Option (Pool World Task Call Call.Out String Unit) :=
  let P : Player (guarded guardedAgent).exec Mode :=
    ⟨answer guardedOracle, answer_sound guardedOracle⟩
  Pool.follow P chk sampleWorld acts

def signsLast : List TaskEvent → Bool
  | .did _ _ (.signMultisig _ tx) _ :: _ => tx = "aa"
  | _ => false

theorem uses_of_signsLast {l : List TaskEvent} (h : signsLast l = true) :
    ∃ i task c r l₂, l = [] ++ .did i task c r :: l₂ ∧ c.uses "aa" := by
  unfold signsLast at h
  split at h
  · rename_i i task on tx r l₂
    have htx : tx = "aa" := of_decide_eq_true h
    exact ⟨i, task, .signMultisig on tx, r, l₂, rfl, htx⟩
  · cases h

theorem wallet_admitted_release : ∃ (c : Call) (l : List TaskEvent) (g : Seen) (q : Request)
    (escrow : String) (action : EscrowAction) (snapshot : ContractSnapshot)
    (artifact : EscrowAdmissionArtifact), c.uses "aa" ∧ (∀ e, sampleWorld.db.admissions e = none)
      ∧ AdmittedBy guardedAgent sampleGuards l g q "aa" escrow action snapshot artifact := by
  have hplay : (rehearseGuarded (fun _ _ _ => true)
      [ .start 0 (.envelope sampleEnvelope), .calls 0 (List.replicate 6 .works), .close 0,
        .start 1 (.request (signReq "aa" "sign-a-1")),
        .calls 1 (List.replicate 12 .works) ]).any (fun p => signsLast p.log) = true := by
    decide +kernel
  obtain ⟨p, hrun, hp⟩ := Pool.follow_run (fun _ _ _ _ => trivial) hplay
  obtain ⟨i, task, c, r, l₂, hlog, huses⟩ := uses_of_signsLast hp
  obtain ⟨q, escrow, action, snapshot, artifact, -, hadmitted⟩ :=
    wallet_admitted rfl rfl (fun _ => rfl) hrun hlog huses
  exact ⟨c, l₂, _, q, escrow, action, snapshot, artifact, huses, fun _ => rfl, hadmitted⟩

end Nexum.Signer
