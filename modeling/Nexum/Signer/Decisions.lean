import Nexum.Signer.Delivery

/-!
# Two people at one queue

`approve_pending` and `reject_pending` read the row's status, and much later write a new one **by
id, whatever the status is by then**. Between the read and the write lie the wallet and the
mailbox. Two calls that both read `pending` therefore both go through: one sends the signature,
the other the refusal, and the status ends up as whoever wrote last left it.

What is missing is a comparison at the write. This file states it as a condition on the steps of
a run — a status is overwritten only while it is still the one the call last saw, or already the
one it is about to write — and shows that with it at most one kind of decision is ever sent for a
request, and a final status stays.
-/

namespace Nexum.Signer

open Nexum.Lib Nexum.Lib.Prog
open Nexum.Transport

/-! ## 1. Decisions -/

inductive Verdict
  | approve | reject
  deriving DecidableEq

/-- The status of a row whose decision is being sent. -/
def Verdict.sending : Verdict → PendingStatus
  | .approve => .approvedSending
  | .reject => .rejectedSending

/-- The status of a row whose decision was sent. -/
def Verdict.sent : Verdict → PendingStatus
  | .approve => .approvedSent
  | .reject => .rejected

/-- The decision a message brings to the one who asked. -/
def verdictOf : EscrowBody → Option Verdict
  | .txSignResp body => if body.approved then some .approve else none
  | .err body => if body.code = "tx_sign_rejected" then some .reject else none
  | _ => none

inductive Decision
  | approve (id : Int) (token : Option String)
  | reject (id : Int) (reason : String)
  deriving DecidableEq

def Decision.id : Decision → Int
  | .approve id _ | .reject id _ => id

def Decision.verdict : Decision → Verdict
  | .approve _ _ => .approve
  | .reject _ _ => .reject

def Decision.prog (agent : SignerAgent) : Decision → Flow Unit
  | .approve id token => approvePending agent id token
  | .reject id reason => rejectPending agent id reason

/-- Any number of decisions at once, from any number of processes. Others may do anything that
    does not touch the queue. -/
def desk (agent : SignerAgent) : System World Decision Call Call.Out String Unit where
  prog := Decision.prog agent
  exec := exec
  ext w w' := w'.db.pending = w.db.pending

abbrev DeskEvent := Entry Decision Call Call.Out String Unit

def statusOf (id : Int) (w : World) : Option PendingStatus :=
  (w.db.getPending id).map (·.status)

/-- A push, or an attempt at one, of the decision `v` on the request `id`. -/
def pushes (id : Int) (v : Verdict) : DeskEvent → Bool
  | .did _ q (.mailboxPush _ body) _ => q.id = id ∧ verdictOf body = some v
  | _ => false

/-- The status a call last read or wrote, after one more of its own calls. -/
def seenAfter (was : Option PendingStatus) :
    (c : Call) → Except String c.Out → Option PendingStatus
  | .getPending _, .ok row => row.map (·.status)
  | .setPendingStatus _ status _, .ok _ => some status
  | _, _ => was

/-- The status the call numbered `i` last read or wrote. -/
def seenBy (i : Nat) : List DeskEvent → Option PendingStatus
  | [] => none
  | .did j _ c r :: l => if j = i then seenAfter (seenBy i l) c r else seenBy i l
  | _ :: l => seenBy i l

/-- The condition on a step: a status is overwritten only while it is still the one that was
    seen, or already the one to be written. -/
def Unraced (w : World) (l : List DeskEvent) : DeskEvent → Prop
  | .did i _ (.setPendingStatus id status _) (.ok _) =>
    statusOf id w = seenBy i l ∨ statusOf id w = some status
  | _ => True

instance (w : World) (l : List DeskEvent) (e : DeskEvent) : Decidable (Unraced w l e) := by
  dsimp only [Unraced]
  split <;> infer_instance

theorem seenBy_fresh {i : Nat} {l : List DeskEvent} (h : ∀ e ∈ l, e.flow ≠ i) :
    seenBy i l = none := by
  induction l with
  | nil => rfl
  | cons e l ih =>
    obtain ⟨he, hl⟩ := List.forall_mem_cons.mp h
    cases e with
    | did j q c r =>
      have hj : j ≠ i := he
      simp only [seenBy, if_neg hj, ih hl]
    | _ => exact ih hl

/-! ## 2. What becomes of a status -/

/-- The decision `v` is made, and is being sent or was. -/
def Decided (v : Verdict) (status : Option PendingStatus) : Prop :=
  status = some v.sending ∨ status = some v.sent

/-- The writes a call on the way to `v` makes, from the status it saw. -/
inductive Moves (v : Verdict) : Option PendingStatus → PendingStatus → Prop
  | stage : Moves v (some .pending) v.sending
  | close : Moves v (some v.sending) v.sent
  | setAside : Moves v (some .pending) .failedDeadLetter

theorem Decided.unique {v v' : Verdict} {status : Option PendingStatus} (h : Decided v status)
    (h' : Decided v' status) : v = v' := by
  rcases h with rfl | rfl
  · rcases h' with h' | h' <;> cases v <;> cases v' <;> first | rfl | cases h'
  · rcases h' with h' | h' <;> cases v <;> cases v' <;> first | rfl | cases h'

theorem Moves.keeps {v v' : Verdict} {seen now : Option PendingStatus} {status : PendingStatus}
    (h : Moves v seen status) (hnow : now = seen ∨ now = some status) (hd : Decided v' now) :
    Decided v' (some status) := by
  rcases hnow with rfl | rfl
  · cases h with
    | stage => cases v' <;> simp [Decided, Verdict.sending, Verdict.sent] at hd
    | close =>
      obtain rfl : v' = v := hd.unique (.inl rfl)
      exact .inr rfl
    | setAside => cases v' <;> simp [Decided, Verdict.sending, Verdict.sent] at hd
  · exact hd

theorem Moves.final {v v' : Verdict} {seen now : Option PendingStatus} {status : PendingStatus}
    (h : Moves v seen status) (hnow : now = seen ∨ now = some status)
    (hfinal : now = some v'.sent) : some status = now := by
  rcases hnow with rfl | rfl
  · cases h <;> cases v <;> cases v' <;> cases hfinal
  · rfl

/-! ## 3. The protocol of a decision -/

/-- Where a call is: the request it is about, where it is headed, and the status it saw. -/
structure Deciding where
  id : Int
  verdict : Verdict
  seen : Option PendingStatus

def Deciding.next (g : Deciding) (c : Call) (r : Except String c.Out) : Deciding :=
  { g with seen := seenAfter g.seen c r }

/-- A row read by its id has that id. -/
def RowRead : (c : Call) → Except String c.Out → Prop
  | .getPending id, .ok (some row) => row.id = id
  | _, _ => True

/-- A decision is sent only once the call has seen, or written, that it is being sent; a status
    is only ever moved on from the one that was seen. -/
def deciding : Rules Call Call.Out String Deciding where
  may g c :=
    match c with
    | .getPending id => id = g.id
    | .setPendingStatus id status _ => id = g.id ∧ Moves g.verdict g.seen status
    | .mailboxPush _ body => verdictOf body = some g.verdict ∧ g.seen = some g.verdict.sending
    | .enqueuePendingTx _ => False
    | _ => True
  does g c r g' := RowRead c r ∧ g' = g.next c r

/-- The calls the protocol does not watch. -/
def Call.aside : Call → Bool
  | .getPending _ | .setPendingStatus _ _ _ | .mailboxPush _ _ | .enqueuePendingTx _ => false
  | _ => true

theorem deciding_ignores : deciding.Ignores (·.aside = true) := by
  intro g c hc
  cases c with
  | getPending id => cases hc
  | setPendingStatus id status reason => cases hc
  | mailboxPush env body => cases hc
  | enqueuePendingTx row => cases hc
  | _ =>
    refine ⟨trivial, ?_⟩
    rintro r g' ⟨-, rfl⟩
    rfl

/-! ### The parts of an approval that do not touch the queue -/

section
variable {agent : SignerAgent}

theorem aside_of_looks (c : Call) (h : c.looks = true) : c.aside = true := by
  cases c <;> first | rfl | cases h

theorem aside_describeTransfer (context tx : String) :
    Only (·.aside = true) (describeTransfer context tx) fun _ => True := by
  refine (only_describeTransfer context tx).mono fun c hc => ?_
  cases c <;> first | rfl | exact hc.elim

theorem aside_approveFresh (a : Authority) (exp : Nat) (tx : String) :
    Only (·.aside = true) (approveFresh agent a exp tx) fun _ => True := by
  refine (working_approveFresh a tx exp).mono fun c hc => ?_
  cases c <;> first | rfl | exact hc.elim

/-! ### Approving and rejecting -/

variable {g : Deciding} {row : PendingTxSign}

theorem deadLetter_deciding {α : Type} {R : α → Deciding → Prop} (detail : String)
    (hid : row.id = g.id) (hseen : g.seen = some .pending) :
    Ensures deciding (deadLetter row detail : Flow α) g R := by
  unfold deadLetter markPendingError
  have hmay : deciding.may g (.setPendingStatus row.id .failedDeadLetter (some (.text detail))) :=
    ⟨hid, hseen ▸ .setAside⟩
  refine Ensures.bind (R := fun _ _ => True) ?_ fun _ _ _ => .fail
  exact .attempt_bind hmay fun _ _ _ => .pure trivial

theorem deadLetterIf_deciding (c : Prop) [Decidable c] (detail : String) (hid : row.id = g.id)
    (hseen : g.seen = some .pending) :
    Ensures deciding (deadLetterIf c row detail) g fun _ g' => g' = g := by
  unfold deadLetterIf
  split
  · exact deadLetter_deciding detail hid hseen
  · exact .pure rfl

theorem prepareApproval_deciding (hid : row.id = g.id) (hseen : g.seen = some .pending) :
    Ensures deciding (prepareApproval agent row) g fun _ g' => g' = g := by
  unfold prepareApproval
  refine .ofExcept_bind fun computed _ => ?_
  refine (deadLetterIf_deciding _ _ hid hseen).bind fun _ g' hg' => ?_
  subst hg'
  refine .ofExcept_bind fun snapshotHashHex _ => .perform_bind trivial fun active g' hd => ?_
  obtain ⟨-, rfl⟩ := hd
  refine .okOr_bind fun active _ => ?_
  refine (deadLetterIf_deciding _ _ hid hseen).bind fun _ g' hg' => ?_
  subst hg'
  refine .ofExcept_bind fun snapshot _ => .ofExcept_bind fun action _ => ?_
  refine ((only_validateStoredEscrowAdmission ..).mono aside_of_looks).ensures_bind deciding_ignores
    fun _ _ => ?_
  refine .perform_bind trivial fun _ g' hd => ?_
  obtain ⟨-, rfl⟩ := hd
  refine (aside_describeTransfer ..).ensures_bind deciding_ignores fun check _ => ?_
  split
  · exact deadLetter_deciding _ hid hseen
  · exact .pure rfl

theorem approveSign_deciding (token : Option String) (hid : row.id = g.id)
    (hseen : g.seen = some .pending) :
    Ensures deciding (approveSign agent row token) g fun _ g' => g' = g := by
  unfold approveSign
  refine (prepareApproval_deciding hid hseen).bind fun job g' hg' => ?_
  subst hg'
  split
  · refine .perform trivial fun _ g' hd => ?_
    obtain ⟨-, rfl⟩ := hd
    rfl
  · refine .okOr_bind fun token _ => ?_
    refine ((only_verifyCommon ..).mono aside_of_looks).ensures_bind deciding_ignores
      fun t _ => ?_
    refine ((only_validateStoredEscrowAdmission ..).mono aside_of_looks).ensures_bind
      deciding_ignores fun _ _ => .perform_bind trivial fun _ g' hd => ?_
    obtain ⟨-, rfl⟩ := hd
    exact ((aside_approveFresh ..).ensures deciding_ignores _).mono fun _ _ hx => hx.1

variable (agent) in
theorem sendAndClose_deciding {id : Int} {body : EscrowBody} (recipient escrow : String)
    (msgType : MsgType) (seq : Option Nat) (reason : Option DecisionReason) (hid : id = g.id)
    (hbody : verdictOf body = some g.verdict) (hseen : g.seen = some g.verdict.sending) :
    Ensures deciding (do
      sendBodyWithSeq agent recipient escrow msgType body seq
      ask (.setPendingStatus id g.verdict.sent reason)) g fun _ _ => True := by
  have hignores : deciding.IgnoresAt g (Sends body) := by
    intro c hc
    cases c with
    | nextOutSeq e f => exact deciding_ignores g _ rfl
    | encrypt peer payload => exact deciding_ignores g _ rfl
    | mailboxPush env sent =>
      obtain rfl : sent = body := hc
      refine ⟨⟨hbody, hseen⟩, ?_⟩
      rintro r g' ⟨-, rfl⟩
      rfl
    | _ => exact hc.elim
  have hsend : Ensures deciding (sendBodyWithSeq agent recipient escrow msgType body seq) g
      fun _ g' => g' = g :=
    ensures_iff.mpr (wp_mono ((only_sendBodyWithSeq ..).wpAt hignores) fun _ _ hx _ _ => hx.1)
  refine hsend.bind fun _ g' hg' => ?_
  subst hg'
  exact .perform ⟨hid, hseen ▸ .close⟩ fun _ _ _ => trivial

variable (agent) in
theorem stageAndSend_deciding {id : Int} {body : EscrowBody} (recipient escrow from_ : String)
    (msgType : MsgType) (staged : Nat → Option DecisionReason) (reason : Option DecisionReason)
    (hid : id = g.id) (hbody : verdictOf body = some g.verdict)
    (hseen : g.seen = some .pending) :
    Ensures deciding (do
      let outSeq ← ask (.nextOutSeq escrow from_)
      ask (.setPendingStatus id g.verdict.sending (staged outSeq))
      sendBodyWithSeq agent recipient escrow msgType body (some outSeq)
      ask (.setPendingStatus id g.verdict.sent reason)) g fun _ _ => True := by
  refine .perform_bind trivial fun outSeq g' hd => ?_
  obtain ⟨-, rfl⟩ := hd
  refine .perform_bind ⟨hid, hseen ▸ .stage⟩ fun _ g' hd => ?_
  obtain ⟨-, rfl⟩ := hd
  exact sendAndClose_deciding agent (g := g.next _ (.ok _)) recipient escrow msgType _ reason hid
    hbody rfl

theorem approveRow_deciding {id : Int} (token : Option String) (hrow : row.id = g.id)
    (hid : id = g.id) (hv : g.verdict = .approve) (hseen : g.seen = some row.status) :
    Ensures deciding (approveRow agent id token row) g fun _ _ => True := by
  have hbody : ∀ hex hashes, verdictOf (approvalBody row hex hashes) = some g.verdict := by
    intro hex hashes
    rw [hv]
    rfl
  unfold approveRow
  cases hstatus : row.status with
  | approvedSending =>
    unfold resendApproval
    refine .ofExcept_bind fun staged _ => ?_
    have hsending : g.seen = some g.verdict.sending := by rw [hseen, hstatus, hv]; rfl
    have := sendAndClose_deciding agent row.fromId row.escrowIdHex .txSignResp
      staged.outSeq none hid (hbody staged.signedTxDataHex staged.txHashList) hsending
    rwa [hv] at this
  | pending =>
    rw [hstatus] at hseen
    refine (approveSign_deciding token hrow hseen).bind fun signed g' hg' => ?_
    subst hg'
    unfold stageAndSendApproval
    have := stageAndSend_deciding agent row.fromId row.escrowIdHex agent.localId
      .txSignResp
      (fun outSeq => some (.approvedSend ⟨signed.txDataHex, signed.txHashList, some outSeq⟩)) none
      hid (hbody signed.txDataHex signed.txHashList) hseen
    rwa [hv] at this
  | _ => exact .fail

theorem rejectRow_deciding {id : Int} (reason : String) (hid : id = g.id)
    (hv : g.verdict = .reject) (hseen : g.seen = some row.status) :
    Ensures deciding (rejectRow agent id reason row) g fun _ _ => True := by
  have hbody : ∀ reason, verdictOf (rejectionBody row reason) = some g.verdict := by
    intro reason
    rw [hv]
    rfl
  unfold rejectRow
  cases hstatus : row.status with
  | rejectedSending =>
    unfold resendRejection
    refine .ofExcept_bind fun staged _ => ?_
    have hsending : g.seen = some g.verdict.sending := by rw [hseen, hstatus, hv]; rfl
    have := sendAndClose_deciding agent row.fromId row.escrowIdHex .error
      staged.outSeq (some (.text staged.reason)) hid (hbody staged.reason) hsending
    rwa [hv] at this
  | pending =>
    rw [hstatus] at hseen
    unfold stageAndSendRejection
    have := stageAndSend_deciding agent row.fromId row.escrowIdHex agent.localId
      .error (fun outSeq => some (.rejectedSend ⟨reason, some outSeq⟩)) (some (.text reason)) hid
      (hbody reason) hseen
    rwa [hv] at this
  | _ => exact .fail

/-- **Every decision follows the protocol.** -/
theorem Decision.follows (q : Decision) :
    wp deciding (q.prog agent) (fun _ _ => True) ⟨q.id, q.verdict, none⟩ := by
  have h : Ensures deciding (q.prog agent) ⟨q.id, q.verdict, none⟩ fun _ _ => True := by
    cases q with
    | approve id token =>
      show Ensures deciding (approvePending agent id token) _ _
      unfold approvePending
      refine .perform_bind rfl fun found g hd => .okOr_bind fun row hrow => ?_
      obtain ⟨hread, rfl⟩ := hd
      subst hrow
      exact approveRow_deciding token hread rfl rfl rfl
    | reject id reason =>
      show Ensures deciding (rejectPending agent id reason) _ _
      unfold rejectPending
      refine .perform_bind rfl fun found g hd => .okOr_bind fun row hrow => ?_
      obtain ⟨-, rfl⟩ := hd
      subst hrow
      exact rejectRow_deciding reason rfl rfl rfl
  exact wp_mono (ensures_iff.mp h) fun _ _ _ => trivial

end

/-! ## 4. One decision for each request -/

section
variable {id : Int} {w w' : World} {l : List DeskEvent}
  {G : Nat → Option (Decision × Deciding)}

theorem statusOf_congr (h : w'.db.pending = w.db.pending) (id : Int) :
    statusOf id w' = statusOf id w := by
  unfold statusOf SignerDb.getPending
  rw [h]

theorem getPending_setPendingStatus (db : SignerDb) (j id : Int) (status : PendingStatus)
    (reason : Option DecisionReason) (hok : (db.setPendingStatus j status reason).1 = .ok ()) :
    (db.setPendingStatus j status reason).2.getPending id
      = if j = id then (db.getPending id).map fun r =>
          { r with status := status, decisionReason := reason }
        else db.getPending id := by
  unfold SignerDb.setPendingStatus at hok ⊢
  split at hok
  · rename_i hany
    rw [if_pos hany]
    unfold SignerDb.getPending
    -- rewriting a row keeps its id, so the same row is found
    have hfind : ((fun r : PendingTxSign => decide (r.id = id)) ∘ fun r =>
        if r.id = j then { r with status := status, decisionReason := reason } else r)
        = fun r => decide (r.id = id) := by
      funext r
      simp only [Function.comp_apply]
      split <;> rfl
    rw [List.find?_map, hfind]
    cases hr : db.pending.find? fun r => decide (r.id = id) with
    | none => simp
    | some r =>
      have hrid : r.id = id := by simpa using List.find?_some hr
      by_cases hj : j = id
      · simp [hj, hrid]
      · have hj' : ¬ r.id = j := fun h => hj (h.symm.trans hrid)
        simp [hj, hj']
  · cases hok

theorem getPending_of_setPendingStatus {db : SignerDb} {id : Int} {status : PendingStatus}
    {reason : Option DecisionReason} (hok : (db.setPendingStatus id status reason).1 = .ok ()) :
    ∃ row, db.getPending id = some row := by
  unfold SignerDb.setPendingStatus at hok
  split at hok
  · rename_i hany
    obtain ⟨r, hmem, hrid⟩ := List.any_eq_true.mp hany
    exact Option.isSome_iff_exists.mp (List.find?_isSome.mpr ⟨r, hmem, hrid⟩)
  · cases hok

theorem statusOf_setPendingStatus (w : World) (j id : Int) (status : PendingStatus)
    (reason : Option DecisionReason) (hok : (w.db.setPendingStatus j status reason).1 = .ok ()) :
    statusOf id { w with db := (w.db.setPendingStatus j status reason).2 }
      = if j = id then some status else statusOf id w := by
  unfold statusOf
  rw [getPending_setPendingStatus w.db j id status reason hok]
  by_cases hj : j = id
  · subst hj
    obtain ⟨row, hrow⟩ := getPending_of_setPendingStatus hok
    simp [hrow]
  · simp [hj]

theorem exec_setPendingStatus {j : Int} {status : PendingStatus} {reason : Option DecisionReason}
    {r : Except String Unit} (h : exec w (.setPendingStatus j status reason) r w') (id : Int) :
    r = .ok () ∧ statusOf id w' = (if j = id then some status else statusOf id w)
      ∨ (∃ e, r = .error e) ∧ statusOf id w' = statusOf id w := by
  rcases exec_local h rfl rfl with heq | ⟨he, rfl⟩
  · obtain ⟨hr, rfl⟩ := Prod.mk.inj heq
    cases r with
    | ok u => exact .inl ⟨rfl, statusOf_setPendingStatus w j id status reason hr⟩
    | error e =>
      refine .inr ⟨⟨e, rfl⟩, ?_⟩
      rw [SignerDb.setPendingStatus_error j status reason e hr]
  · exact .inr ⟨he, rfl⟩

theorem exec_getPending {j : Int} {found : Option PendingTxSign}
    (h : exec w (.getPending j) (.ok found) w') :
    w' = w ∧ found = w.db.getPending j ∧ ∀ row, found = some row → row.id = j := by
  rcases exec_local h rfl rfl with heq | ⟨⟨e, he⟩, -⟩
  · cases heq
    refine ⟨rfl, rfl, fun row hrow => ?_⟩
    simpa using List.find?_some hrow
  · cases he

/-- **What ties the calls under way and the messages sent to the status of the request.** A call
    that knows of a decision knows the one the row says; so does everyone who was told. -/
structure Agreed (id : Int) (w : World) (l : List DeskEvent)
    (G : Nat → Option (Decision × Deciding)) : Prop where
  seen : ∀ i q g, G i = some (q, g) → g.id = q.id ∧ g.seen = seenBy i l
  knows : ∀ i q g, G i = some (q, g) → g.id = id →
    ∀ v, Decided v g.seen → Decided v (statusOf id w)
  told : ∀ v, l.any (pushes id v) = true → Decided v (statusOf id w)

theorem Agreed.pass (h : Agreed id w l G) {e : DeskEvent} (he : ∀ i q c r, e ≠ .did i q c r)
    {G' : Nat → Option (Decision × Deciding)}
    (hG : ∀ i q g, G' i = some (q, g) →
      G i = some (q, g) ∨ g = ⟨q.id, q.verdict, none⟩ ∧ seenBy i l = none) :
    Agreed id w (e :: l) G' := by
  have hseen : ∀ i, seenBy i (e :: l) = seenBy i l := by
    intro i
    cases e with
    | did j q c r => exact absurd rfl (he j q c r)
    | _ => rfl
  have htold : ∀ v, (e :: l).any (pushes id v) = l.any (pushes id v) := by
    intro v
    cases e with
    | did j q c r => exact absurd rfl (he j q c r)
    | _ => rfl
  refine ⟨?_, ?_, fun v hv => h.told v (htold v ▸ hv)⟩
  · intro i q g hg
    rw [hseen]
    rcases hG i q g hg with hold | ⟨rfl, hnew⟩
    · exact h.seen i q g hold
    · exact ⟨rfl, hnew.symm⟩
  · intro i q g hg hid v hv
    rcases hG i q g hg with hold | ⟨rfl, -⟩
    · exact h.knows i q g hold hid v hv
    · rcases hv with hv | hv <;> cases hv

/-- How the status of the request moves under a call that the protocol allows. -/
theorem exec_decides {g : Deciding} {i : Nat} {q : Decision} {c : Call} {r : Except String c.Out}
    (hmay : deciding.may g c) (hseen : g.seen = seenBy i l) (hexec : exec w c r w')
    (hok : Unraced w l (.did i q c r)) (id : Int) :
    statusOf id w' = statusOf id w ∨
      g.id = id ∧ ∃ status, statusOf id w' = some status ∧ (g.next c r).seen = some status
        ∧ Moves g.verdict g.seen status
        ∧ (statusOf id w = g.seen ∨ statusOf id w = some status) := by
  cases c with
  | setPendingStatus j status reason =>
    obtain ⟨hj, hmoves⟩ := hmay
    rcases exec_setPendingStatus hexec id with ⟨rfl, hw⟩ | ⟨-, hw⟩
    · by_cases hid : j = id
      · subst hid
        rw [if_pos rfl] at hw
        refine .inr ⟨hj.symm, status, hw, rfl, hmoves, ?_⟩
        rw [hseen]
        exact hok
      · rw [if_neg hid] at hw
        exact .inl hw
    · exact .inl hw
  | enqueuePendingTx row => exact hmay.elim
  | _ => exact .inl (statusOf_congr (exec_pending hexec rfl) id)

/-- What a call has seen after one of its own calls: what it had seen, or what is there. -/
theorem seen_next {g : Deciding} {c : Call} {r : Except String c.Out} (hmay : deciding.may g c)
    (hexec : exec w c r w') :
    (g.next c r).seen = g.seen ∨ (g.next c r).seen = statusOf g.id w' := by
  cases c with
  | getPending j =>
    obtain rfl : j = g.id := hmay
    cases r with
    | error e => exact .inl rfl
    | ok found =>
      obtain ⟨rfl, rfl, -⟩ := exec_getPending hexec
      exact .inr rfl
  | setPendingStatus j status reason =>
    rcases exec_setPendingStatus hexec g.id with ⟨rfl, hw⟩ | ⟨⟨e, rfl⟩, -⟩
    · rw [if_pos hmay.1] at hw
      exact .inr hw.symm
    · exact .inl rfl
  | _ => exact .inl rfl

/-- **One call.** -/
theorem Agreed.did (h : Agreed id w l G) {i : Nat} {q : Decision} {g : Deciding}
    (hG : G i = some (q, g)) {c : Call} {r : Except String c.Out} (hmay : deciding.may g c)
    (hexec : exec w c r w') (hok : Unraced w l (.did i q c r)) :
    Agreed id w' (.did i q c r :: l) (Function.update G i (some (q, g.next c r))) := by
  obtain ⟨hgid, hseen⟩ := h.seen i q g hG
  -- no decision is taken back
  have hkept : ∀ v, Decided v (statusOf id w) → Decided v (statusOf id w') := by
    intro v hv
    rcases exec_decides hmay hseen hexec hok id with hsame | ⟨-, status, hnew, -, hmoves, hnow⟩
    · rwa [hsame]
    · rw [hnew]
      exact hmoves.keeps hnow hv
  refine ⟨?_, ?_, ?_⟩
  · intro j q' g' hj
    rcases of_update_some hj with ⟨rfl, heq⟩ | ⟨hij, hold⟩
    · cases heq
      refine ⟨hgid, ?_⟩
      simp only [Deciding.next, seenBy, if_true, hseen]
    · simp only [seenBy, if_neg (Ne.symm hij)]
      exact h.seen j q' g' hold
  · intro j q' g' hj hid v hv
    rcases of_update_some hj with ⟨rfl, heq⟩ | ⟨-, hother⟩
    · cases heq
      have hid : g.id = id := hid
      rcases seen_next hmay hexec with hold | hread
      · rw [hold] at hv
        exact hkept v (h.knows j q g hG hid v hv)
      · rw [hread, hid] at hv
        exact hv
    · exact hkept v (h.knows j q' g' hother hid v hv)
  · intro v hv
    rw [List.any_cons] at hv
    rcases Bool.or_eq_true_iff.mp hv with hpush | hold
    · cases c with
      | mailboxPush env body =>
        obtain ⟨hqid, hbody⟩ := of_decide_eq_true hpush
        obtain ⟨hverdict, hsending⟩ := hmay
        obtain rfl : g.verdict = v := Option.some.inj (hverdict.symm.trans hbody)
        exact hkept _ (h.knows i q g hG (hgid.trans hqid) _ (.inl hsending))
      | _ => cases hpush
    · exact hkept v (h.told v hold)

variable {agent : SignerAgent} {w₀ : World} {p : Pool World Decision Call Call.Out String Unit}

theorem run_agreed (hrun : Pool.Run (desk agent) Unraced w₀ p) (id : Int) :
    ∃ G, Agreed id p.state p.log G
      ∧ Pool.Fits deciding (fun _ _ _ => True) p.flows G := by
  have hinv : Pool.Invariant (desk agent) Unraced deciding
      (fun q => ⟨q.id, q.verdict, none⟩) (fun _ _ _ => True) (Agreed id) := {
    follows := Decision.follows
    start := by
      intro w l G i q h _ hnew _
      refine h.pass (by rintro _ _ _ _ ⟨⟩) fun j q' g hj => ?_
      rcases of_update_some hj with ⟨rfl, heq⟩ | ⟨-, hold⟩
      · cases heq
        exact .inr ⟨rfl, seenBy_fresh hnew⟩
      · exact .inl hold
    did := by
      intro w l G i q g c r w' h hG hmay hexec hok
      refine ⟨g.next c r, ⟨?_, rfl⟩, h.did hG hmay hexec hok⟩
      cases c with
      | getPending j =>
        cases r with
        | error e => trivial
        | ok found =>
          obtain ⟨-, -, hid⟩ := exec_getPending hexec
          cases found with
          | none => trivial
          | some row => exact hid row rfl
      | _ => trivial
    done := fun h _ _ _ => h.pass (by rintro _ _ _ _ ⟨⟩) fun j q g hj => .inl (of_update_none hj)
    crash := fun h _ => h.pass (by rintro _ _ _ _ ⟨⟩) fun j q g hj => .inl (of_update_none hj)
    ext := fun h hext => by
      have hsame := statusOf_congr hext id
      exact ⟨h.seen, fun i q g hG hid v hv => hsame ▸ h.knows i q g hG hid v hv,
        fun v hv => hsame ▸ h.told v hv⟩ }
  refine hrun.inv hinv ⟨?_, ?_, ?_⟩
  · rintro i q g ⟨⟩
  · rintro i q g ⟨⟩
  · rintro v ⟨⟩

/-- The status is one of the two that say the decision was sent. -/
def Final (status : Option PendingStatus) : Prop :=
  ∃ v : Verdict, status = some v.sent

/-- **With unraced writes, at most one kind of decision is sent for a request, and a final status
    stays**: in every pool reached, and across every further step. -/
theorem decision_exclusive (hrun : Pool.Run (desk agent) Unraced w₀ p) (id : Int) :
    (∀ v v', p.log.any (pushes id v) = true → p.log.any (pushes id v') = true → v = v')
      ∧ ∀ e p', Pool.Step (desk agent) p e p' → Unraced p.state p.log e →
        Final (statusOf id p.state) → statusOf id p'.state = statusOf id p.state := by
  obtain ⟨G, hagreed, hfits⟩ := run_agreed hrun id
  refine ⟨fun v v' hv hv' => (hagreed.told v hv).unique (hagreed.told v' hv'), ?_⟩
  rintro e p' hstep hok ⟨v, hfinal⟩
  cases hstep with
  | did r w' hflow hexec =>
    obtain ⟨g, hG, hwp⟩ := hfits.get hflow
    have hmay := (wp_call.mp hwp).1
    rcases exec_decides hmay (hagreed.seen _ _ _ hG).2 hexec hok id with
      hsame | ⟨-, status, hnew, -, hmoves, hnow⟩
    · exact hsame
    · rw [hnew]
      exact hmoves.final hnow hfinal
  | _ => rfl

end

/-! ## 5. Two rehearsed decisions -/

/-- The sample installation with one request in the queue. -/
def queuedWorld : World :=
  { sampleWorld with db := { sampleWorld.db with
      pending := [{ sampleQueued with id := 1 }]
      nextPendingId := 2 } }

def deskPlayer : Player (desk sampleAgent).exec Mode :=
  ⟨answer (sampleOracle signNext), answer_sound (sampleOracle signNext)⟩

def anyDesk : World → List DeskEvent → DeskEvent → Bool := fun _ _ _ => true

/-- Two approvals at once. The first one's last call fails; the second, which came later, finds
    the decision staged, sends it again and closes the row. -/
def resumedActs : List (Act Decision Mode) :=
  [ .start 0 (.approve 1 (some "sign-a-1")),
    .calls 0 (List.replicate 16 .works),
    .start 1 (.approve 1 none),
    .calls 1 (List.replicate 4 .works),
    .calls 0 [.works, .works, .fails "database is locked"],
    .close 0, .close 1 ]

theorem decision_exclusive_resumed :
    ∃ p : Pool World Decision Call Call.Out String Unit,
      (p.log.any (pushes 1 .approve) = true ∧ Final (statusOf 1 p.state))
      ∧ (∀ v v', p.log.any (pushes 1 v) = true → p.log.any (pushes 1 v') = true → v = v')
      ∧ ∀ e p', Pool.Step (desk sampleAgent) p e p' → Unraced p.state p.log e →
        Final (statusOf 1 p.state) → statusOf 1 p'.state = statusOf 1 p.state := by
  have hplay : (Pool.follow deskPlayer (Unraced · · ·) queuedWorld resumedActs).any (fun p =>
      p.log.any (pushes 1 .approve) && statusOf 1 p.state = some .approvedSent) = true := by
    decide +kernel
  obtain ⟨p, hrun, hp⟩ := Pool.follow_run (fun _ _ _ => of_decide_eq_true) hplay
  obtain ⟨hpushed, hsent⟩ := Bool.and_eq_true_iff.mp hp
  exact ⟨p, ⟨hpushed, .approve, of_decide_eq_true hsent⟩, decision_exclusive hrun 1⟩

/-- An approval and a rejection that both read `pending`. -/
def racedActs : List (Act Decision Mode) :=
  [ .start 0 (.approve 1 (some "sign-a-1")),
    .calls 0 (List.replicate 15 .works),
    .start 1 (.reject 1 "not agreed"),
    .calls 1 (List.replicate 6 .works),
    .close 1 ]

/-- The rejection is sent and the row says so; the next step overwrites it. -/
def overwritten (p : Pool World Decision Call Call.Out String Unit) : Bool :=
  p.log.any (pushes 1 .reject) && statusOf 1 p.state = some .rejected
    && (Pool.next deskPlayer anyDesk 0 p .works).any fun p' =>
      statusOf 1 p'.state = some .approvedSending

/-- **Both decisions are sent, and a final status is overwritten.** -/
theorem decision_raced :
    (∃ p, Pool.Run (desk sampleAgent) Pool.anyStep queuedWorld p
      ∧ p.log.any (pushes 1 .approve) = true ∧ p.log.any (pushes 1 .reject) = true)
    ∧ ∃ p e p', Pool.Run (desk sampleAgent) Pool.anyStep queuedWorld p
      ∧ Pool.Step (desk sampleAgent) p e p' ∧ statusOf 1 p.state = some .rejected
      ∧ statusOf 1 p'.state = some .approvedSending := by
  constructor
  · have hplay : (Pool.follow deskPlayer anyDesk queuedWorld
        (racedActs ++ [.calls 0 (List.replicate 4 .works), .close 0])).any (fun p =>
        p.log.any (pushes 1 .approve) && p.log.any (pushes 1 .reject)) = true := by
      decide +kernel
    obtain ⟨p, hrun, hp⟩ := Pool.follow_run (fun _ _ _ _ => trivial) hplay
    exact ⟨p, hrun, Bool.and_eq_true_iff.mp hp⟩
  · have hplay : (Pool.follow deskPlayer anyDesk queuedWorld racedActs).any overwritten
        = true := by
      decide +kernel
    obtain ⟨p, hrun, hp⟩ := Pool.follow_run (fun _ _ _ _ => trivial) hplay
    obtain ⟨hp, hnext⟩ := Bool.and_eq_true_iff.mp hp
    cases hp' : Pool.next deskPlayer anyDesk 0 p .works with
    | none =>
      rw [hp'] at hnext
      cases hnext
    | some p' =>
      rw [hp'] at hnext
      obtain ⟨e, hstep, -⟩ := Pool.next_step hp'
      exact ⟨p, e, p', hrun, hstep, of_decide_eq_true (Bool.and_eq_true_iff.mp hp).2,
        of_decide_eq_true hnext⟩

end Nexum.Signer
