import Nexum.Signer.Intake
import Nexum.Signer.Rehearsal

/-!
# What is acknowledged, and what has been stored

The mailbox delivers a message again and again until it is acknowledged, so a signing request can
only be lost by acknowledging it before it is in the queue. Taken as a whole the loop does that:
the number of an envelope is recorded in a transaction of its own, before the wallet is asked and
before the row is queued. When something in between fails, the next delivery is refused as a
replay, and **a replay is acknowledged**.

What the loop does guarantee is stated for one valid envelope. As long as nothing fails *while a
round has the envelope in hand* — its number recorded, its row not yet queued — and the envelope
meets its own or a higher number only after it was stored, it is acknowledged only after it was
stored, whatever else fails, and however many rounds are under way at once.
-/

namespace Nexum.Signer

open Nexum.Lib Nexum.Lib.Prog
open Nexum.Transport

/-! ## 1. Rounds, any number of them -/

/-- What identifies a request in the queue. -/
def PendingTxSign.slot (row : PendingTxSign) : String × String × Nat :=
  (row.escrowIdHex, row.fromId, min row.seq SignerDb.i64Max)

/-- The request is in the queue, whatever its status is by now. -/
def Queued (slot : String × String × Nat) (w : World) : Prop :=
  ∃ r ∈ w.db.pending, r.slot = slot

/-- Others may do what they like, except take requests out of the queue. -/
def QueueKept (w w' : World) : Prop :=
  ∀ slot, Queued slot w → Queued slot w'

/-- `run`: round after round, and in several processes if need be. A restart is a round that
    stops between two calls, and another one. -/
def loop (agent : SignerAgent) : System World Unit Call Call.Out String Unit where
  prog _ := runOnce agent
  exec := exec
  ext := QueueKept

/-- One thing that happened in the loop. -/
abbrev LoopEvent := Entry Unit Call Call.Out String Unit

/-- The row was written to the queue. -/
def stores (row : PendingTxSign) : LoopEvent → Bool
  | .did _ _ (.enqueuePendingTx row') (.ok _) => row' = row
  | _ => false

def storedIn (row : PendingTxSign) (l : List LoopEvent) : Bool :=
  l.any (stores row)

theorem storedIn_cons (row : PendingTxSign) (e : LoopEvent) (l : List LoopEvent) :
    storedIn row (e :: l) = (stores row e || storedIn row l) := rfl

theorem call_of_stores {row : PendingTxSign} {i : Nat} {q : Unit} {c : Call}
    {r : Except String c.Out} (h : stores row (.did i q c r) = true) :
    ∃ hc : c = .enqueuePendingTx row, ∃ u, hc ▸ r = .ok u := by
  cases c <;> try cases h
  rename_i row'
  cases r with
  | error e => cases h
  | ok u =>
    obtain rfl : row' = row := of_decide_eq_true h
    exact ⟨rfl, u, rfl⟩

theorem storedIn_grows {row : PendingTxSign} {e : LoopEvent} {l : List LoopEvent}
    (h : storedIn row l = true) : storedIn row (e :: l) = true := by
  rw [storedIn_cons, h, Bool.or_true]

/-- Whether a round that has the envelope in hand, or not, has it in hand after a call. -/
def handAfter (env : NxmsEnvelope) (was : Bool) : (c : Call) → Except String c.Out → Bool
  | .recordIncomingSeq _ _ _ of, .ok _ => was || of = env
  | .enqueuePendingTx _, .ok _ => false
  | _, _ => was

/-- The round `i` has recorded the envelope's number, and has not queued anything since. -/
def inHand (env : NxmsEnvelope) (i : Nat) : List LoopEvent → Bool
  | [] => false
  | .did j _ c r :: l => if j = i then handAfter env (inHand env i l) c r else inHand env i l
  | _ :: l => inHand env i l

theorem inHand_fresh {env : NxmsEnvelope} {i : Nat} {l : List LoopEvent}
    (h : ∀ e ∈ l, e.flow ≠ i) : inHand env i l = false := by
  induction l with
  | nil => rfl
  | cons e l ih =>
    obtain ⟨he, hl⟩ := List.forall_mem_cons.mp h
    cases e with
    | did j q c r =>
      have hj : j ≠ i := he
      simp only [inHand, if_neg hj, ih hl]
    | _ => exact ih hl

/-! ## 2. A valid request, and an undisturbed run -/

/-- **The envelope is valid**: if every call succeeds, with the answers `o`, then processing it
    returns and writes `row` to the queue. -/
structure WouldEnqueue (agent : SignerAgent) (env : NxmsEnvelope) (o : Oracle)
    (row : PendingTxSign) : Prop where
  returns : ((processEnvelope agent env).ideal o).1 = .ok ()
  enqueues : .enqueuePendingTx row ∈ ((processEnvelope agent env).ideal o).2

/-- Not a failure, or one whose text does not read like a lasting one. -/
def Transient {α : Type} : Except String α → Prop
  | .ok _ => True
  | .error err => shouldAckNonRetryableProcessError err = false

/-- When the envelope's number is about to be recorded and the request is not stored yet, no
    such number or higher one is on record; and when a call that the database would grant fails,
    it fails transiently. -/
def RecordClear (env : NxmsEnvelope) (row : PendingTxSign) (w : World) (l : List LoopEvent) :
    (c : Call) → Except String c.Out → Prop
  | .recordIncomingSeq escrow sender seq of, r => of = env →
    (storedIn row l = false →
      ∀ seen ∈ w.db.maxSeen escrow sender, seen < min seq SignerDb.i64Max)
    ∧ ((w.db.recordIncomingSeq escrow sender seq).1 = .ok () → Transient r)
  | _, _ => True

/-- The condition on a step: no call fails, or answers otherwise than `o`, in a round that has
    the envelope in hand; and the envelope's number is recorded in the clear. -/
def Undisturbed (env : NxmsEnvelope) (o : Oracle) (row : PendingTxSign) (w : World)
    (l : List LoopEvent) : LoopEvent → Prop
  | .did i _ c r => (inHand env i l = true → r = .ok (o c)) ∧ RecordClear env row w l c r
  | _ => True

/-- Whenever the envelope was acknowledged, its row had been written to the queue. -/
def AckedStored (env : NxmsEnvelope) (row : PendingTxSign) (l : List LoopEvent) : Prop :=
  ∀ before after i receipt r,
    l = after ++ .did i () (.mailboxAck receipt env) r :: before → storedIn row before = true

theorem AckedStored.cons {env : NxmsEnvelope} {row : PendingTxSign} {e : LoopEvent}
    {l : List LoopEvent} (h : AckedStored env row l)
    (he : ∀ i receipt r, e = .did i () (.mailboxAck receipt env) r → storedIn row l = true) :
    AckedStored env row (e :: l) := by
  intro before after i receipt r heq
  cases after with
  | nil =>
    obtain ⟨hhead, rfl⟩ := List.cons.inj heq
    exact he i receipt r hhead
  | cons a after =>
    obtain ⟨-, htail⟩ := List.cons.inj heq
    exact h before after i receipt r htail

/-- The envelope has been acknowledged, or it was tried. -/
def Acked (env : NxmsEnvelope) (l : List LoopEvent) : Prop :=
  ∃ i receipt r, Entry.did i () (.mailboxAck receipt env) r ∈ l

/-! ## 3. The protocol of a round -/

/-- Where a round is with the envelope: in hand or not, and whether it is known to be stored. -/
structure Handling where
  inHand : Bool
  stored : Bool

def Handling.next (env : NxmsEnvelope) (g : Handling) (c : Call) (r : Except String c.Out) :
    Handling where
  inHand := handAfter env g.inHand c r
  stored := g.stored ||
    match c, r with
    | .recordIncomingSeq _ _ _ of, .error err => of = env ∧ shouldAckNonRetryableProcessError err
    | .enqueuePendingTx _, .ok _ => g.inHand
    | _, _ => false

/-- Calls made for the envelope's own sake. -/
def Call.about (env : NxmsEnvelope) : Call → Bool
  | .recordIncomingSeq _ _ _ of | .mailboxAck _ of => of = env
  | _ => false

/-- The calls with which a request is checked. -/
def Call.checks : Call → Bool
  | .recordIncomingSeq _ _ _ _ | .mailboxAck _ _ | .enqueuePendingTx _ => false
  | _ => true

/-- The envelope is acknowledged only when it is known to be stored, and what is queued with the
    envelope in hand is its row. With the envelope in hand nothing goes wrong. -/
def handling (env : NxmsEnvelope) (o : Oracle) (row : PendingTxSign) :
    Rules Call Call.Out String Handling where
  may g c :=
    match c with
    | .mailboxAck _ of => of = env → g.stored = true
    | .enqueuePendingTx row' => g.inHand = true → row' = row
    | _ => True
  does g c r g' := (g.inHand = true → r = .ok (o c)) ∧ g' = g.next env c r

section
variable {agent : SignerAgent} {env : NxmsEnvelope} {o : Oracle} {row : PendingTxSign}
  {g : Handling}

theorem handling_ignores_others (hg : g.inHand = false) :
    (handling env o row).IgnoresAt g (·.about env = false) := by
  intro c hc
  obtain ⟨hand, stored⟩ := g
  obtain rfl : hand = false := hg
  cases c with
  | recordIncomingSeq e f n of =>
    have hof : of ≠ env := by simpa [Call.about] using hc
    refine ⟨trivial, ?_⟩
    rintro (err | u) g' ⟨-, rfl⟩
    · simp [Handling.next, handAfter, hof]
    · simp [Handling.next, handAfter, hof]
  | mailboxAck receipt of =>
    have hof : of ≠ env := by simpa [Call.about] using hc
    refine ⟨fun h => absurd h hof, ?_⟩
    rintro r g' ⟨-, rfl⟩
    simp [Handling.next, handAfter]
  | enqueuePendingTx row' =>
    refine ⟨fun h => absurd h Bool.false_ne_true, ?_⟩
    rintro (err | u) g' ⟨-, rfl⟩
    · simp [Handling.next, handAfter]
    · simp [Handling.next, handAfter]
  | _ =>
    refine ⟨trivial, ?_⟩
    rintro r g' ⟨-, rfl⟩
    simp [Handling.next, handAfter]

theorem handling_ignores_checks : (handling env o row).IgnoresAt g (·.checks = true) := by
  intro c hc
  cases c with
  | recordIncomingSeq e f n of => cases hc
  | mailboxAck receipt of => cases hc
  | enqueuePendingTx row' => cases hc
  | _ =>
    refine ⟨trivial, ?_⟩
    rintro r g' ⟨-, rfl⟩
    simp [Handling.next, handAfter]

/-! ### What the parts of a round call -/

/-- The calls with which a signing request is looked into. -/
def Call.screens : Call → Bool
  | .upsertEscrowAdmissionArtifact _ _ => true
  | c => c.surveys

theorem checks_of_screens (c : Call) (h : c.screens = true) : c.checks = true := by
  cases c <;> first | rfl | cases h

theorem screens_of_surveys (c : Call) (h : c.surveys = true) : c.screens = true := by
  cases c <;> first | rfl | cases h

theorem screens_admitTxSignReq (req : TxSignReqBody) (hash : String) :
    Only (·.screens = true) (admitTxSignReq agent req hash) fun _ => True := by
  unfold admitTxSignReq
  split
  · exact .pure trivial
  · refine .okOr_bind fun artifact _ => .ofExcept_bind fun _ _ => ?_
    exact .perform rfl fun _ _ _ => trivial

theorem screens_checkTxSignReq (payload : NxmsPayload) :
    Only (·.screens = true) (checkTxSignReq agent payload) fun row => row.status = .pending := by
  unfold checkTxSignReq
  refine .ofExcept_bind fun body _ => .okOr_bind fun req _ => .ofExcept_bind fun _ _ => ?_
  refine .perform_bind rfl fun active _ _ => .okOr_bind fun active _ => .failIf_bind fun _ => ?_
  refine .ofExcept_bind fun snapshot _ => ?_
  refine Ensures.bind (screens_admitTxSignReq req _) fun _ _ _ => .perform_bind rfl fun _ _ _ => ?_
  have hdescribe : Only (·.screens = true)
      (describeTransfer "describe_transfer failed: " req.multisigTxsetHex) fun _ => True :=
    (only_describeTransfer ..).mono fun c hc => screens_of_surveys c (surveys_of_describes c hc)
  refine Ensures.bind hdescribe fun check _ _ => .ofExcept_bind fun _ _ => ?_
  exact .ofExcept_bind fun hash _ => .pure rfl

theorem only_checkTxSignReq (payload : NxmsPayload) :
    Only (·.checks = true) (checkTxSignReq agent payload) fun _ => True :=
  Ensures.mono ((screens_checkTxSignReq payload).mono checks_of_screens) fun _ _ _ => trivial

theorem only_sendBody (recipient escrow : String) (msgType : MsgType) (body : EscrowBody) :
    Only (·.checks = true) (sendBody agent recipient escrow msgType body) fun _ => True := by
  refine (only_sendBodyWithSeq ..).mono fun c hc => ?_
  cases c <;> first | rfl | exact hc.elim

theorem not_about_of_checks {c : Call} (h : c.checks = true) : c.about env = false := by
  cases c <;> first | rfl | cases h

theorem only_processEnvelope {env' : NxmsEnvelope} (hne : env' ≠ env) :
    Only (·.about env = false) (processEnvelope agent env') fun _ => True := by
  have hrecord : ∀ e f n, (Call.recordIncomingSeq e f n env').about env = false := by
    simp [Call.about, hne]
  unfold processEnvelope
  refine .ofExcept_bind fun payload _ => .perform_bind (hrecord ..) fun _ _ _ => ?_
  unfold handlePayload
  split
  · unfold handleTxSignReq
    refine Ensures.bind ((only_checkTxSignReq payload).mono fun c => not_about_of_checks)
      fun row _ _ => ?_
    exact .perform rfl fun _ _ _ => trivial
  · exact (only_sendBody ..).mono fun c => not_about_of_checks

/-! ### What a valid envelope brings with it -/

/-- A valid envelope is opened, is a signing request, and passes all its checks. -/
theorem WouldEnqueue.checked (h : WouldEnqueue agent env o row) :
    ∃ payload, openIncoming agent env = .ok payload ∧ payload.msgType = .txSignReq
      ∧ ((checkTxSignReq agent payload).ideal o).1 = .ok row := by
  obtain ⟨hret, henq⟩ := h
  unfold processEnvelope at hret henq
  obtain ⟨payload, hopen, hret, hcalls⟩ := ideal_bind hret
  rw [hcalls] at henq
  obtain ⟨-, -, hret, hcalls⟩ := ideal_bind hret
  rw [hcalls] at henq
  rw [ideal_ofExcept] at hopen henq
  -- opening and recording write nothing, so the row is written by the handler
  have hhandler : .enqueuePendingTx row ∈ ((handlePayload agent payload).ideal o).2 := by
    simpa using henq
  unfold handlePayload at hret hhandler
  cases htype : payload.msgType with
  | txSignReq =>
    rw [htype] at hret hhandler
    unfold handleTxSignReq at hret hhandler
    obtain ⟨row', hchecked, -, hcalls⟩ := ideal_bind hret
    rw [hcalls, ideal_perform] at hhandler
    refine ⟨payload, hopen, htype, ?_⟩
    rcases List.mem_append.mp hhandler with hin | hin
    · exact absurd ((only_checkTxSignReq payload).ideal _ hin) Bool.false_ne_true
    · obtain rfl : row = row' := by simpa using hin
      exact hchecked
  | _ =>
    rw [htype] at hhandler
    exact absurd ((only_sendBody ..).ideal _ hhandler) Bool.false_ne_true

/-- How processing may end: the request is stored, or it failed in a way that is either not
    acknowledged or known to come from a request that is stored. -/
def Disposed (x : Except String Unit) (g : Handling) : Prop :=
  g.inHand = false ∧
    match x with
    | .ok _ => g.stored = true
    | .error err => shouldAckNonRetryableProcessError err = true → g.stored = true

/-- **Processing the envelope itself.** -/
theorem processEnvelope_handling (h : WouldEnqueue agent env o row) (hg : g.inHand = false) :
    wp (handling env o row) (processEnvelope agent env) Disposed g := by
  obtain ⟨payload, hopen, htype, hchecked⟩ := h.checked
  unfold processEnvelope
  rw [hopen]
  refine wp_bind.mpr (wp_ofExcept.mpr (wp_bind.mpr (wp_perform.mpr ⟨trivial, ?_⟩)))
  rintro (err | u) g₁ ⟨-, rfl⟩
  · -- the number was refused
    refine ⟨by simpa [Handling.next, handAfter] using hg, fun herr => ?_⟩
    simp [Handling.next, herr]
  · -- the envelope is in hand now: everything up to the queue goes as it does ideally
    have hhand : (g.next env (.recordIncomingSeq payload.escrowIdHex payload.from_ payload.seq env)
        (.ok u)).inHand = true := by
      simp [Handling.next, handAfter]
    generalize g.next env (.recordIncomingSeq payload.escrowIdHex payload.from_ payload.seq env)
      (.ok u) = g₁ at hhand
    show wp (handling env o row) (handlePayload agent payload) Disposed g₁
    unfold handlePayload
    rw [htype]
    unfold handleTxSignReq
    refine wp_bind.mpr (wp_mono ((only_checkTxSignReq payload).wp_ideal handling_ignores_checks
      fun c r g' hdoes => hdoes.1 hhand) ?_)
    rintro x g' ⟨rfl, rfl⟩
    rw [hchecked]
    refine wp_perform.mpr ⟨fun _ => rfl, ?_⟩
    rintro r g₂ ⟨hr, rfl⟩
    obtain rfl := hr hhand
    exact ⟨rfl, by simp [Handling.next, hhand]⟩

/-! ### A round -/

theorem ackMessage_handling (m : PulledMessage) (hm : m.envelope = env → g.stored = true) :
    wp (handling env o row) (ackMessage agent m) (fun _ g' => g' = g) g := by
  have hack : Only (· = .mailboxAck m.receipt m.envelope) (mailboxAckWithRetry agent m)
      fun _ => True := by
    refine Only.retry ?_ (fun _ => trivial) _
    rfl
  have hignores : (handling env o row).IgnoresAt g (· = .mailboxAck m.receipt m.envelope) := by
    rintro c rfl
    refine ⟨hm, ?_⟩
    rintro r g' ⟨-, rfl⟩
    simp [Handling.next, handAfter]
  unfold ackMessage
  refine wp_bind.mpr (wp_reify.mpr (wp_mono (hack.wpAt hignores) ?_))
  rintro r g' ⟨rfl, -⟩
  exact wp_pure.mpr rfl

theorem settleMessage_handling (m : PulledMessage) {x : Except String Unit}
    (hok : ∀ u, x = .ok u → m.envelope = env → g.stored = true)
    (herr : ∀ err, x = .error err → shouldAckNonRetryableProcessError err = true →
      m.envelope = env → g.stored = true) :
    wp (handling env o row) (settleMessage agent m x) (fun _ g' => g' = g) g := by
  unfold settleMessage
  cases x with
  | ok u => exact ackMessage_handling m (hok u rfl)
  | error err =>
    dsimp only
    split
    · rename_i hack
      exact ackMessage_handling m (herr err rfl hack)
    · exact wp_pure.mpr rfl

theorem handleMessage_handling (h : WouldEnqueue agent env o row) (m : PulledMessage)
    (hg : g.inHand = false) :
    wp (handling env o row) (handleMessage agent m) (fun _ g' => g'.inHand = false) g := by
  unfold handleMessage
  by_cases hm : m.envelope = env
  · rw [hm]
    refine wp_bind.mpr (wp_reify.mpr (wp_mono (processEnvelope_handling h hg) ?_))
    rintro x g₁ ⟨hg₁, hx⟩
    have hsettle : wp (handling env o row) (settleMessage agent m x) (fun _ g' => g' = g₁) g₁ := by
      refine settleMessage_handling m ?_ ?_
      · rintro u rfl -
        exact hx
      · rintro err rfl hack -
        exact hx hack
    exact wp_mono hsettle fun _ g' hg' => hg' ▸ hg₁
  · have hother : wp (handling env o row) (processEnvelope agent m.envelope)
        (fun _ g' => g' = g) g :=
      wp_mono ((only_processEnvelope hm).wpAt (handling_ignores_others hg)) fun _ _ hx => hx.1
    refine wp_bind.mpr (wp_reify.mpr (wp_mono hother ?_))
    rintro x g₁ rfl
    have hsettle : wp (handling env o row) (settleMessage agent m x) (fun _ g' => g' = g₁) g₁ :=
      settleMessage_handling m (fun _ _ henv => absurd henv hm) fun _ _ _ henv => absurd henv hm
    exact wp_mono hsettle fun _ g' hg' => hg' ▸ hg

theorem handleMessages_handling (h : WouldEnqueue agent env o row) (ms : List PulledMessage)
    (hg : g.inHand = false) :
    wp (handling env o row) (handleMessages agent ms) (fun _ g' => g'.inHand = false) g := by
  induction ms generalizing g with
  | nil => exact wp_pure.mpr hg
  | cons m rest ih =>
    unfold handleMessages
    exact wp_seq (handleMessage_handling h m hg) (fun _ _ hg' => ih hg') fun _ _ hg' => hg'

/-- **A round follows the protocol.** -/
theorem runOnce_handling (h : WouldEnqueue agent env o row) (hg : g.inHand = false) :
    wp (handling env o row) (runOnce agent) (fun _ g' => g'.inHand = false) g := by
  have hpull : Only (· = .mailboxPull) (mailboxPullWithRetry agent) fun _ => True := by
    refine Only.retry ?_ (fun _ => trivial) _
    rfl
  have hignores : (handling env o row).IgnoresAt g (· = .mailboxPull) := by
    rintro c rfl
    exact handling_ignores_checks _ rfl
  unfold runOnce
  refine wp_bind.mpr (wp_reify.mpr (wp_mono (hpull.wpAt hignores) ?_))
  rintro (err | ms) g' ⟨rfl, -⟩
  · exact wp_pure.mpr hg
  · exact handleMessages_handling h ms hg

end

/-! ## 4. What a call does to the queue -/

theorem slot_clamped (row : PendingTxSign) (id : Int) (toId : String) :
    PendingTxSign.slot { row with id := id, toId := toId, seq := min row.seq SignerDb.i64Max }
      = row.slot := by
  simp [PendingTxSign.slot]

theorem queued_enqueuePendingTx (w : World) (row : PendingTxSign) :
    Queued row.slot { w with db := w.db.enqueuePendingTx row } := by
  unfold SignerDb.enqueuePendingTx
  dsimp only
  split
  · -- a row with that slot is overwritten
    rename_i hany
    obtain ⟨r, hr, hsame⟩ := List.any_eq_true.mp hany
    refine ⟨_, List.mem_map.mpr ⟨r, hr, rfl⟩, ?_⟩
    rw [if_pos hsame]
    exact slot_clamped row r.id r.toId
  · exact ⟨_, List.mem_append_right _ List.mem_cons_self, slot_clamped row _ row.toId⟩

theorem queueKept_enqueuePendingTx (w : World) (row : PendingTxSign) :
    QueueKept w { w with db := w.db.enqueuePendingTx row } := by
  rintro slot ⟨r, hr, hslot⟩
  unfold SignerDb.enqueuePendingTx
  dsimp only
  split
  · refine ⟨_, List.mem_map.mpr ⟨r, hr, rfl⟩, ?_⟩
    split
    · rename_i hsame
      obtain ⟨he, hf, hn⟩ := of_decide_eq_true hsame
      rw [← hslot, slot_clamped]
      simp only [PendingTxSign.slot, he, hf, hn, min_assoc, min_self]
    · exact hslot
  · exact ⟨r, List.mem_append_left _ hr, hslot⟩

theorem queueKept_setPendingStatus (w : World) (id : Int) (status : PendingStatus)
    (reason : Option DecisionReason) :
    QueueKept w { w with db := (w.db.setPendingStatus id status reason).2 } := by
  rintro slot ⟨r, hr, hslot⟩
  unfold SignerDb.setPendingStatus
  split
  · refine ⟨_, List.mem_map.mpr ⟨r, hr, rfl⟩, ?_⟩
    split
    · exact hslot
    · exact hslot
  · exact ⟨r, hr, hslot⟩

/-- **No call takes a request out of the queue.** -/
theorem exec_queueKept {w w' : World} {c : Call} {r : Except String c.Out} (h : exec w c r w') :
    QueueKept w w' := by
  have hrest : c.queues = false → QueueKept w w' := by
    intro hc slot hslot
    unfold Queued
    rw [exec_pending h hc]
    exact hslot
  cases c with
  | enqueuePendingTx row =>
    rcases exec_local h rfl rfl with heq | ⟨-, rfl⟩
    · cases heq
      exact queueKept_enqueuePendingTx w row
    · exact fun _ hslot => hslot
  | setPendingStatus id status reason =>
    rcases exec_local h rfl rfl with heq | ⟨-, rfl⟩
    · cases heq
      exact queueKept_setPendingStatus w id status reason
    · exact fun _ hslot => hslot
  | _ => exact hrest rfl

theorem exec_enqueued {w w' : World} {row : PendingTxSign} {u : Unit}
    (h : exec w (.enqueuePendingTx row) (.ok u) w') : Queued row.slot w' := by
  cases exec_ok h (by simp [World.serve, World.write])
  exact queued_enqueuePendingTx w row

/-! ## 5. Stored before it is acknowledged -/

section
variable {agent : SignerAgent} {env : NxmsEnvelope} {o : Oracle} {row : PendingTxSign}
  {w w' : World} {l : List LoopEvent} {G : Nat → Option (Unit × Handling)}

/-- What ties the rounds' bookkeeping to the history and the history to the queue. -/
structure Tracked (env : NxmsEnvelope) (row : PendingTxSign) (w : World) (l : List LoopEvent)
    (G : Nat → Option (Unit × Handling)) : Prop where
  hand : ∀ i g, G i = some ((), g) → g.inHand = inHand env i l
  stored : ∀ i g, G i = some ((), g) → g.stored = true → storedIn row l = true
  acked : AckedStored env row l
  queued : storedIn row l = true → Queued row.slot w

/-- Starting, ending or stopping a round changes nothing but the rounds under way. -/
theorem Tracked.pass (h : Tracked env row w l G) {e : LoopEvent}
    (he : ∀ i c r, e ≠ .did i () c r) {G' : Nat → Option (Unit × Handling)}
    (hG : ∀ i g, G' i = some ((), g) →
      G i = some ((), g) ∨ g = ⟨false, false⟩ ∧ inHand env i l = false) :
    Tracked env row w (e :: l) G' := by
  have hhand : ∀ i, inHand env i (e :: l) = inHand env i l := by
    intro i
    cases e with
    | did j q c r => exact absurd rfl (he j c r)
    | _ => rfl
  have hstored : storedIn row (e :: l) = storedIn row l := by
    rw [storedIn_cons]
    cases e with
    | did j q c r => exact absurd rfl (he j c r)
    | _ => rfl
  refine ⟨?_, ?_, h.acked.cons fun i receipt r hr => absurd hr (he i _ r), ?_⟩
  · intro i g hg
    rw [hhand]
    rcases hG i g hg with hold | ⟨rfl, hnew⟩
    · exact h.hand i g hold
    · exact hnew.symm
  · intro i g hg hs
    rw [hstored]
    rcases hG i g hg with hold | ⟨rfl, -⟩
    · exact h.stored i g hold hs
    · cases hs
  · rw [hstored]
    exact h.queued

theorem recordIncomingSeq_ok {db : SignerDb} {escrow sender : String} {n : Nat}
    (h : ∀ seen ∈ db.maxSeen escrow sender, seen < min n SignerDb.i64Max) :
    (db.recordIncomingSeq escrow sender n).1 = .ok () := by
  unfold SignerDb.recordIncomingSeq
  dsimp only
  split
  · rfl
  · rename_i seen hseen
    rw [if_neg (not_le.mpr (h seen hseen))]

theorem Tracked.next_stored (h : Tracked env row w l G) {i : Nat} {g : Handling}
    (hG : G i = some ((), g)) {c : Call} {r : Except String c.Out}
    (hmay : (handling env o row).may g c) (hclear : RecordClear env row w l c r)
    (hs : (g.next env c r).stored = true) : storedIn row (.did i () c r :: l) = true := by
  rcases Bool.or_eq_true_iff.mp hs with hs | hs
  · exact storedIn_grows (h.stored i g hG hs)
  · split at hs
    · -- refused, in words that last: then it is on record, and what is on record is stored
      rename_i e f n of err
      obtain ⟨hof, hack⟩ := of_decide_eq_true hs
      obtain ⟨hfree, htransient⟩ := hclear hof
      refine storedIn_grows ?_
      by_contra hnot
      have hok := recordIncomingSeq_ok (hfree (Bool.not_eq_true _ ▸ hnot))
      exact absurd (hack.symm.trans (htransient hok)) (by decide)
    · -- queued with the envelope in hand
      obtain rfl := hmay hs
      rw [storedIn_cons]
      simp [stores]
    · cases hs

/-- **One call.** -/
theorem Tracked.did (h : Tracked env row w l G) {i : Nat} {g : Handling}
    (hG : G i = some ((), g)) {c : Call} {r : Except String c.Out}
    (hmay : (handling env o row).may g c) (hexec : exec w c r w')
    (hclear : RecordClear env row w l c r) :
    Tracked env row w' (.did i () c r :: l)
      (Function.update G i (some ((), g.next env c r))) := by
  refine ⟨?_, ?_, h.acked.cons ?_, ?_⟩
  · intro j g' hj
    rcases of_update_some hj with ⟨rfl, heq⟩ | ⟨hij, hold⟩
    · cases heq
      simp only [Handling.next, inHand, if_true, h.hand j g hG]
    · simp only [inHand, if_neg (Ne.symm hij)]
      exact h.hand j g' hold
  · intro j g' hj hs
    rcases of_update_some hj with ⟨rfl, heq⟩ | ⟨-, hold⟩
    · cases heq
      exact h.next_stored hG hmay hclear hs
    · exact storedIn_grows (h.stored j g' hold hs)
  · rintro j receipt r' heq
    cases heq
    exact h.stored i g hG (hmay rfl)
  · intro hs
    rw [storedIn_cons] at hs
    rcases Bool.or_eq_true_iff.mp hs with hnew | hold
    · obtain ⟨rfl, u, rfl⟩ := call_of_stores hnew
      exact exec_enqueued hexec
    · exact exec_queueKept hexec _ (h.queued hold)

/-- **A valid request is acknowledged only after it was stored**, in every run all of whose steps
    leave the envelope undisturbed; and once it is acknowledged it is in the queue. -/
theorem acked_after_stored (hvalid : WouldEnqueue agent env o row) {w₀ : World}
    {p : Pool World Unit Call Call.Out String Unit}
    (hrun : Pool.Run (loop agent) (Undisturbed env o row) w₀ p) :
    AckedStored env row p.log ∧ (Acked env p.log → Queued row.slot p.state) := by
  have hinv : Pool.Invariant (loop agent) (Undisturbed env o row) (handling env o row)
      (fun _ => ⟨false, false⟩) (fun _ _ g => g.inHand = false) (Tracked env row) := {
    follows := fun _ => runOnce_handling hvalid rfl
    start := by
      intro w l G i q h _ hnew _
      refine h.pass (by rintro _ _ _ ⟨⟩) fun j g hj => ?_
      rcases of_update_some hj with ⟨rfl, heq⟩ | ⟨-, hold⟩
      · cases heq
        exact .inr ⟨rfl, inHand_fresh hnew⟩
      · exact .inl hold
    did := by
      rintro w l G i ⟨⟩ g c r w' h hG hmay hexec ⟨hhand, hclear⟩
      refine ⟨g.next env c r, ⟨fun hg => hhand (h.hand i g hG ▸ hg), rfl⟩, ?_⟩
      exact h.did hG hmay hexec hclear
    done := fun h _ _ _ => h.pass (by rintro _ _ _ ⟨⟩) fun j g hj => .inl (of_update_none hj)
    crash := fun h _ => h.pass (by rintro _ _ _ ⟨⟩) fun j g hj => .inl (of_update_none hj)
    ext := fun h hext => ⟨h.hand, h.stored, h.acked, fun hs => hext _ (h.queued hs)⟩ }
  have hinit : Tracked env row w₀ [] fun _ => none :=
    ⟨fun _ _ h => (by cases h), fun _ _ h => (by cases h), fun _ _ _ _ _ h => (by simp at h),
      fun h => (by cases h)⟩
  obtain ⟨G, htracked, -⟩ := hrun.inv hinv hinit
  refine ⟨htracked.acked, ?_⟩
  rintro ⟨i, receipt, r, hmem⟩
  obtain ⟨after, before, hsplit⟩ := List.append_of_mem hmem
  have hbefore : storedIn row before = true := htracked.acked before after i receipt r hsplit
  refine htracked.queued ?_
  rw [hsplit, storedIn, List.any_append, ← storedIn, ← storedIn, storedIn_grows hbefore,
    Bool.or_true]

end

/-! ## 6. Two rehearsed deliveries -/

/-- The buyer asks the arbiter to sign the first transaction set. -/
def sampleEnvelope : NxmsEnvelope where
  proto := nxmsProtoV1
  kemId := nxmsWireKemIdV1
  sigId := nxmsWireSigIdV1
  msgType := .txSignReq
  escrowIdHex := sampleEscrow
  from_ := "buyer"
  to_ := "arbiter"
  seq := 1
  kemCtB64 := "kem"
  nonceB64 := "nonce"
  ciphertextB64 := "text"
  tagB64 := "tag"
  sigB64 := "sig"

/-- The sample installation, with a cipher that opens every envelope. -/
def intakeAgent : SignerAgent :=
  { sampleAgent with
    crypto := { sampleCrypto with
      openEnvelope := fun _ env => .ok ⟨escrowAppProtoV1, env.msgType, env.escrowIdHex, env.from_,
        env.to_, env.seq, "request"⟩
      parseBody := fun _ =>
        .ok (.txSignReq ⟨sampleEscrow, .release, "aa", digit64 '5', none, none⟩) } }

/-- The mailbox delivers the sample envelope, every time. -/
def intakeOracle : Oracle
  | .activeSnapshotForEscrow e => sampleWorld.db.activeSnapshotForEscrow e
  | .mailboxPull => [⟨"receipt", sampleEnvelope⟩]
  | c => sampleOracle signNext c

def sampleQueued : PendingTxSign where
  id := 0
  escrowIdHex := sampleEscrow
  fromId := "buyer"
  toId := "arbiter"
  seq := 1
  action := .encoded .release
  snapshotHashHex := digit64 '5'
  multisigTxsetHex := "aa"
  txsetHashHex := digit64 'a'
  status := .pending
  decisionReason := none

def enqueues (row : PendingTxSign) : Call → Bool
  | .enqueuePendingTx r => r = row
  | _ => false

theorem eq_of_enqueues {row : PendingTxSign} {c : Call} (h : enqueues row c = true) :
    c = .enqueuePendingTx row := by
  cases c with
  | enqueuePendingTx r => rw [of_decide_eq_true h]
  | _ => cases h

theorem sampleEnvelope_valid :
    WouldEnqueue intakeAgent sampleEnvelope intakeOracle sampleQueued := by
  have hok : ((processEnvelope intakeAgent sampleEnvelope).ideal intakeOracle).1.isOk = true := by
    decide +kernel
  have hcalls : ((processEnvelope intakeAgent sampleEnvelope).ideal intakeOracle).2.any
      (enqueues sampleQueued) = true := by
    decide +kernel
  obtain ⟨u, hu⟩ := Check.exists_of_isOk hok
  obtain ⟨c, hc, hrow⟩ := List.any_eq_true.mp hcalls
  exact ⟨hu, eq_of_enqueues hrow ▸ hc⟩

/-- The call was answered as the sample oracle answers it. -/
def answersAs (o : Oracle) : (c : Call) → Except String c.Out → Bool
  | .activeSnapshotForEscrow e, .ok a => a = o (.activeSnapshotForEscrow e)
  | .describeTransfer tx, .ok a => a = o (.describeTransfer tx)
  | .ensureWalletOpen, .ok _ => true
  | .enqueuePendingTx _, .ok _ => true
  | _, _ => false

/-- A check that a step leaves the envelope undisturbed. It is stricter than `Undisturbed`, which
    compares answers of every type and asks for a free number only for this envelope. -/
def undisturbed (env : NxmsEnvelope) (o : Oracle) (row : PendingTxSign) (w : World)
    (l : List LoopEvent) : LoopEvent → Bool
  | .did i _ c r =>
    (!inHand env i l || answersAs o c r) &&
      match c, r with
      | .recordIncomingSeq escrow sender seq _, r =>
        (storedIn row l
          || (w.db.maxSeen escrow sender).all (· < min seq SignerDb.i64Max))
        && match (w.db.recordIncomingSeq escrow sender seq).1, r with
          | .ok _, .error err => !shouldAckNonRetryableProcessError err
          | _, _ => true
      | _, _ => true
  | _ => true

theorem undisturbed_sound {env : NxmsEnvelope} {o : Oracle} {row : PendingTxSign} {w : World}
    {l : List LoopEvent} {e : LoopEvent} (h : undisturbed env o row w l e = true) :
    Undisturbed env o row w l e := by
  cases e with
  | did i q c r =>
    obtain ⟨hanswer, hrecord⟩ := Bool.and_eq_true_iff.mp h
    refine ⟨fun hhand => ?_, ?_⟩
    · have hsame : answersAs o c r = true := by simpa [hhand] using hanswer
      unfold answersAs at hsame
      split at hsame
      · exact congrArg _ (of_decide_eq_true hsame)
      · exact congrArg _ (of_decide_eq_true hsame)
      · rfl
      · rfl
      · cases hsame
    · cases c with
      | recordIncomingSeq escrow sender seq of =>
        intro _
        obtain ⟨hfree, htransient⟩ := Bool.and_eq_true_iff.mp hrecord
        refine ⟨fun hstored seen hseen => ?_, fun hok => ?_⟩
        · rw [hstored, Bool.false_or] at hfree
          rw [Option.mem_def.mp hseen] at hfree
          exact of_decide_eq_true hfree
        · cases r with
          | ok u => trivial
          | error err =>
            rw [hok] at htransient
            simpa [Transient] using htransient
      | _ => trivial
  | _ => trivial

/-- What becomes of the loop when these acts are followed, as far as `chk` lets them. -/
def rehearseLoop (chk : World → List LoopEvent → LoopEvent → Bool)
    (acts : List (Act Unit Mode)) : Option (Pool World Unit Call Call.Out String Unit) :=
  let P : Player (loop intakeAgent).exec Mode := ⟨answer intakeOracle, answer_sound intakeOracle⟩
  Pool.follow P chk sampleWorld acts

/-- The sample envelope was acknowledged. -/
def acksSample : LoopEvent → Bool
  | .did _ _ (.mailboxAck _ env) _ => env = sampleEnvelope
  | _ => false

theorem acked_of_acksSample {l : List LoopEvent} (h : l.any acksSample = true) :
    Acked sampleEnvelope l := by
  obtain ⟨e, he, hack⟩ := List.any_eq_true.mp h
  unfold acksSample at hack
  split at hack
  · obtain rfl := of_decide_eq_true hack
    exact ⟨_, _, _, he⟩
  · cases hack

/-- A pull that fails, a record that fails, a delivery that is stored and whose acknowledgement
    fails, and a redelivery that is refused as a replay and acknowledged. -/
def stormyActs : List (Act Unit Mode) :=
  [ .start 0 (), .calls 0 [.fails "mailbox: timeout"], .close 0,
    .start 1 (), .calls 1 [.works, .fails "database is locked"], .close 1,
    .start 2 (), .calls 2 [.works, .works, .works, .works, .works, .works, .fails "timeout"],
    .close 2,
    .start 3 (), .calls 3 [.works, .works, .works], .close 3 ]

theorem acked_after_stored_stormy :
    ∃ p : Pool World Unit Call Call.Out String Unit, Acked sampleEnvelope p.log
      ∧ AckedStored sampleEnvelope sampleQueued p.log
      ∧ (Acked sampleEnvelope p.log → Queued sampleQueued.slot p.state) := by
  have hplay : (rehearseLoop (undisturbed sampleEnvelope intakeOracle sampleQueued)
      stormyActs).any (fun p => p.log.any acksSample) = true := by
    decide +kernel
  obtain ⟨p, hrun, hacked⟩ := Pool.follow_run (fun _ _ _ => undisturbed_sound) hplay
  exact ⟨p, acked_of_acksSample hacked, acked_after_stored sampleEnvelope_valid hrun⟩

/-- The wallet does not answer while the envelope is in hand; the redelivery is refused as a
    replay. -/
def lossyActs : List (Act Unit Mode) :=
  [ .start 0 (), .calls 0 [.works, .works, .works, .fails "wallet rpc timeout"], .close 0,
    .start 1 (), .calls 1 [.works, .works, .works], .close 1 ]

/-- **A valid request can be lost**: acknowledged, and never stored. -/
theorem acked_without_stored :
    ∃ (p : Pool World Unit Call Call.Out String Unit) (row : PendingTxSign),
      WouldEnqueue intakeAgent sampleEnvelope intakeOracle row
      ∧ Pool.Run (loop intakeAgent) Pool.anyStep sampleWorld p
      ∧ Acked sampleEnvelope p.log ∧ storedIn row p.log = false ∧ p.state.db.pending = [] := by
  have hplay : (rehearseLoop (fun _ _ _ => true) lossyActs).any (fun p =>
      p.log.any acksSample && !storedIn sampleQueued p.log && p.state.db.pending.isEmpty)
      = true := by
    decide +kernel
  obtain ⟨p, hrun, hp⟩ := Pool.follow_run (fun _ _ _ _ => trivial) hplay
  simp only [Bool.and_eq_true, Bool.not_eq_true', List.isEmpty_iff] at hp
  obtain ⟨⟨hacked, hstored⟩, hempty⟩ := hp
  exact ⟨p, sampleQueued, sampleEnvelope_valid, hrun, acked_of_acksSample hacked, hstored, hempty⟩

end Nexum.Signer
