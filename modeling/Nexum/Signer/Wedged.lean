import Nexum.Signer.Rehearsal

/-!
# Requests that are left in progress

A flow that has started its request holds a row in progress. If it gives up before the wallet has
accepted anything it is to take the row away again: a row in progress turns away every later flow
with the same request, whatever token it comes with.

What a flow has in hand is one of four things (`Hand`): no row, a row in progress, a row in
progress that it will not let go of any more, or the wallet's answer. The flows are followed
through these once, with their failures, and one invariant says what each of them means for the
table of requests.

Every early return between the two is paired with `abort_sign_request`, except one: submitting
reads the arbiter's evidence with `get_sign_event(..).await?`, after the request was started and
the token consumed. **If that read fails the row stays**, and nothing in the flow takes it away
(`submit_left_in_progress`). `failed_leaves_nothing_iff` says that this is the only way.
-/

namespace Nexum.Signer

open Nexum.Lib Nexum.Lib.Prog
open Nexum.Transport

/-! ## 1. What is watched along a call -/

/-- What went wrong and what was achieved, as far as it matters here. -/
structure Notes where
  /-- Reading the signer's own evidence failed. -/
  evidenceUnread : Bool
  /-- The wallet signed or submitted. -/
  accepted : Bool
  deriving DecidableEq

def Notes.blank : Notes := ⟨false, false⟩

def Notes.note (n : Notes) : (c : Call) → Except String c.Out → Notes
  | .getSignEvent _, .error _ => { n with evidenceUnread := true }
  | .signMultisig _ _, .ok _ | .submitMultisig _ _, .ok _ => { n with accepted := true }
  | _, _ => n

/-- The services, with notes taken. -/
def noting : Services Call Call.Out String (World × Notes) :=
  fun s c r s' => exec s.1 c r s'.1 ∧ s'.2 = s.2.note c r

/-- Letting go of a request succeeds. -/
def heeded : (c : Call) → Except String c.Out → Bool
  | .abortSignRequest _, .error _ => false
  | _, _ => true

/-- **Any call may fail, except for the one that lets go of a request.** -/
def watched : Services Call Call.Out String (World × Notes) :=
  fun s c r s' => noting s c r s' ∧ heeded c r = true

/-- Every request that is in progress afterwards was so before. -/
def NothingLeft (w w' : World) : Prop :=
  ∀ reqId row, w'.db.requests reqId = some row → row.status = .inProgress →
    w.db.requests reqId = some row

/-! ## 2. What a flow has in hand -/

inductive Hand
  | free
  | held (reqId : String)
  /-- The request is in progress and the flow is about to fail. -/
  | stuck (reqId : String)
  | answered

namespace Hand

/-- A request is started with a free hand, and let go of or looked into only when it is held.
    Nothing is done any more when it is stuck, and anything once the wallet has answered. -/
def may : Hand → Call → Prop
  | .free, .abortSignRequest _ | .free, .completeSignRequestWithResult _ _ _ => False
  | .free, .getSignEvent _ => False
  | .held _, .startSignRequest _ _ _ _ _ => False
  | .held _, .completeSignRequestWithResult _ _ _ => False
  | .held reqId, .abortSignRequest r => r = reqId
  | .stuck _, _ => False
  | _, _ => True

def next : Hand → (c : Call) → Except String c.Out → Hand
  | .free, .startSignRequest reqId _ _ _ _, .ok _ => .held reqId
  | .held _, .abortSignRequest _, .ok _ => .free
  | .held reqId, .getSignEvent _, .error _ => .stuck reqId
  | _, .signMultisig _ _, .ok _ | _, .submitMultisig _ _, .ok _ => .answered
  | h, _, _ => h

/-- No row is held that could still be let go of. -/
def Settled (h : Hand) : Prop :=
  ∀ reqId, h ≠ .held reqId

theorem settled_free : Hand.free.Settled := nofun

theorem settled_stuck (reqId : String) : (Hand.stuck reqId).Settled := nofun

theorem settled_answered : Hand.answered.Settled := nofun

end Hand

def handRules : Rules Call Call.Out String Hand where
  may := Hand.may
  does h c r h' := heeded c r = true ∧ h' = h.next c r

/-- The calls that can change what is in hand. -/
def Call.turns : Call → Bool
  | .startSignRequest _ _ _ _ _ | .abortSignRequest _ | .completeSignRequestWithResult _ _ _ => true
  | .getSignEvent _ | .signMultisig _ _ | .submitMultisig _ _ => true
  | _ => false

theorem next_of_unturned {c : Call} (hc : c.turns = false) (h : Hand) (r : Except String c.Out) :
    h.next c r = h := by
  cases c <;> simp only [Call.turns, Bool.true_eq_false] at hc <;> cases h <;> rfl

theorem handRules_ignores {h : Hand} (hstuck : ∀ reqId, h ≠ .stuck reqId) :
    handRules.IgnoresAt h (·.turns = false) := by
  intro c hc
  constructor
  · cases h with
    | stuck reqId => exact absurd rfl (hstuck reqId)
    | free => cases c <;> trivial
    | held reqId => cases c <;> trivial
    | answered => trivial
  · rintro r h' ⟨-, rfl⟩
    exact next_of_unturned hc h r

theorem unturned_of_looks (c : Call) (h : c.looks = true) : c.turns = false := by
  cases c <;> first | rfl | cases h

theorem unturned_of_surveys (c : Call) (h : c.surveys = true) : c.turns = false := by
  cases c <;> first | rfl | cases h

theorem unturned_of_weighs {id : Int} (c : Call) (h : Call.weighs id c) : c.turns = false := by
  rcases h with h | h
  · exact unturned_of_surveys c h
  · cases c <;> first | rfl | exact h.elim

theorem unturned_of_sends {body : EscrowBody} (c : Call) (h : Sends body c) :
    c.turns = false := by
  cases c <;> first | rfl | exact h.elim

section
variable {α β : Type} {agent : SignerAgent} {a : Authority}

theorem free_ignores : handRules.IgnoresAt .free (·.turns = false) :=
  handRules_ignores nofun

theorem held_ignores (reqId : String) : handRules.IgnoresAt (.held reqId) (·.turns = false) :=
  handRules_ignores nofun

theorem free_bind {A : Call → Prop} {p : Flow α} {f : α → Flow β} {R : α → Prop}
    {Q : β → Hand → Prop} (hp : Only A p R) (hA : ∀ c, A c → c.turns = false)
    (hf : ∀ x, R x → Leaves handRules (f x) .free Q Hand.Settled) :
    Leaves handRules (p >>= f) .free Q Hand.Settled :=
  .only_bind (hp.mono hA) free_ignores Hand.settled_free hf

/-- Once the wallet has answered, whatever else a flow does is of no consequence. -/
theorem answered_leaves (p : Flow α) :
    Leaves handRules p .answered (fun _ h => h = .answered) Hand.Settled := by
  have hany : Only (fun _ => True) p fun _ => True := by
    induction p with
    | ret x => exact .pure trivial
    | fail e => exact .fail
    | call c k ih => exact .attempt_bind (c := c) (f := k) trivial fun r _ _ => ih r
  rw [leaves_iff]
  refine wp_mono (hany.keeps (I := (· = .answered)) ?_ rfl) ?_
  · rintro _ c - rfl
    refine ⟨trivial, ?_⟩
    rintro r _ ⟨-, rfl⟩
    cases c <;> rcases r with _ | _ <;> rfl
  · rintro (e | x) h ⟨rfl, -⟩
    · exact Hand.settled_answered
    · rfl

/-! ## 3. While the request is held -/

theorem abortAndFail_settles (reqId e : String) {Q : α → Hand → Prop} :
    Leaves handRules (abortAndFail reqId e : Flow α) (.held reqId) Q Hand.Settled := by
  unfold abortAndFail
  refine .attempt_bind rfl fun r h hd => .fail ?_
  obtain ⟨hheeded, rfl⟩ := hd
  cases r with
  | ok _ => exact Hand.settled_free
  | error _ => cases hheeded

theorem consumeOrAbort_settles (op : String) (exp : Nat) :
    Leaves handRules (consumeOrAbort a op exp) (.held a.reqId) (fun _ h => h = .held a.reqId)
      Hand.Settled := by
  unfold consumeOrAbort
  refine .attempt_bind trivial fun r h hd => ?_
  obtain ⟨-, rfl⟩ := hd
  cases r with
  | ok _ => exact .pure rfl
  | error e => exact abortAndFail_settles a.reqId e

theorem walletSign_settles (tx : String) :
    Leaves handRules (walletSign a tx) (.held a.reqId) (fun _ h => h = .answered)
      Hand.Settled := by
  unfold walletSign
  refine .attempt_bind trivial fun r h hd => ?_
  obtain ⟨-, rfl⟩ := hd
  cases r with
  | ok signed => exact answered_leaves _
  | error e => exact abortAndFail_settles a.reqId e

theorem walletSubmit_settles (tx : String) :
    Leaves handRules (walletSubmit a tx) (.held a.reqId) (fun _ h => h = .answered)
      Hand.Settled := by
  unfold walletSubmit
  refine .attempt_bind trivial fun r h hd => ?_
  obtain ⟨-, rfl⟩ := hd
  cases r with
  | ok txHashList => exact answered_leaves _
  | error e => exact abortAndFail_settles a.reqId e

/-- The token quotes a signature of the arbiter. -/
def QuotesArbiter (claims : ActionClaims) : Prop :=
  (trimmedNonEmpty claims.proofArbiterJti).isSome = true
    ∧ (trimmedNonEmpty claims.proofArbiterReqId).isSome = true

theorem quotesArbiter_of_checked {cr : Crypto} {escrow hash : String} {claims : ActionClaims}
    (h : checkSubmitProofs cr escrow hash claims = .ok ()) : QuotesArbiter claims := by
  simp only [checkSubmitProofs, Check.bind_eq_ok, Check.okOr_eq_ok] at h
  obtain ⟨jti, hjti, -, -, reqId, hreq, -⟩ := h
  exact ⟨Option.isSome_iff_exists.mpr ⟨jti, hjti⟩, Option.isSome_iff_exists.mpr ⟨reqId, hreq⟩⟩

/-- A token that was accepted for submitting has no proof missing, so what is left is the read
    of the evidence. -/
theorem checkLocalProof_settles {claims : ActionClaims} (hquotes : QuotesArbiter claims) :
    Leaves handRules (checkLocalProof a claims) (.held a.reqId) (fun _ h => h = .held a.reqId)
      Hand.Settled := by
  obtain ⟨jti, hjti⟩ := Option.isSome_iff_exists.mp hquotes.1
  obtain ⟨reqId, hreq⟩ := Option.isSome_iff_exists.mp hquotes.2
  unfold checkLocalProof
  refine .perform_bind trivial ?_ fun proof h hd => ?_
  · rintro e h ⟨-, rfl⟩
    exact Hand.settled_stuck a.reqId
  · obtain ⟨-, rfl⟩ := hd
    cases proof with
    | none => exact abortAndFail_settles a.reqId _
    | some proof =>
      rw [hjti, hreq]
      show Leaves handRules (if proof.jti ≠ jti ∨ proof.reqId ≠ reqId then
        abortAndFail a.reqId _ else pure ()) (.held a.reqId) _ _
      split
      · exact abortAndFail_settles a.reqId _
      · exact .pure rfl

theorem checkSellerProof_settles (claims : ActionClaims) :
    Leaves handRules (checkSellerProof agent a claims) (.held a.reqId)
      (fun _ h => h = .held a.reqId) Hand.Settled := by
  unfold checkSellerProof
  split
  · exact abortAndFail_settles a.reqId _
  · exact abortAndFail_settles a.reqId _
  · rename_i jti reqId _ _
    -- asking the orchestrator leaves the hand alone, and its outcome is looked at
    have hasks : Only (·.turns = false)
        (verifySubmitSellerQuorumProof agent a.escrowIdHex a.txsetHashHex jti reqId)
        fun _ => True := only_verifySubmitSeller (fun _ _ => rfl) ..
    refine .reify_bind (hasks.wpAt (held_ignores a.reqId)) ?_
    rintro r _ ⟨rfl, -⟩
    cases r with
    | ok _ => exact .pure rfl
    | error e => exact abortAndFail_settles a.reqId e

/-! ## 4. Whole flows -/

theorem submitFresh_settles {claims : ActionClaims} (hquotes : QuotesArbiter claims)
    (tx : String) :
    Leaves handRules (submitFresh agent a claims tx) (.held a.reqId) (fun _ _ => True)
      Hand.Settled := by
  unfold submitFresh
  refine (consumeOrAbort_settles _ _).bind ?_
  rintro _ _ rfl
  refine (checkLocalProof_settles hquotes).bind ?_
  rintro _ _ rfl
  refine (checkSellerProof_settles claims).bind ?_
  rintro _ _ rfl
  exact (walletSubmit_settles tx).mono fun _ _ _ => trivial

theorem signFresh_settles (exp : Nat) (tx : String) :
    Leaves handRules (signFresh agent a exp tx) (.held a.reqId) (fun _ _ => True)
      Hand.Settled := by
  unfold signFresh
  refine (consumeOrAbort_settles _ _).bind ?_
  rintro _ _ rfl
  refine (walletSign_settles tx).bind ?_
  rintro signed _ rfl
  exact (answered_leaves _).mono fun _ _ _ => trivial

theorem approveFresh_settles (exp : Nat) (tx : String) :
    Leaves handRules (approveFresh agent a exp tx) (.held a.reqId) (fun _ h => h = .answered)
      Hand.Settled := by
  unfold approveFresh
  refine (consumeOrAbort_settles _ _).bind ?_
  rintro _ _ rfl
  refine (walletSign_settles tx).bind ?_
  rintro signed _ rfl
  exact answered_leaves _

/-- A request that cannot be started leaves nothing in hand, replayed or not. -/
theorem startOrReplay_settles (op : String) (exp : Nat)
    (parse : Json SignRequestCachedResult → Except String α) {fresh : Flow α}
    (hfresh : Leaves handRules fresh (.held a.reqId) (fun _ _ => True) Hand.Settled) :
    Leaves handRules (startOrReplay a op exp parse fresh) .free (fun _ _ => True)
      Hand.Settled := by
  have hreplay : Only (·.turns = false) (replay a op exp parse) fun _ => True := by
    unfold replay
    refine .perform_bind rfl fun existing _ _ => .okOr_bind fun existing _ => ?_
    refine .failIf_bind fun _ => .failIf_bind fun _ => .perform_bind rfl fun _ _ _ => ?_
    refine .perform_bind rfl fun cached _ _ => .okOr_bind fun cached _ => ?_
    exact .ofExcept fun _ _ => trivial
  unfold startOrReplay
  refine .attempt_bind trivial fun r h hd => ?_
  obtain ⟨-, rfl⟩ := hd
  cases r with
  | ok _ => exact hfresh
  | error e =>
    show Leaves handRules (if containsText e "duplicate req_id" = true then replay a op exp parse
      else fail e) .free _ _
    split
    · exact .only hreplay free_ignores Hand.settled_free fun _ _ => trivial
    · exact .fail Hand.settled_free

theorem ask_wallet_settles {c : Call}
    (hc : (∃ tx, c = .signMultisig none tx) ∨ ∃ tx, c = .submitMultisig none tx) :
    Leaves handRules (ask c) .free (fun _ h => h = .answered) Hand.Settled := by
  rcases hc with ⟨tx, rfl⟩ | ⟨tx, rfl⟩
  all_goals
    refine .perform trivial ?_ ?_
    · rintro e h ⟨-, rfl⟩
      exact Hand.settled_free
    · rintro x h ⟨-, rfl⟩
      rfl

theorem signMultisigFlow_settles (escrow : String) (action : EscrowAction) (tx : String)
    (token : Option String) :
    Leaves handRules (signMultisigFlow agent escrow action tx token) .free (fun _ _ => True)
      Hand.Settled := by
  unfold signMultisigFlow
  refine free_bind (only_prepare ..) unturned_of_surveys fun job _ => ?_
  cases agent.verifier with
  | none => exact (ask_wallet_settles (.inl ⟨_, rfl⟩)).mono fun _ _ _ => trivial
  | some v =>
    refine .okOr_bind Hand.settled_free fun token _ => ?_
    refine free_bind (only_verifyCommon ..) unturned_of_looks fun t _ => ?_
    refine free_bind (only_validateStoredEscrowAdmission ..) unturned_of_looks fun _ _ => ?_
    exact startOrReplay_settles _ _ _ (signFresh_settles _ _)

theorem submitMultisigFlow_settles (escrow : String) (action : EscrowAction) (tx : String)
    (token : Option String) :
    Leaves handRules (submitMultisigFlow agent escrow action tx token) .free (fun _ _ => True)
      Hand.Settled := by
  unfold submitMultisigFlow
  refine free_bind (only_prepare ..) unturned_of_surveys fun job _ => ?_
  cases agent.verifier with
  | none => exact (ask_wallet_settles (.inr ⟨_, rfl⟩)).mono fun _ _ _ => trivial
  | some v =>
    refine .okOr_bind Hand.settled_free fun token _ => ?_
    have hverify : Only (·.looks = true) (verifySubmitMultisig agent v token job.escrowIdHex
        job.txsetHashHex job.snapshotHash) fun t => QuotesArbiter t.claims := by
      unfold verifySubmitMultisig
      refine Ensures.bind (only_verifyCommon ..) fun t _ _ => ?_
      exact .ofExcept_bind fun _ hproofs => .pure (quotesArbiter_of_checked hproofs)
    refine free_bind hverify unturned_of_looks fun t hquotes => ?_
    refine free_bind (only_validateStoredEscrowAdmission ..) unturned_of_looks fun _ _ => ?_
    exact startOrReplay_settles _ _ _ (submitFresh_settles hquotes _)

theorem approveSign_settles (row : PendingTxSign) (token : Option String) :
    Leaves handRules (approveSign agent row token) .free (fun _ h => h = .answered)
      Hand.Settled := by
  unfold approveSign
  refine free_bind (only_prepareApproval ..) unturned_of_weighs fun job _ => ?_
  cases agent.verifier with
  | none => exact ask_wallet_settles (.inl ⟨_, rfl⟩)
  | some v =>
    refine .okOr_bind Hand.settled_free fun token _ => ?_
    refine free_bind (only_verifyCommon ..) unturned_of_looks fun t _ => ?_
    refine free_bind (only_validateStoredEscrowAdmission ..) unturned_of_looks fun _ _ => ?_
    refine .perform_bind trivial ?_ ?_
    · rintro e h ⟨-, rfl⟩
      exact Hand.settled_free
    · rintro _ h ⟨-, rfl⟩
      exact approveFresh_settles _ _

theorem send_settles {recipient escrow : String} {msgType : MsgType} {body : EscrowBody}
    {seq : Option Nat} {id : Int} {status : PendingStatus} {reason : Option DecisionReason} :
    Leaves handRules (sendBodyWithSeq agent recipient escrow msgType body seq >>= fun _ =>
      ask (.setPendingStatus id status reason)) .free (fun _ _ => True) Hand.Settled := by
  refine free_bind (only_sendBodyWithSeq ..) unturned_of_sends fun _ _ => ?_
  refine .perform trivial ?_ fun _ _ _ => trivial
  rintro e h ⟨-, rfl⟩
  exact Hand.settled_free

theorem approvePending_settles (id : Int) (token : Option String) :
    Leaves handRules (approvePending agent id token) .free (fun _ _ => True) Hand.Settled := by
  unfold approvePending
  refine .perform_bind trivial ?_ ?_
  · rintro e h ⟨-, rfl⟩
    exact Hand.settled_free
  rintro row h ⟨-, rfl⟩
  refine .okOr_bind Hand.settled_free fun row _ => ?_
  unfold approveRow
  split
  · unfold resendApproval
    exact .ofExcept_bind Hand.settled_free fun staged _ => send_settles
  · refine (approveSign_settles row token).bind ?_
    rintro signed _ rfl
    exact (answered_leaves _).mono fun _ _ _ => trivial
  · exact .fail Hand.settled_free

theorem rejectPending_settles (id : Int) (reason : String) :
    Leaves handRules (rejectPending agent id reason) .free (fun _ _ => True) Hand.Settled := by
  have hfails : ∀ {c : Call} {e : String} {h : Hand}, c.turns = false →
      handRules.does .free c (.error e) h → h.Settled := by
    rintro c e h hc ⟨-, rfl⟩
    rw [next_of_unturned hc]
    exact Hand.settled_free
  unfold rejectPending
  refine .perform_bind trivial (fun e h hd => hfails rfl hd) ?_
  rintro row h ⟨-, rfl⟩
  refine .okOr_bind Hand.settled_free fun row _ => ?_
  unfold rejectRow
  split
  · unfold resendRejection
    exact .ofExcept_bind Hand.settled_free fun staged _ => send_settles
  · unfold stageAndSendRejection
    refine .perform_bind trivial (fun e h hd => hfails rfl hd) ?_
    rintro outSeq h ⟨-, rfl⟩
    refine .perform_bind trivial (fun e h hd => hfails rfl hd) ?_
    rintro _ h ⟨-, rfl⟩
    exact send_settles
  · exact .fail Hand.settled_free

/-- **Whatever a node is asked, when it fails it is not in the middle of holding a request.** -/
theorem Request.settles (agent : SignerAgent) (q : Request) :
    Leaves handRules (q.prog agent) .free (fun _ _ => True) Hand.Settled := by
  cases q with
  | sign e action tx token =>
    exact (signMultisigFlow_settles e action tx token).bind fun _ _ _ => .pure trivial
  | submit e action tx token =>
    exact (submitMultisigFlow_settles e action tx token).bind fun _ _ _ => .pure trivial
  | approve id token =>
    exact (approvePending_settles id token).bind fun _ _ _ => .pure trivial
  | reject id reason =>
    exact (rejectPending_settles id reason).bind fun _ _ _ => .pure trivial

end

/-! ## 5. What is in hand, and the table of requests -/

section
variable {w₀ w w' : World} {n : Notes} {h : Hand} {c : Call} {r : Except String c.Out}

/-- The table is as it was before the call, but for one row in progress under a name that was
    free. -/
def OneMore (w₀ w : World) (reqId : String) : Prop :=
  ∃ row : SignRequestRow, row.status = .inProgress ∧ w₀.db.requests reqId = none
    ∧ w.db.requests = Function.update w₀.db.requests reqId (some row)

/-- What a flow that started in `w₀` has left when this is in its hand. -/
def InHand (w₀ : World) (s : World × Notes) : Hand → Prop
  | .free => s.1.db.requests = w₀.db.requests ∧ s.2 = .blank
  | .held reqId => OneMore w₀ s.1 reqId ∧ s.2 = .blank
  | .stuck reqId => OneMore w₀ s.1 reqId ∧ s.2 = { Notes.blank with evidenceUnread := true }
  | .answered => s.2.accepted = true

theorem InHand.same (hin : InHand w₀ (w, n) h) (hreq : w'.db.requests = w.db.requests) :
    InHand w₀ (w', n) h := by
  cases h <;> simp only [InHand, OneMore, hreq] at hin ⊢ <;> exact hin

theorem accepted_note (hn : n.accepted = true) (c : Call) (r : Except String c.Out) :
    (n.note c r).accepted = true := by
  cases c <;> rcases r with _ | _ <;> first | exact hn | rfl

/-- The calls that start, drop or complete a request. -/
def Call.tracksRequest : Call → Bool
  | .startSignRequest _ _ _ _ _ | .abortSignRequest _ | .completeSignRequestWithResult _ _ _ => true
  | _ => false

theorem exec_requests (hexec : exec w c r w') (hc : c.tracksRequest = false) :
    w'.db.requests = w.db.requests := by
  cases exec_effect hexec with
  | frame _ hf => exact hf.requests
  | nothing e => rfl
  | consumed hnew => rfl
  | recorded =>
    unfold SignerDb.recordSignEvent
    split <;> rfl
  | stored hrow => rfl
  | started hnew => cases hc
  | aborted => cases hc
  | completed hrow _ _ => cases hc

theorem OneMore.abort {reqId : String} (hone : OneMore w₀ w reqId) :
    (w.db.abortSignRequest reqId).requests = w₀.db.requests := by
  obtain ⟨row, hstatus, hnew, hreq⟩ := hone
  have hrow : w.db.requests reqId = some row := by
    rw [hreq, Function.update_self]
  simp only [SignerDb.abortSignRequest, hrow, hstatus, if_true]
  rw [hreq, Function.update_idem, ← hnew, Function.update_eq_self]

/-- **One call**: what is in the hand afterwards says again what is in the table. -/
theorem InHand.did (hin : InHand w₀ (w, n) h) (hmay : h.may c)
    (hexec : watched (w, n) c r (w', n')) : InHand w₀ (w', n') (h.next c r) := by
  obtain ⟨⟨hexec, rfl⟩, hheeded⟩ := hexec
  dsimp only at hexec hheeded ⊢
  cases h with
  | answered =>
    have hnext : Hand.answered.next c r = .answered := by
      cases c <;> rcases r with _ | _ <;> rfl
    rw [hnext]
    exact accepted_note hin c r
  | stuck reqId => exact hmay.elim
  | free =>
    cases c with
    | startSignRequest i e op round hash =>
      cases exec_effect hexec with
      | frame hc _ => cases hc
      | nothing err => exact hin
      | started hnew =>
        obtain ⟨hreq, hn⟩ := hin
        refine ⟨⟨⟨e, op, round, hash, .inProgress⟩, rfl, ?_, ?_⟩, hn⟩
        · rw [← hreq]
          exact hnew
        · show Function.update w.db.requests i _ = _
          rw [show w.db.requests = w₀.db.requests from hreq]
    | abortSignRequest i => exact hmay.elim
    | completeSignRequestWithResult i op resp => exact hmay.elim
    | getSignEvent key => exact hmay.elim
    | signMultisig on tx | submitMultisig on tx =>
      cases r with
      | ok out => exact rfl
      | error e => exact hin.same (exec_requests hexec rfl)
    | _ => exact hin.same (exec_requests hexec rfl)
  | held reqId =>
    cases c with
    | startSignRequest i e op round hash => exact hmay.elim
    | completeSignRequestWithResult i op resp => exact hmay.elim
    | abortSignRequest i =>
      obtain rfl : i = reqId := hmay
      cases r with
      | error e => cases hheeded
      | ok _ =>
        cases exec_effect hexec with
        | frame hc _ => cases hc
        | aborted => exact ⟨hin.1.abort, hin.2⟩
    | getSignEvent key =>
      have hreq := exec_requests hexec rfl
      obtain ⟨hone, hn⟩ := hin.same hreq
      cases r with
      | ok _ => exact ⟨hone, hn⟩
      | error e =>
        obtain rfl : n = .blank := hn
        exact ⟨hone, rfl⟩
    | signMultisig on tx | submitMultisig on tx =>
      cases r with
      | ok out => exact rfl
      | error e => exact hin.same (exec_requests hexec rfl)
    | _ => exact hin.same (exec_requests hexec rfl)

end

/-! ## 6. When a failed call leaves nothing -/

/-- **A call that fails before the wallet has accepted anything leaves no request of its own in
    progress, exactly if it was not the read of the signer's own evidence that failed.** Then
    every request can be started as well as before, whatever the token. -/
theorem failed_leaves_nothing_iff (agent : SignerAgent) (q : Request) {w w' : World} {n : Notes}
    {e : String} (hrun : Runs watched (w, .blank) (q.prog agent) (.error e) (w', n))
    (hrefused : n.accepted = false) :
    (NothingLeft w w' ↔ n.evidenceUnread = false)
      ∧ (n.evidenceUnread = false → ∀ reqId escrow op round hash,
        (w'.db.startSignRequest reqId escrow op round hash).1
          = (w.db.startSignRequest reqId escrow op round hash).1) := by
  have hcall : ∀ (s : World × Notes) (h : Hand) (c : Call) (r : Except String c.Out)
      (s' : World × Notes), InHand w s h → handRules.may h c → watched s c r s' →
      ∃ h', handRules.does h c r h' ∧ InHand w s' h' :=
    fun s h c r s' hin hmay hexec => ⟨_, ⟨hexec.2, rfl⟩, hin.did hmay hexec⟩
  obtain ⟨h, hsettled, hin⟩ := hrun.inv hcall (leaves_iff.mp (q.settles agent))
    (⟨rfl, rfl⟩ : InHand w (w, .blank) .free)
  cases h with
  | held reqId => exact absurd rfl (hsettled reqId)
  | answered =>
    rw [show n.accepted = true from hin] at hrefused
    cases hrefused
  | free =>
    obtain ⟨hreq, rfl⟩ : w'.db.requests = w.db.requests ∧ n = .blank := hin
    refine ⟨⟨fun _ => rfl, fun _ reqId row hrow _ => ?_⟩, fun _ reqId escrow op round hash => ?_⟩
    · rw [← hreq]
      exact hrow
    · simp only [SignerDb.startSignRequest, hreq]
      split <;> rfl
  | stuck reqId =>
    obtain ⟨⟨row, hstatus, hnew, hreq⟩, rfl⟩ := hin
    refine ⟨⟨fun hnothing => ?_, nofun⟩, nofun⟩
    have hrow : w'.db.requests reqId = some row := by
      rw [show w'.db.requests = _ from hreq, Function.update_self]
    rw [hnothing reqId row hrow hstatus] at hnew
    cases hnew

/-! ## 7. Two calls -/

def noteTaker (o : Oracle) : Player noting Mode where
  answer m s c := ((answer o m s.1 c).1, ((answer o m s.1 c).2, s.2.note c (answer o m s.1 c).1))
  sound m s c := ⟨answer_sound o m s.1 c, rfl⟩

/-- Play a request at the sample node, with one of its calls failing. -/
def playFailing (q : Request) (failing : Nat) :
    Option (Except String Reply × World × Notes) :=
  (q.prog sampleAgent).playIf (noteTaker (sampleOracle signNext))
    (fun i => if i = failing then .fails "failed" else .works) heeded 0 (sampleWorld, .blank)

def submitReq : Request :=
  .submit sampleEscrow .release "bb" (some "submit-b-4")

theorem failed_leaves_nothing_refused :
    ∃ e w' n, Runs watched (sampleWorld, .blank) ((signReq "aa" "sign-a-1").prog sampleAgent)
        (.error e) (w', n) ∧ n.accepted = false ∧ NothingLeft sampleWorld w' := by
  have hplay : (playFailing (signReq "aa" "sign-a-1") 9).any (fun x =>
      x.1 = .error "failed" ∧ x.2.2 = .blank) = true := by decide +kernel
  obtain ⟨x, ⟨w', n⟩, hrun, hend⟩ := Prog.playIf_runs hplay
  obtain ⟨rfl, rfl⟩ : x = .error "failed" ∧ n = .blank := by simpa using hend
  exact ⟨_, w', _, hrun, rfl, (failed_leaves_nothing_iff _ _ hrun rfl).1.mpr rfl⟩

/-- **The arbiter's evidence cannot be read, and the request to submit stays in progress.** -/
theorem submit_left_in_progress :
    ∃ e w' n, Runs watched (sampleWorld, .blank) (submitReq.prog sampleAgent) (.error e) (w', n)
      ∧ n.accepted = false ∧ ¬ NothingLeft sampleWorld w' := by
  have hplay : (playFailing submitReq 9).any (fun x =>
      x.1 = .error "failed" ∧ x.2.2.accepted = false
        ∧ ((x.2.1.db.requests (digit64 '6')).map (·.status)) = some .inProgress) = true := by
    decide +kernel
  obtain ⟨x, ⟨w', n⟩, hrun, hend⟩ := Prog.playIf_runs hplay
  obtain ⟨rfl, hrefused, hleft⟩ : x = .error "failed" ∧ n.accepted = false
      ∧ (w'.db.requests (digit64 '6')).map (·.status) = some .inProgress := by simpa using hend
  refine ⟨_, w', n, hrun, hrefused, fun hnothing => ?_⟩
  obtain ⟨row, hrow, hstatus⟩ := Option.map_eq_some_iff.mp hleft
  cases hnothing _ row hrow hstatus

end Nexum.Signer
