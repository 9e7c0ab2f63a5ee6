import Nexum.Signer.Pending

/-!
# Which calls the parts of a flow make

The footprint of each part, said once and as narrowly as is useful: what the checks on the way in
look at, and what a flow does once it is at work for a request. Sets of rules that care about
only some of the calls get what they need from here by weakening.
-/

namespace Nexum.Signer

open Nexum.Lib Nexum.Lib.Prog
open Nexum.Transport

variable {agent : SignerAgent}

/-! ## 1. On the way in -/

/-- The calls with which a token is looked at. -/
def Call.tells : Call → Bool
  | .unixNow | .rateLimitCheck _ _ => true
  | _ => false

theorem tells_verifyCommon (agent : SignerAgent) (v : ActionTokenVerifier) (token : String)
    (u : TokenUse) :
    Only (·.tells = true) (verifyCommon agent v token u) fun t =>
      agent.crypto.verifyJwt token = .ok t.claims
        ∧ ∃ now, checkClaims agent.crypto v now u t.claims = .ok t := by
  unfold verifyCommon
  refine .perform_bind rfl fun _ _ _ => .perform_bind rfl fun _ _ _ => ?_
  refine .ofExcept_bind fun claims hclaims => .perform_bind rfl fun _ _ _ => ?_
  refine .ofExcept_bind fun _ _ => .ofExcept_bind fun _ _ => .perform_bind rfl fun now _ _ => ?_
  refine .ofExcept fun t ht => ?_
  obtain ⟨rfl, -⟩ := checkClaims_ok ht
  exact ⟨Check.mapError_eq_ok.mp hclaims, now, ht⟩

/-- The call with which a transaction set is looked at. -/
def Call.describes (tx : String) : Call → Prop
  | .describeTransfer t => t = tx
  | _ => False

theorem only_describeTransfer (context tx : String) :
    Only (Call.describes tx) (describeTransfer context tx) fun _ => True := by
  unfold describeTransfer
  refine .performOr_bind rfl fun desc _ _ => .okOr_bind fun desc _ => ?_
  exact .ofExcept fun _ _ => trivial

/-- The call with which a row is set aside. -/
def Call.setsAside (id : Int) : Call → Prop
  | .setPendingStatus j status _ => j = id ∧ status = .failedDeadLetter
  | _ => False

theorem only_deadLetter {α : Type} (row : PendingTxSign) (detail : String) (R : α → Prop) :
    Only (Call.setsAside row.id) (deadLetter row detail : Flow α) R := by
  unfold deadLetter markPendingError
  refine Ensures.bind (R := fun _ _ => True) ?_ fun _ _ _ => .fail
  exact .attempt_bind ⟨rfl, rfl⟩ fun _ _ _ => .pure trivial

theorem only_deadLetterIf (c : Prop) [Decidable c] (row : PendingTxSign) (detail : String) :
    Only (Call.setsAside row.id) (deadLetterIf c row detail) fun _ => ¬ c := by
  unfold deadLetterIf
  split
  · exact only_deadLetter ..
  · rename_i hc
    exact .pure hc

/-! ## 2. At work for a request -/

/-- The calls of a flow that is at work for `a`: the wallet is used for it and for `tx` only. -/
def Working (a : Authority) (tx : String) : Call → Prop
  | .signMultisig on t | .submitMultisig on t => on = some a ∧ t = tx
  | .startSignRequest _ _ _ _ _ | .getSignRequest _ | .getSignRequestResult _ => True
  | .consumeActionJti _ _ | .abortSignRequest _ | .completeSignRequestWithResult _ _ _ => True
  | .recordSignEvent _ | .getSignEvent _ | .quorumProofSet _ _ _ _ _ _ => True
  | .submitBundle _ _ => True
  | _ => False

section
variable (a : Authority) (tx : String)

theorem working_abortAndFail {α : Type} (reqId e : String) (R : α → Prop) :
    Only (Working a tx) (abortAndFail reqId e : Flow α) R :=
  .attempt_bind trivial fun _ _ _ => .fail

theorem working_consumeOrAbort (op : String) (exp : Nat) :
    Only (Working a tx) (consumeOrAbort a op exp) fun _ => True := by
  unfold consumeOrAbort
  refine .attempt_bind trivial fun r _ _ => ?_
  cases r with
  | ok u => exact .pure trivial
  | error e => exact working_abortAndFail ..

theorem working_walletSign : Only (Working a tx) (walletSign a tx) fun _ => True := by
  unfold walletSign
  refine .attempt_bind ⟨rfl, rfl⟩ fun r _ _ => ?_
  cases r with
  | ok signed => exact .perform_bind trivial fun _ _ _ => .pure trivial
  | error e => exact working_abortAndFail ..

theorem working_walletSubmit : Only (Working a tx) (walletSubmit a tx) fun _ => True := by
  unfold walletSubmit
  refine .attempt_bind ⟨rfl, rfl⟩ fun r _ _ => ?_
  cases r with
  | ok hashes => exact .perform_bind trivial fun _ _ _ => .pure trivial
  | error e => exact working_abortAndFail ..

theorem working_recordEvidence {store : SignEvent → Flow Unit}
    (hstore : ∀ ev, Only (Working a tx) (store ev) fun _ => True) (out : SignedMultisigTx) :
    Only (Working a tx) (recordEvidence agent store a out) fun _ => True := by
  unfold recordEvidence
  refine .perform_bind trivial fun _ _ _ => Ensures.bind (hstore _) fun _ _ _ => ?_
  refine .ofExcept_bind fun hash _ => .perform_bind trivial fun _ _ _ => hstore _

theorem working_maybeStore (ev : SignEvent) :
    Only (Working a tx) (maybeStoreQuorumSignProof agent ev) fun _ => True := by
  unfold maybeStoreQuorumSignProof
  split
  · exact .pure trivial
  · have hstore : wp (only (Working a tx)) (storeQuorumSignProof ev) (fun _ _ => True) () := by
      unfold storeQuorumSignProof
      rw [wp_bind, wp_ofExcept]
      cases normalizeForStore ev with
      | error e => trivial
      | ok row => exact wp_perform.mpr ⟨trivial, fun _ _ _ => trivial⟩
    refine .reify_bind hstore fun r _ _ => ?_
    cases r with
    | ok u => exact .pure trivial
    | error e => exact .failIf fun _ => trivial

theorem working_replay {α : Type} (op : String) (exp : Nat)
    (parse : Json SignRequestCachedResult → Except String α) :
    Only (Working a tx) (replay a op exp parse) fun _ => True := by
  unfold replay
  refine .perform_bind trivial fun row _ _ => .okOr_bind fun row _ => ?_
  refine .failIf_bind fun _ => .failIf_bind fun _ => .perform_bind trivial fun _ _ _ => ?_
  refine .perform_bind trivial fun json _ _ => .okOr_bind fun json _ => ?_
  exact .ofExcept fun _ _ => trivial

theorem working_startOrReplay {α : Type} {op : String} {exp : Nat}
    {parse : Json SignRequestCachedResult → Except String α} {fresh : Flow α}
    (hfresh : Only (Working a tx) fresh fun _ => True) :
    Only (Working a tx) (startOrReplay a op exp parse fresh) fun _ => True := by
  unfold startOrReplay
  refine .attempt_bind trivial fun r _ _ => ?_
  cases r with
  | ok u => exact hfresh
  | error e =>
    show Only _ (if _ then _ else _) _
    split
    · exact working_replay a tx op exp parse
    · exact .fail

theorem working_signFresh (exp : Nat) :
    Only (Working a tx) (signFresh agent a exp tx) fun _ => True := by
  unfold signFresh
  refine Ensures.bind (working_consumeOrAbort a tx _ _) fun _ _ _ => ?_
  refine Ensures.bind (working_walletSign a tx) fun out _ _ => ?_
  refine Ensures.bind (working_recordEvidence a tx (working_maybeStore a tx) out) fun _ _ _ => ?_
  exact .pure trivial

theorem working_approveFresh (exp : Nat) :
    Only (Working a tx) (approveFresh agent a exp tx) fun _ => True := by
  unfold approveFresh
  refine Ensures.bind (working_consumeOrAbort a tx _ _) fun _ _ _ => ?_
  refine Ensures.bind (working_walletSign a tx) fun out _ _ => ?_
  refine Ensures.bind (working_recordEvidence a tx (fun _ => .pure trivial) out) fun _ _ _ => ?_
  exact .pure trivial

theorem working_checkLocalProof (claims : ActionClaims) :
    Only (Working a tx) (checkLocalProof a claims) fun _ => True := by
  unfold checkLocalProof
  refine .perform_bind trivial fun proof _ _ => ?_
  cases proof with
  | none => exact working_abortAndFail ..
  | some proof =>
    refine .okOr_bind fun jti _ => .okOr_bind fun reqId _ => ?_
    split
    · exact working_abortAndFail ..
    · exact .pure trivial

/-- All that is done for the seller's proof is to ask the orchestrator for it. -/
theorem only_verifySubmitSeller {A : Call → Prop} (hA : ∀ e h, A (.submitBundle e h))
    (e h jti reqId : String) :
    Only A (verifySubmitSellerQuorumProof agent e h jti reqId) fun _ => True := by
  unfold verifySubmitSellerQuorumProof
  refine .ofExcept_bind fun enabled _ => ?_
  split
  · exact .pure trivial
  · refine Ensures.bind (R := fun _ _ => True) ?_ fun _ _ _ => .failIf fun _ => trivial
    unfold fetchSubmitMultisigProofBundle
    refine .ofExcept_bind fun _ _ => .ofExcept_bind fun _ _ => ?_
    exact .perform_bind (hA _ _) fun _ _ _ => .failIf_bind fun _ => .pure trivial

theorem working_checkSellerProof (claims : ActionClaims) :
    Only (Working a tx) (checkSellerProof agent a claims) fun _ => True := by
  unfold checkSellerProof
  split
  · exact working_abortAndFail ..
  · exact working_abortAndFail ..
  · have hign : (only (Working a tx) : Rules Call Call.Out String Unit).Ignores (Working a tx) :=
      fun _ c hc => ⟨hc, fun _ _ _ => rfl⟩
    refine .reify_bind ((only_verifySubmitSeller (fun _ _ => trivial) ..).wp hign ())
      fun r _ _ => ?_
    cases r with
    | ok u => exact .pure trivial
    | error e => exact working_abortAndFail ..

theorem working_submitFresh (claims : ActionClaims) :
    Only (Working a tx) (submitFresh agent a claims tx) fun _ => True := by
  unfold submitFresh
  refine Ensures.bind (working_consumeOrAbort a tx _ _) fun _ _ _ => ?_
  refine Ensures.bind (working_checkLocalProof a tx claims) fun _ _ _ => ?_
  exact Ensures.bind (working_checkSellerProof a tx claims) fun _ _ _ => working_walletSubmit a tx

end

end Nexum.Signer
