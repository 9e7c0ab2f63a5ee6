import Nexum.Lib.Lease
import Nexum.Signer.History
import Nexum.Signer.Rehearsal

/-!
# At most one answer for a request, one use of a token

Signing, approving and submitting share one table of requests, and every one of the flows can be
interrupted between any two of its calls. The table is used as a lease: a flow that inserted the
row of a request holds it until it completes it, deletes it or is gone. Token ids are one-time
tickets. `leaseOf` reads a node at work in these terms — the row of a request, the token ids
consumed, what each flow has in hand, and how often the wallet was used — and `lease_did` shows
that **whatever call a flow makes, the lease takes a step of its own or none**. What the lease
guarantees is then true of the node.

The lease is read off the log and the tables and is not a part of the state: nothing in the code
knows which flow holds a row, and a flow that crashes leaves its row to nobody. What a flow has in
hand is its phase in the ghost record of `Lifecycle`, so the only calls to look at are the four that
change a phase (`Call.moves`) and the two of the wallet; the others come to `leaseOf_same`, whatever
they are. `wallet_exclusive` counts the uses of the wallet, and `authority_unique` turns that count
into an identity, which is what the evidence is matched by later on.
-/

namespace Nexum.Signer

open Nexum.Lib Nexum.Lib.Prog

/-! ## 1. Uses of the wallet in a history -/

/-- What a wallet call in a history says: for which request of the node it was made, for which
    operation, on whose behalf, and whether the wallet answered. -/
structure WalletUse where
  by_ : Request
  op : String
  on : Option Authority
  answered : Bool

def walletUse : Event → Option WalletUse
  | .did _ q (.signMultisig on _) r => some ⟨q, "sign_multisig", on, r.isOk⟩
  | .did _ q (.submitMultisig on _) r => some ⟨q, "submit_multisig", on, r.isOk⟩
  | _ => none

/-- The wallet answered on behalf of the request `reqId`. -/
def answersTo (reqId : String) (e : Event) : Bool :=
  match walletUse e with
  | some ⟨_, _, some a, true⟩ => a.reqId = reqId
  | _ => false

/-- The wallet was used, successfully or not, under the token id `jti`. -/
def usesToken (jti : String) (e : Event) : Bool :=
  match walletUse e with
  | some ⟨_, _, some a, _⟩ => a.jti = jti
  | _ => false

/-! ## 2. The lease of a node -/

/-- What a flow has in hand. -/
def Phase.hold : Phase → Hold String String
  | .idle | .completed _ _ _ | .over => .nothing
  | .started reqId => .has reqId
  | .armed reqId jti => .ready reqId jti
  | .spent reqId => .spent reqId
  | .signed a _ _ => .answered a.reqId
  | .submitted reqId => .answered reqId

def handOf : Option (Request × Ghost) → Hold String String
  | none => .nothing
  | some (_, g) => g.phase.hold

/-- Whether the request is completed, as long as there is a row for it. -/
def rowOf : Option SignRequestRow → Option Bool :=
  Option.map fun row => row.status = .completed

def leaseOf (w : World) (l : List Event) (G : Nat → Option (Request × Ghost)) :
    Lease String String where
  row := rowOf ∘ w.db.requests
  taken := { jti | w.db.consumed jti ≠ none }
  hold := handOf ∘ G
  answers reqId := l.countP (answersTo reqId)
  uses jti := l.countP (usesToken jti)

variable {w w' : World} {l : List Event} {G : Nat → Option (Request × Ghost)} {i : Nat}
  {q : Request} {g g' : Ghost} {e : Event}

theorem hold_of (hG : G i = some (q, g)) : (leaseOf w l G).hold i = g.phase.hold := by
  simp only [leaseOf, Function.comp, hG, handOf]

/-- A lease is known by its five parts; the calls that do change it are all shown by this. -/
theorem leaseOf_eq {row : String → Option Bool} {taken : Set String}
    {answers uses : String → Nat} (hr : rowOf ∘ w'.db.requests = row)
    (ht : { jti | w'.db.consumed jti ≠ none } = taken)
    (ha : ∀ reqId, (e :: l).countP (answersTo reqId) = answers reqId)
    (hu : ∀ jti, (e :: l).countP (usesToken jti) = uses jti) (x : Option (Request × Ghost)) :
    leaseOf w' (e :: l) (Function.update G i x)
      = ⟨row, taken, Function.update (leaseOf w l G).hold i (handOf x), answers, uses⟩ := by
  simp only [leaseOf, hr, ht, ha, hu, Function.comp_update]

theorem countP_other (he : walletUse e = none) (reqId jti : String) :
    (e :: l).countP (answersTo reqId) = l.countP (answersTo reqId)
      ∧ (e :: l).countP (usesToken jti) = l.countP (usesToken jti) := by
  simp [answersTo, usesToken, he]

/-- An event that is no use of the wallet and leaves the two tables alone changes one hand. -/
theorem leaseOf_hand (hr : w'.db.requests = w.db.requests) (hc : w'.db.consumed = w.db.consumed)
    (he : walletUse e = none) (x : Option (Request × Ghost)) :
    leaseOf w' (e :: l) (Function.update G i x)
      = { leaseOf w l G with hold := Function.update (leaseOf w l G).hold i (handOf x) } :=
  leaseOf_eq (hr ▸ rfl) (hc ▸ rfl) (fun reqId => (countP_other he reqId "").1)
    (fun jti => (countP_other he "" jti).2) x

theorem leaseOf_same (hr : w'.db.requests = w.db.requests) (hc : w'.db.consumed = w.db.consumed)
    (he : walletUse e = none) {x : Option (Request × Ghost)} (hx : handOf x = handOf (G i)) :
    leaseOf w' (e :: l) (Function.update G i x) = leaseOf w l G := by
  rw [leaseOf_hand hr hc he, hx]
  exact congrArg (fun hold => { leaseOf w l G with hold := hold })
    (Function.update_eq_self i (leaseOf w l G).hold)

/-- A flow that is gone has nothing in hand, and what it had stays in the table: how a crash and a
    return look to the lease. -/
theorem safe_drop (hs : (leaseOf w l G).Safe) (hr : w'.db.requests = w.db.requests)
    (hc : w'.db.consumed = w.db.consumed) (he : walletUse e = none)
    {x : Option (Request × Ghost)} (hx : handOf x = .nothing) :
    (leaseOf w' (e :: l) (Function.update G i x)).Safe := by
  rw [leaseOf_hand hr hc he, hx]
  exact Lease.Step.vanish.safe hs

/-! ## 3. Every call of a flow is a step of the lease -/

/-- The calls that change what a flow has in hand. -/
def Call.moves : Call → Bool
  | .startSignRequest _ _ _ _ _ | .consumeActionJti _ _ | .abortSignRequest _ => true
  | .completeSignRequestWithResult _ _ _ => true
  | .signMultisig _ _ | .submitMultisig _ _ => true
  | _ => false

theorem next_phase {c : Call} {r : Except String c.Out} (hc : c.moves = false) :
    (g.next c r).phase = g.phase := by
  cases c <;> simp only [Call.moves, Bool.true_eq_false] at hc <;>
    rcases r with _ | _ | _ <;> rfl

theorem exec_tables {c : Call} {r : Except String c.Out} (hexec : exec w c r w')
    (hc : c.moves = false) :
    w'.db.requests = w.db.requests ∧ w'.db.consumed = w.db.consumed := by
  cases exec_effect hexec with
  | frame _ h => exact ⟨h.requests, h.consumed⟩
  | nothing e => exact ⟨rfl, rfl⟩
  | recorded =>
    unfold SignerDb.recordSignEvent
    split <;> exact ⟨rfl, rfl⟩
  | stored hrow => exact ⟨rfl, rfl⟩
  | _ => cases hc

/-- The lease after a call of the flow `i`. -/
def leaseAfter (w' : World) (l : List Event) (G : Nat → Option (Request × Ghost)) (i : Nat)
    (q : Request) (g : Ghost) (c : Call) (r : Except String c.Out) : Lease String String :=
  leaseOf w' (.did i q c r :: l) (Function.update G i (some (q, g.next c r)))

theorem safe_start {reqId es op round h : String} {r : Except String Unit}
    (hs : (leaseOf w l G).Safe) (hG : G i = some (q, g)) (hidle : g.phase = .idle)
    (hexec : exec w (.startSignRequest reqId es op round h) r w') :
    (leaseAfter w' l G i q g (.startSignRequest reqId es op round h) r).Safe := by
  unfold leaseAfter
  cases exec_effect hexec with
  | frame hc _ => cases hc
  | nothing err =>
    rw [leaseOf_same rfl rfl rfl (by rw [hG]; rfl)]
    exact hs
  | started hnew =>
    have hhand : (leaseOf w l G).hold i = .nothing := by rw [hold_of hG, hidle]; rfl
    have hrow : (leaseOf w l G).row reqId = none := by simp [leaseOf, rowOf, hnew]
    rw [leaseOf_eq (Function.comp_update ..) rfl (fun k => (countP_other rfl k "").1)
      (fun j => (countP_other rfl "" j).2)]
    exact (Lease.Step.insert hhand hrow).safe hs

theorem safe_consume {jti : String} {row : ConsumedJti} {r : Except String Unit}
    (hs : (leaseOf w l G).Safe) (hG : G i = some (q, g))
    (hphase : g.phase = .idle ∨ ∃ reqId, g.phase = .started reqId)
    (hexec : exec w (.consumeActionJti jti row) r w') :
    (leaseAfter w' l G i q g (.consumeActionJti jti row) r).Safe := by
  unfold leaseAfter
  cases exec_effect hexec with
  | frame hc _ => cases hc
  | nothing err =>
    rw [leaseOf_same rfl rfl rfl (by rw [hG]; rfl)]
    exact hs
  | consumed hnew =>
    have hfree : jti ∉ (leaseOf w l G).taken := by simp [leaseOf, hnew]
    have htaken : { j | Function.update w.db.consumed jti (some row) j ≠ none }
        = insert jti { j | w.db.consumed j ≠ none } := by
      ext j
      by_cases hj : j = jti <;> simp [hj]
    rw [leaseOf_eq rfl htaken (fun k => (countP_other rfl k "").1)
      (fun j => (countP_other rfl "" j).2)]
    rcases hphase with hidle | ⟨reqId, hstarted⟩
    · have hsame : Function.update (leaseOf w l G).hold i
          (handOf (some (q, g.next (.consumeActionJti jti row) (.ok ()))))
          = (leaseOf w l G).hold := by
        rw [← Function.update_eq_self i (leaseOf w l G).hold, hold_of hG, Function.update_idem]
        simp only [handOf, Ghost.next, hidle, Phase.consume]
      rw [hsame]
      exact (Lease.Step.waste (i := i) hfree).safe hs
    · have hhand : (leaseOf w l G).hold i = .has reqId := by rw [hold_of hG, hstarted]; rfl
      have hnext : handOf (some (q, g.next (.consumeActionJti jti row) (.ok ())))
          = .ready reqId jti := by
        simp only [handOf, Ghost.next, hstarted, Phase.consume, Phase.hold]
      rw [hnext]
      exact (Lease.Step.take hhand hfree).safe hs

theorem safe_abort {reqId : String} {r : Except String Unit} (hs : (leaseOf w l G).Safe)
    (hG : G i = some (q, g)) (hpending : g.phase.hold.pending = some reqId)
    (hexec : exec w (.abortSignRequest reqId) r w') :
    (leaseAfter w' l G i q g (.abortSignRequest reqId) r).Safe := by
  unfold leaseAfter
  cases exec_effect hexec with
  | frame hc _ => cases hc
  | nothing err => exact safe_drop hs rfl rfl rfl rfl
  | aborted =>
    have hhand : ((leaseOf w l G).hold i).pending = some reqId := by rw [hold_of hG, hpending]
    -- the flow holds the request, so its row is there, and in progress: it is deleted
    have hrow : (leaseOf w l G).row reqId = some false := hs.owned (Hold.key_of_pending hhand)
    have hdb : w.db.abortSignRequest reqId
        = { w.db with requests := Function.update w.db.requests reqId none } := by
      simp only [leaseOf, Function.comp, rowOf, Option.map_eq_some_iff] at hrow
      obtain ⟨row, hrow, hstatus⟩ := hrow
      have hstatus : row.status = .inProgress := by
        cases hst : row.status with
        | inProgress => rfl
        | completed => simp [hst] at hstatus
      simp only [SignerDb.abortSignRequest, hrow, hstatus, if_true]
    rw [hdb, leaseOf_eq (Function.comp_update ..) rfl (fun k => (countP_other rfl k "").1)
      (fun j => (countP_other rfl "" j).2)]
    exact (Lease.Step.remove hhand).safe hs

theorem safe_complete {reqId op : String} {resp : SignRequestCachedResult}
    {r : Except String Unit} (hs : (leaseOf w l G).Safe) (hG : G i = some (q, g))
    (hphase : g.phase.hold = .answered reqId)
    (hexec : exec w (.completeSignRequestWithResult reqId op resp) r w') :
    (leaseAfter w' l G i q g (.completeSignRequestWithResult reqId op resp) r).Safe := by
  unfold leaseAfter
  cases exec_effect hexec with
  | frame hc _ => cases hc
  | nothing err => exact safe_drop hs rfl rfl rfl rfl
  | completed hrow hstatus hnew =>
    have hhand : (leaseOf w l G).hold i = .answered reqId := by rw [hold_of hG, hphase]
    have hnext : handOf (some (q, g.next (.completeSignRequestWithResult reqId op resp) (.ok ())))
        = .nothing := by
      simp only [handOf, Ghost.next, Phase.complete]
      split <;> rfl
    rw [leaseOf_eq (Function.comp_update ..) rfl (fun k => (countP_other rfl k "").1)
      (fun j => (countP_other rfl "" j).2), hnext]
    exact (Lease.Step.finish hhand).safe hs

/-- A wallet call, of either kind, made with both the request and the token id in hand. -/
theorem safe_wallet {a : Authority} {op : String} {ok : Bool} (hs : (leaseOf w l G).Safe)
    (hG : G i = some (q, g)) (hphase : g.phase = .armed a.reqId a.jti)
    (he : walletUse e = some ⟨q, op, some a, ok⟩)
    (hg' : g'.phase.hold = if ok = true then .answered a.reqId else .spent a.reqId) :
    (leaseOf w (e :: l) (Function.update G i (some (q, g')))).Safe := by
  have hhand : (leaseOf w l G).hold i = .ready a.reqId a.jti := by rw [hold_of hG, hphase]; rfl
  have hu : ∀ jti, (e :: l).countP (usesToken jti)
      = Function.update (leaseOf w l G).uses a.jti ((leaseOf w l G).uses a.jti + 1) jti := by
    intro jti
    by_cases hj : jti = a.jti
    · subst hj
      simp [usesToken, he, leaseOf]
    · simp [usesToken, he, leaseOf, hj, Ne.symm hj]
  cases ok with
  | false =>
    have hnext : handOf (some (q, g')) = .spent a.reqId := hg'
    have ha : ∀ k, (e :: l).countP (answersTo k) = (leaseOf w l G).answers k := by
      simp [answersTo, he, leaseOf]
    rw [leaseOf_eq rfl rfl ha hu, hnext]
    exact (Lease.Step.refusal hhand).safe hs
  | true =>
    have hnext : handOf (some (q, g')) = .answered a.reqId := hg'
    have ha : ∀ k, (e :: l).countP (answersTo k) = Function.update (leaseOf w l G).answers a.reqId
        ((leaseOf w l G).answers a.reqId + 1) k := by
      intro k
      by_cases hk : k = a.reqId
      · subst hk
        simp [answersTo, he, leaseOf]
      · simp [answersTo, he, leaseOf, hk, Ne.symm hk]
    rw [leaseOf_eq rfl rfl ha hu, hnext]
    exact (Lease.Step.answer hhand).safe hs

/-- **Whatever call a flow makes by the protocol, the lease stays safe.** -/
theorem lease_did {agent : SignerAgent} {c : Call} {r : Except String c.Out}
    (hs : (leaseOf w l G).Safe) (hG : G i = some (q, g)) (hmay : May agent g c)
    (hexec : exec w c r w') : (leaseAfter w' l G i q g c r).Safe := by
  cases hmoves : c.moves with
  | false =>
    obtain ⟨hr, hc⟩ := exec_tables hexec hmoves
    have hhand : handOf (some (q, g.next c r)) = handOf (G i) := by
      rw [hG]
      exact congrArg Phase.hold (next_phase hmoves)
    have huse : walletUse (.did i q c r) = none := by
      cases c <;> first | rfl | cases hmoves
    rw [leaseAfter, leaseOf_same hr hc huse hhand]
    exact hs
  | true =>
    cases c with
    | startSignRequest reqId e op round h => exact safe_start hs hG hmay hexec
    | consumeActionJti jti row => exact safe_consume hs hG hmay.2 hexec
    | abortSignRequest reqId =>
      refine safe_abort hs hG ?_ hexec
      rcases hmay with h | ⟨jti, h⟩ | h <;> rw [h] <;> rfl
    | completeSignRequestWithResult reqId op resp =>
      refine safe_complete hs hG ?_ hexec
      rcases hmay with ⟨a, tx, out, h, rfl, -, -⟩ | h <;> rw [h] <;> rfl
    | signMultisig on tx =>
      cases on with
      | none => exact hmay.elim
      | some a =>
        cases exec_elsewhere hexec rfl
        exact safe_wallet hs hG hmay.phase rfl (by cases r <;> rfl)
    | submitMultisig on tx =>
      cases on with
      | none => exact hmay.elim
      | some a =>
        cases exec_elsewhere hexec rfl
        exact safe_wallet hs hG hmay.1.phase rfl (by cases r <;> rfl)
    | _ => cases hmoves

/-! ## 4. Whole runs -/

theorem safe_init (w : World) : (leaseOf w [] fun _ => none).Safe := by
  constructor <;> simp [leaseOf, handOf, Hold.key, Hold.pending, Hold.ticket]

/-- The lease of a node is safe. -/
def LeaseSafe (w : World) (l : List Event) (G : Nat → Option (Request × Ghost)) : Prop :=
  (leaseOf w l G).Safe

theorem safe_kept (agent : SignerAgent) (ok : World → List Event → Event → Prop) :
    Kept agent ok noBase LeaseSafe where
  start {w l G i q} _ hs hG _ _ := by
    unfold LeaseSafe
    rw [leaseOf_same rfl rfl rfl (by rw [hG]; rfl)]
    exact hs
  did _ hs hG hmay hexec _ := lease_did hs hG hmay hexec
  done _ hs _ _ _ := safe_drop hs rfl rfl rfl rfl
  crash _ hs _ := safe_drop hs rfl rfl rfl rfl
  ext {w l G w'} _ hs hext := by
    have hsame : leaseOf w' l G = leaseOf w l G := by
      simp only [leaseOf, hext.requests, hext.consumed]
    unfold LeaseSafe
    rw [hsame]
    exact hs

/-- One token id, one authority: the use of a token is one event, and it names its authority. -/
theorem authority_unique {agent : SignerAgent} (hs : LeaseSafe w l G) {a a' : Authority}
    {tx tx' : String} {out out' : SignedMultisigTx} (h : SignedIn agent l a tx out)
    (h' : SignedIn agent l a' tx' out') (hj : a.jti = a'.jti) : a = a' := by
  obtain ⟨after, before, i, q, hl, -⟩ := h
  obtain ⟨after', before', i', q', hl', -⟩ := h'
  have heq := eq_of_countP_le_one (hs.usedOnce a.jti)
    (x := .did i q (.signMultisig (some a) tx) (.ok out))
    (y := .did i' q' (.signMultisig (some a') tx') (.ok out'))
    (by rw [hl]; simp) (by rw [hl']; simp) (by simp [usesToken, walletUse])
    (by simp [usesToken, walletUse, hj])
  injection heq with _ _ hcall
  injection hcall with hon
  exact Option.some.inj hon

/-- **Over every run of a node with a token verifier, whatever fails or crashes: the wallet answers
    at most once on behalf of a request, is used at most once under a token id, and is never used
    but on behalf of a request that the flow's own token grants.** -/
theorem wallet_exclusive {agent : SignerAgent} (hv : agent.verifier ≠ none) {w₀ : World}
    {p : Pool World Request Call Call.Out String Reply}
    (hrun : Pool.Run (node agent) Pool.anyStep w₀ p) :
    (∀ reqId, p.log.countP (answersTo reqId) ≤ 1)
      ∧ (∀ jti, p.log.countP (usesToken jti) ≤ 1)
      ∧ ∀ e ∈ p.log, ∀ u, walletUse e = some u →
        ∃ a, u.on = some a ∧ Granted agent u.by_.token u.op a := by
  obtain ⟨G, hs⟩ := (safe_kept agent Pool.anyStep).run hv (safe_init w₀) hrun
  obtain ⟨_, hacc⟩ := run_accounted hv hrun
  refine ⟨hs.once, hs.usedOnce, fun e he u hu => ?_⟩
  obtain ⟨after, before, hlog⟩ := List.append_of_mem he
  cases e with
  | did i q c r =>
    obtain ⟨g, hback, hmay⟩ := hacc.lawful after before i q c r hlog
    cases c <;> simp only [walletUse, Option.some.injEq, reduceCtorEq] at hu
    case signMultisig on tx =>
      subst hu
      cases on with
      | none => exact hmay.elim
      | some a => exact ⟨a, rfl, hback.token ▸ hmay.granted⟩
    case submitMultisig on tx =>
      subst hu
      cases on with
      | none => exact hmay.elim
      | some a => exact ⟨a, rfl, hback.token ▸ hmay.1.granted⟩
  | start i q => cases hu
  | done i q x => cases hu
  | crash i q => cases hu

/-- Two flows for one request, each with a token of its own. The first is refused by the wallet
    and deletes the request, upon which the second inserts it again and is answered. -/
def retriedActs : List (Act Request Mode) :=
  [.start 0 (signReq "aa" "sign-a-1"), .start 1 (signReq "aa" "sign-a-2"),
    .calls 0 (List.replicate 9 .works), .calls 1 (List.replicate 7 .works),
    .calls 0 [.fails "wallet busy", .works], .close 0,
    .calls 1 (List.replicate 8 .works), .close 1]

theorem wallet_exclusive_retried :
    ∃ p : Pool World Request Call Call.Out String Reply,
      (p.log.countP (usesToken "jti-1") = 1 ∧ p.log.countP (usesToken "jti-2") = 1
        ∧ p.log.countP (answersTo (digit64 '1')) = 1)
      ∧ (∀ reqId, p.log.countP (answersTo reqId) ≤ 1)
      ∧ (∀ jti, p.log.countP (usesToken jti) ≤ 1)
      ∧ ∀ e ∈ p.log, ∀ u, walletUse e = some u →
        ∃ a, u.on = some a ∧ Granted sampleAgent u.by_.token u.op a := by
  have hplay : (rehearse freely retriedActs).any (fun p =>
      decide (p.log.countP (usesToken "jti-1") = 1 ∧ p.log.countP (usesToken "jti-2") = 1
        ∧ p.log.countP (answersTo (digit64 '1')) = 1)) = true := by
    decide +kernel
  obtain ⟨p, hrun, hp⟩ := rehearse_anyStep hplay
  exact ⟨p, of_decide_eq_true hp, wallet_exclusive (Option.some_ne_none _) hrun⟩

end Nexum.Signer
