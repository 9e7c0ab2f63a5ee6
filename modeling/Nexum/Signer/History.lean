import Nexum.Signer.Naming
import Nexum.Signer.Node

/-!
# What a history backs

The protocol's bookkeeping is not part of the program. What gives it meaning is the history of
the node: **everything a flow's bookkeeping says it was given, has read or has had signed stands
in the log**, and so does everything the rows of evidence in the database say. `Backed` and
`Evidence` are these two statements; they only ever gain from a longer history.

The result is one fact about every call in the history of a node (`Lawful`): when it was made, the
protocol allowed it, with bookkeeping backed by the history before it.
-/

namespace Nexum.Signer

open Nexum.Lib
open Nexum.Transport

/-! ## 1. Facts about a history -/

/-- The action asked of the flow `i` serving `q`: the request's own, or the one in the queued row
    it read. -/
def ActionOf (l : List Event) (i : Nat) (q : Request) (action : Json EscrowAction) : Prop :=
  q.action = some action ∨ ∃ id row, q.queueId = some id
    ∧ .did i q (.getPending id) (.ok (some row)) ∈ l ∧ row.action = action

/-- The flow `i` has read the active snapshot of the escrow and the wallet's description of the
    transaction set, and the latter passes the policy of the former. -/
def PolicyChecked (l : List Event) (i : Nat) (q : Request) (escrowIdHex txDataHex : String) :
    Prop :=
  ∃ row snapshot action desc check,
    .did i q (.activeSnapshotForEscrow escrowIdHex) (.ok (some row)) ∈ l
    ∧ row.snapshotJson = .encoded snapshot ∧ ActionOf l i q (.encoded action)
    ∧ .did i q (.describeTransfer txDataHex) (.ok (some desc)) ∈ l
    ∧ transferCheckFromDesc desc = .ok check
    ∧ validateTransferAgainstSnapshot snapshot action check = .ok ()

/-- Under the authority `a` the wallet signed `txDataHex` and returned `out`: with a token that
    grants `a`, and after the policy check. Only a request from the queue can be about an escrow id
    that is not normalised. -/
def SignedIn (agent : SignerAgent) (l : List Event) (a : Authority) (txDataHex : String)
    (out : SignedMultisigTx) : Prop :=
  ∃ after before i q, l = after ++ .did i q (.signMultisig (some a) txDataHex) (.ok out) :: before
    ∧ Granted agent q.token "sign_multisig" a
    ∧ txsetSha256Hex agent.crypto txDataHex = .ok a.txsetHashHex
    ∧ (q.queueId = none → NormalEscrow a.escrowIdHex)
    ∧ PolicyChecked before i q a.escrowIdHex txDataHex

/-- A row of evidence is one of the `old` ones, or was left by a signature in the history. -/
def Evidence (agent : SignerAgent) (old : List SignEvent) (l : List Event) (ev : SignEvent) :
    Prop :=
  ev ∈ old ∨ ∃ a tx out, SignedIn agent l a tx out ∧ EvidenceOf agent a out ev

variable {agent : SignerAgent} {old : List SignEvent} {l : List Event} {i : Nat} {q : Request}
  {g : Ghost}

theorem ActionOf.cons {action : Json EscrowAction} (h : ActionOf l i q action) (e : Event) :
    ActionOf (e :: l) i q action := by
  rcases h with h | ⟨id, row, hid, hmem, hrow⟩
  · exact .inl h
  · exact .inr ⟨id, row, hid, List.mem_cons_of_mem e hmem, hrow⟩

theorem SignedIn.cons {a : Authority} {tx : String} {out : SignedMultisigTx}
    (h : SignedIn agent l a tx out) (e : Event) : SignedIn agent (e :: l) a tx out := by
  obtain ⟨after, before, i, q, rfl, h⟩ := h
  exact ⟨e :: after, before, i, q, rfl, h⟩

theorem Evidence.cons {ev : SignEvent} (h : Evidence agent old l ev) (e : Event) :
    Evidence agent old (e :: l) ev := by
  rcases h with h | ⟨a, tx, out, hs, hev⟩
  · exact .inl h
  · exact .inr ⟨a, tx, out, hs.cons e, hev⟩

/-! ## 2. Bookkeeping backed by a history -/

structure Backed (agent : SignerAgent) (old : List SignEvent) (l : List Event) (i : Nat)
    (q : Request) (g : Ghost) : Prop where
  token : g.token = q.token
  queueId : g.queueId = q.queueId
  action : ∀ action, g.action = some action → ActionOf l i q action
  snapshot : ∀ e row, g.snapshot = some (e, row) →
    .did i q (.activeSnapshotForEscrow e) (.ok (some row)) ∈ l
  described : ∀ tx desc, g.described = some (tx, desc) →
    .did i q (.describeTransfer tx) (.ok (some desc)) ∈ l
  proof : ∀ ev, g.proof = some ev → Evidence agent old l ev
  signed : ∀ a tx out, g.phase = .signed a tx out ∨ g.phase = .completed a tx out →
    SignedIn agent l a tx out

theorem Backed.start (agent : SignerAgent) (old : List SignEvent) (l : List Event) (i : Nat)
    (q : Request) : Backed agent old l i q q.ghost where
  token := rfl
  queueId := rfl
  action action h := .inl h
  snapshot _ _ h := by cases h
  described _ _ h := by cases h
  proof _ h := by cases h
  signed _ _ _ h := by rcases h with h | h <;> cases h

theorem Backed.cons (h : Backed agent old l i q g) (e : Event) :
    Backed agent old (e :: l) i q g where
  token := h.token
  queueId := h.queueId
  action action ha := (h.action action ha).cons e
  snapshot es row hs := List.mem_cons_of_mem e (h.snapshot es row hs)
  described tx desc hd := List.mem_cons_of_mem e (h.described tx desc hd)
  proof ev hp := (h.proof ev hp).cons e
  signed a tx out hp := (h.signed a tx out hp).cons e

theorem Backed.policyChecked (h : Backed agent old l i q g) {es tx : String}
    (hv : g.Vetted es tx) : PolicyChecked l i q es tx := by
  obtain ⟨row, snapshot, action, desc, check, hs, hj, ha, hd, hcheck, hpolicy⟩ := hv
  exact ⟨row, snapshot, action, desc, check, h.snapshot es row hs, hj, h.action _ ha,
    h.described tx desc hd, hcheck, hpolicy⟩

theorem Backed.signedIn (h : Backed agent old l i q g) {a : Authority} {tx : String}
    {out : SignedMultisigTx} (hc : Cleared agent g "sign_multisig" a tx) :
    SignedIn agent (.did i q (.signMultisig (some a) tx) (.ok out) :: l) a tx out :=
  ⟨[], l, i, q, rfl, h.token ▸ hc.granted, hc.hash, fun hq => hc.escrow (h.queueId.trans hq),
    h.policyChecked hc.vetted⟩

theorem Backed.moved (h : Backed agent old l i q g) {g' : Ghost}
    (hsame : g' = { g with phase := g'.phase, request := g'.request, consumed := g'.consumed })
    (hphase : ∀ a tx out, g'.phase = .signed a tx out ∨ g'.phase = .completed a tx out →
      SignedIn agent l a tx out) : Backed agent old l i q g' := by
  rw [hsame]
  exact { h with signed := hphase }

/-- **Bookkeeping stays backed, whatever call is made next.** -/
theorem Backed.next (h : Backed agent old l i q g) {w w' : World} {c : Call}
    {r : Except String c.Out} (hdb : ∀ ev ∈ w.db.signEvents, Evidence agent old l ev)
    (hmay : May agent g c) (hexec : exec w c r w') :
    Backed agent old (.did i q c r :: l) i q (g.next c r) := by
  have hcons := h.cons (.did i q c r)
  cases c with
  | getPending id =>
    rcases r with e | _ | row
    · exact hcons
    · exact hcons
    · refine { hcons with action := ?_ }
      rintro _ ⟨⟩
      exact .inr ⟨id, row, h.queueId ▸ hmay, List.mem_cons_self, rfl⟩
  | activeSnapshotForEscrow es =>
    rcases r with e | _ | row
    · exact hcons
    · exact hcons
    · refine { hcons with snapshot := ?_ }
      rintro _ _ ⟨⟩
      exact List.mem_cons_self
  | describeTransfer tx =>
    rcases r with e | _ | desc
    · exact hcons
    · exact hcons
    · refine { hcons with described := ?_ }
      rintro _ _ ⟨⟩
      exact List.mem_cons_self
  | getSignEvent key =>
    rcases r with e | _ | ev
    · exact hcons
    · exact hcons
    · refine { hcons with proof := ?_ }
      rintro _ ⟨⟩
      have hs := exec_ok hexec (by simp [World.serve, World.read])
      simp only [World.serve, World.read, Option.some.injEq, Prod.mk.injEq, Except.ok.injEq] at hs
      exact (hdb ev (List.mem_of_find?_eq_some hs.1)).cons _
  | getSignRequest reqId =>
    rcases r with e | _ | row
    · exact hcons
    · exact hcons
    · exact { hcons with }
  | getSignRequestResult reqId =>
    rcases r with e | _ | json
    · exact hcons
    · exact hcons
    · exact { hcons with }
  | startSignRequest reqId es op round hash =>
    cases r with
    | error e => exact hcons
    | ok u => exact hcons.moved rfl (by rintro a tx out (h | h) <;> cases h)
  | consumeActionJti jti row =>
    cases r with
    | error e => exact hcons
    | ok u =>
      refine hcons.moved rfl fun a tx out hp => hcons.signed a tx out ?_
      cases hphase : g.phase <;>
        simp only [Ghost.next, hphase, Phase.consume, reduceCtorEq, or_self] at hp ⊢ <;> exact hp
  | abortSignRequest reqId => exact hcons.moved rfl (by rintro a tx out (h | h) <;> cases h)
  | signMultisig on tx =>
    cases on with
    | none => exact hmay.elim
    | some a =>
      cases r with
      | error e => exact hcons.moved rfl (by rintro a tx out (h | h) <;> cases h)
      | ok out =>
        refine hcons.moved rfl ?_
        rintro _ _ _ (⟨⟨⟩⟩ | hp)
        · exact h.signedIn hmay
        · cases hp
  | submitMultisig on tx =>
    cases on with
    | none => exact hmay.elim
    | some a =>
      cases r with
      | error e => exact hcons.moved rfl (by rintro a tx out (h | h) <;> cases h)
      | ok out => exact hcons.moved rfl (by rintro a tx out (h | h) <;> cases h)
  | completeSignRequestWithResult reqId op resp =>
    cases r with
    | error e => exact hcons.moved rfl (by rintro a tx out (h | h) <;> cases h)
    | ok u =>
      refine hcons.moved rfl fun a tx out hp => hcons.signed a tx out ?_
      cases hphase : g.phase <;>
        simp only [Ghost.next, hphase, Phase.complete, reduceCtorEq, or_self, false_or] at hp ⊢
      simpa using hp
  | recordSignEvent ev =>
    cases r with
    | error e => exact hcons
    | ok u => exact { hcons with }
  | quorumProofSet e role round hash jti reqId => exact { hcons with }
  | _ => exact hcons

/-! ## 3. Every call in a history was allowed -/

def Lawful (agent : SignerAgent) (old : List SignEvent) (l : List Event) : Prop :=
  ∀ after before i q c r, l = after ++ .did i q c r :: before →
    ∃ g, Backed agent old before i q g ∧ May agent g c

theorem Lawful.cons (h : Lawful agent old l) {e : Event}
    (he : ∀ i q c r, e = .did i q c r → ∃ g, Backed agent old l i q g ∧ May agent g c) :
    Lawful agent old (e :: l) := by
  intro after before i q c r hl
  cases after with
  | nil =>
    injection hl with hhead htail
    exact htail ▸ he i q c r hhead
  | cons e' after =>
    injection hl with _ htail
    exact h after before i q c r htail

/-- What is true of a node at any time. -/
structure Accounted (agent : SignerAgent) (old : List SignEvent) (w : World) (l : List Event)
    (G : Nat → Option (Request × Ghost)) : Prop where
  rows : ∀ ev ∈ w.db.signEvents, Evidence agent old l ev
  flows : ∀ i q g, G i = some (q, g) → Backed agent old l i q g
  lawful : Lawful agent old l

theorem Accounted.log {w : World} {G : Nat → Option (Request × Ghost)}
    (h : Accounted agent old w l G) {e : Event} (he : ∀ i q c r, e ≠ .did i q c r)
    {x : Option (Request × Ghost)}
    (hx : ∀ q g, x = some (q, g) → Backed agent old (e :: l) i q g) :
    Accounted agent old w (e :: l) (Function.update G i x) where
  rows ev hev := (h.rows ev hev).cons e
  lawful := h.lawful.cons fun i q c r heq => absurd heq (he i q c r)
  flows j q g hj := by
    by_cases hji : j = i
    · subst hji
      rw [Function.update_self] at hj
      exact hx q g hj
    · rw [Function.update_of_ne hji] at hj
      exact (h.flows j q g hj).cons e

theorem Accounted.did {w w' : World} {G : Nat → Option (Request × Ghost)} {c : Call}
    {r : Except String c.Out} (h : Accounted agent old w l G) (hG : G i = some (q, g))
    (hmay : May agent g c) (hexec : exec w c r w') :
    Accounted agent old w' (.did i q c r :: l) (Function.update G i (some (q, g.next c r))) where
  rows ev hev := by
    rcases (exec_effect hexec).signEvents with hsame | ⟨ev', rfl, hadded⟩
    · exact (h.rows ev (hsame ▸ hev)).cons _
    · rw [hadded] at hev
      rcases List.mem_append.mp hev with hev | hev
      · exact (h.rows ev hev).cons _
      · cases List.mem_singleton.mp hev
        obtain ⟨a, tx, out, hphase, hof⟩ := hmay
        exact .inr ⟨a, tx, out, ((h.flows i q g hG).signed a tx out (.inr hphase)).cons _, hof⟩
  lawful := by
    refine h.lawful.cons ?_
    rintro _ _ _ _ ⟨⟩
    exact ⟨g, h.flows i q g hG, hmay⟩
  flows j q' g' hj := by
    by_cases hji : j = i
    · subst hji
      rw [Function.update_self] at hj
      cases hj
      exact (h.flows j q g hG).next h.rows hmay hexec
    · rw [Function.update_of_ne hji] at hj
      exact (h.flows j q' g' hj).cons _

theorem accounted_kept (agent : SignerAgent) (ok : World → List Event → Event → Prop)
    (old : List SignEvent) : Kept agent ok noBase (Accounted agent old) where
  start {w l G i q} _ h _ _ _ := by
    refine h.log (by rintro _ _ _ _ ⟨⟩) ?_
    rintro _ _ ⟨⟩
    exact Backed.start agent _ _ i q
  did _ h hG hmay hexec _ := h.did hG hmay hexec
  done _ h _ _ _ := h.log (by rintro _ _ _ _ ⟨⟩) (by rintro _ _ ⟨⟩)
  crash _ h _ := h.log (by rintro _ _ _ _ ⟨⟩) (by rintro _ _ ⟨⟩)
  ext _ h hext := ⟨fun ev hev => h.rows ev (hext.signEvents ▸ hev), h.flows, h.lawful⟩

theorem accounted_init (w : World) : Accounted agent w.db.signEvents w [] fun _ => none where
  rows ev hev := .inl hev
  flows _ _ _ h := by cases h
  lawful after _ _ _ _ _ h := by cases after <;> cases h

/-- **Every call in the history of a node was allowed when it was made.** -/
theorem run_accounted (hv : agent.verifier ≠ none)
    {ok : World → List Event → Event → Prop} {w₀ : World}
    {p : Pool World Request Call Call.Out String Reply}
    (hrun : Pool.Run (node agent) ok w₀ p) :
    ∃ G, Accounted agent w₀.db.signEvents p.state p.log G :=
  (accounted_kept agent ok _).run hv (accounted_init w₀) hrun

end Nexum.Signer
