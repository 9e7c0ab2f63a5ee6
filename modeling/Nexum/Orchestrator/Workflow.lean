import Nexum.Lib.Digest
import Nexum.Orchestrator.Flow

/-!
# The life of a workflow

An escrow is led along one frozen path, from `New` to `Confirmed`, and can fail for good on the
way. On every state of the path messages come in; a message is accepted once and known again
when it is repeated.

Two things are followed along a history: the states an escrow has been in, one after the other,
and the steps that were accepted. The table of steps is, row by row, the list of the accepted ones;
**so a repeated step meets its own row and no other**, whatever the digest of its key is.

What a repetition is answered depends on where the workflow is. The check of the current state
comes before the comparison with the row, so a step that is repeated with another payload leaves a
dead letter while the workflow still takes steps of that state, and is turned away without a trace
afterwards.
-/

namespace Nexum.Orchestrator

open Nexum.Lib Nexum.Lib.Check

variable {sha3 : List UInt8 → List UInt8} {db db' : FlowDb} {call : Call} {reply : Reply}

/-! ## 1. The frozen path -/

def frozenPath : List WorkflowState :=
  [.new, .prepareCollected, .makeCollected, .exchangeR1Collected, .exchangeR2Collected,
    .finalizedReady, .funded, .txSignPending, .txSignedQuorum, .submitted, .confirmed]

/-- A first part of the frozen path, possibly followed by one failure. The failure is the last
    state, and it is not taken from the end of the path. -/
def OnFrozenPath (states : List WorkflowState) : Prop :=
  ∃ n ≤ frozenPath.length, states = frozenPath.take n
    ∨ 0 < n ∧ n < frozenPath.length ∧ states = frozenPath.take n ++ [.failedDeadLetter]

theorem canTransitionTo_irrefl (s : WorkflowState) : s.canTransitionTo s = false := by
  cases s <;> rfl

theorem canTransitionTo_of_failed (t : WorkflowState) :
    WorkflowState.canTransitionTo .failedDeadLetter t = false := by
  cases t <;> rfl

theorem mem_states (t : WorkflowState) : t ∈ .failedDeadLetter :: frozenPath := by
  cases t <;> decide

/-- From the `n`-th state of the path one can only go to the next one or fail. -/
theorem canTransitionTo_on_path {n : Nat} (hn : n ≤ frozenPath.length) {s t : WorkflowState}
    (hs : (frozenPath.take n).getLast? = some s) (hst : s.canTransitionTo t = true) :
    0 < n ∧ n < frozenPath.length
      ∧ (t = .failedDeadLetter ∨ frozenPath.take n ++ [t] = frozenPath.take (n + 1)) := by
  have hall : ∀ n < frozenPath.length + 1, ∀ s ∈ (frozenPath.take n).getLast?,
      ∀ t ∈ .failedDeadLetter :: frozenPath, s.canTransitionTo t = true →
      0 < n ∧ n < frozenPath.length
        ∧ (t = .failedDeadLetter ∨ frozenPath.take n ++ [t] = frozenPath.take (n + 1)) := by
    decide +kernel
  exact hall n (by omega) s hs t (mem_states t) hst

/-- **A transition leads on along the path.** -/
theorem OnFrozenPath.snoc {states : List WorkflowState} {s t : WorkflowState}
    (h : OnFrozenPath states) (hs : states.getLast? = some s) (hst : s.canTransitionTo t = true) :
    OnFrozenPath (states ++ [t]) := by
  obtain ⟨n, hn, hpath | ⟨-, -, hfailed⟩⟩ := h
  · rw [hpath] at hs ⊢
    obtain ⟨hpos, hlt, hfail | hnext⟩ := canTransitionTo_on_path hn hs hst
    · exact ⟨n, hn, .inr ⟨hpos, hlt, by rw [hfail]⟩⟩
    · exact ⟨n + 1, hlt, .inl hnext⟩
  · -- the last state is the failure, which nothing follows
    rw [hfailed, List.getLast?_concat, Option.some.injEq] at hs
    rw [← hs, canTransitionTo_of_failed] at hst
    cases hst

/-! ## 2. The states of an escrow -/

theorem workflow_append_new {wf : WorkflowInstance} (hnone : db.workflow wf.escrowIdHex = none)
    (e : String) :
    FlowDb.workflow { db with workflows := db.workflows ++ [wf] } e
      = if e = wf.escrowIdHex then some wf else db.workflow e := by
  unfold FlowDb.workflow at hnone ⊢
  rw [List.find?_append]
  by_cases he : e = wf.escrowIdHex
  · rw [if_pos he, he, hnone]
    simp
  · have hne : ¬ wf.escrowIdHex = e := fun h => he h.symm
    simp [he, hne]

theorem workflow_setState (e e' : String) (t : WorkflowState) :
    (db.setState e t).workflow e'
      = if e' = e then (db.workflow e').map ({ · with state := t }) else db.workflow e' := by
  unfold FlowDb.workflow FlowDb.setState
  simp only [List.find?_map]
  by_cases he : e' = e
  · rw [if_pos he, he]
    have hcomp : ((fun wf : WorkflowInstance => decide (wf.escrowIdHex = e)) ∘ fun wf =>
        if wf.escrowIdHex = e then { wf with state := t } else wf)
        = fun wf => decide (wf.escrowIdHex = e) := by
      funext wf
      by_cases hwf : wf.escrowIdHex = e <;> simp [hwf]
    rw [hcomp]
    cases hfind : db.workflows.find? fun wf => decide (wf.escrowIdHex = e) with
    | none => rfl
    | some wf =>
      have hwf : wf.escrowIdHex = e := by simpa using List.find?_some hfind
      simp [hwf]
  · rw [if_neg he]
    have hcomp : ((fun wf : WorkflowInstance => decide (wf.escrowIdHex = e')) ∘ fun wf =>
        if wf.escrowIdHex = e then { wf with state := t } else wf)
        = fun wf => decide (wf.escrowIdHex = e') := by
      funext wf
      by_cases hwf : wf.escrowIdHex = e <;> simp [hwf]
    rw [hcomp]
    cases hfind : db.workflows.find? fun wf => decide (wf.escrowIdHex = e') with
    | none => rfl
    | some wf =>
      have hwf : wf.escrowIdHex = e' := by simpa using List.find?_some hfind
      have hne : ¬ wf.escrowIdHex = e := by rw [hwf]; exact he
      simp [hne]

/-- **What a call does to a workflow**: nothing, or it opens it, or it moves it on. -/
theorem workflow_effect (h : Effect sha3 db call reply db') (e : String) :
    db'.workflow e = db.workflow e
    ∨ db.workflow e = none ∧ (∃ wf, db'.workflow e = some wf ∧ wf.state = .new)
    ∨ ∃ wf t, db.workflow e = some wf ∧ wf.state.canTransitionTo t = true
        ∧ db'.workflow e = some { wf with state := t } := by
  cases h with
  | created hcheck =>
    obtain ⟨hnone, hnew⟩ := checkCreate_ok hcheck
    rw [workflow_append_new hnone]
    split
    · rename_i he
      rw [he]
      exact .inr (.inl ⟨hnone, _, rfl, hnew⟩)
    · exact .inl rfl
  | moved hcheck =>
    obtain ⟨wf, hwf, hcan⟩ := checkTransition_ok hcheck
    rw [workflow_setState]
    split
    · rename_i he
      rw [he, hwf]
      exact .inr (.inr ⟨wf, _, rfl, hcan, rfl⟩)
    · exact .inl rfl
  | _ => exact .inl rfl

theorem participants_effect (h : Effect sha3 db call reply db') {e : String}
    {wf : WorkflowInstance} (hwf : db.workflow e = some wf) :
    ∃ wf', db'.workflow e = some wf' ∧ wf'.participants = wf.participants := by
  rcases workflow_effect h e with hsame | ⟨hnone, -⟩ | ⟨wf₀, t, hwf₀, -, hmoved⟩
  · exact ⟨wf, hsame.trans hwf, rfl⟩
  · rw [hwf] at hnone
    cases hnone
  · rw [hwf, Option.some.injEq] at hwf₀
    exact ⟨_, hmoved, by rw [hwf₀]⟩

/-- The state a call gives the escrow, when that is another one. -/
def newState (before after : Option WorkflowState) : List WorkflowState :=
  if after = before then [] else after.toList

/-- The successive states of an escrow. -/
def trail (sha3 : List UInt8 → List UInt8) (e : String) (calls : List Call) :
    List WorkflowState :=
  (orchestrator sha3).collect
    (fun db call => newState (db.state e) (((orchestrator sha3).serve db call).2.state e))
    .empty calls

/-- **The states of an escrow follow the frozen path**, and the last of them is the current one. -/
theorem trail_on_path (sha3 : List UInt8 → List UInt8) (e : String) (calls : List Call) :
    OnFrozenPath (trail sha3 e calls)
      ∧ (reached sha3 calls).state e = (trail sha3 e calls).getLast? := by
  induction calls using reached_induction sha3 with
  | hempty => exact ⟨⟨0, by decide, .inl rfl⟩, rfl⟩
  | hstep calls call reply db' hserve heffect ih =>
    obtain ⟨hpath, hlast⟩ := ih
    have htrail : trail sha3 e (calls ++ [call])
        = trail sha3 e calls ++ newState ((reached sha3 calls).state e) (db'.state e) := by
      rw [trail, Server.collect_snoc]
      show _ ++ newState ((reached sha3 calls).state e)
        (((orchestrator sha3).serve (reached sha3 calls) call).2.state e) = _
      rw [hserve]
      rfl
    rw [htrail, reached_snoc hserve]
    rcases workflow_effect heffect e with hsame | ⟨hnone, wf, hwf, hnew⟩ | ⟨wf, t, hwf, hcan, hwf'⟩
    · have hstate : db'.state e = (reached sha3 calls).state e := congrArg (Option.map _) hsame
      rw [hstate]
      simpa [newState] using ⟨hpath, hlast⟩
    · have hbefore : (reached sha3 calls).state e = none := congrArg (Option.map _) hnone
      have hafter : db'.state e = some .new := by rw [FlowDb.state, hwf, Option.map_some, hnew]
      have hempty : trail sha3 e calls = [] := by
        rw [hbefore] at hlast
        exact List.getLast?_eq_none_iff.mp hlast.symm
      rw [hbefore, hafter, hempty]
      exact ⟨⟨1, by decide, .inl rfl⟩, rfl⟩
    · have hbefore : (reached sha3 calls).state e = some wf.state := congrArg (Option.map _) hwf
      have hafter : db'.state e = some t := congrArg (Option.map _) hwf'
      have hmove : newState (some wf.state) (some t) = [t] := by
        unfold newState
        rw [if_neg, Option.toList_some]
        intro heq
        rw [Option.some.injEq] at heq
        rw [heq, canTransitionTo_irrefl] at hcan
        cases hcan
      rw [hbefore, hafter, hmove]
      refine ⟨hpath.snoc ?_ hcan, List.getLast?_concat.symm⟩
      rw [← hlast, hbefore]

/-! ## 3. The accepted steps -/

/-- Whose step it is, of which state, under which number. -/
def StepInput.slot (step : StepInput) : String × WorkflowState × String × Nat :=
  (step.escrowIdHex, step.state, step.fromId, step.seq)

theorem idemKey_of_slot {a b : StepInput} (h : a.slot = b.slot) :
    (a.row sha3).idemKey = (b.row sha3).idemKey := by
  simp only [StepInput.slot, Prod.mk.injEq] at h
  simp only [StepInput.row, h]

/-- The step a call has put into the table, as it is stored. -/
def acceptedStep : Call → Reply → List StepInput
  | .recordStep input, .step (.ok .accepted) => input.normalize.toOption.toList
  | _, _ => []

/-- The steps accepted along a history. -/
def acceptedSteps (sha3 : List UInt8 → List UInt8) (calls : List Call) : List StepInput :=
  (orchestrator sha3).collect
    (fun db call => acceptedStep call ((orchestrator sha3).serve db call).1) .empty calls

/-- The table holds the accepted steps, under keys of their own. Each came from a participant and
    was of the type its state asks for. -/
structure Recorded (sha3 : List UInt8 → List UInt8) (db : FlowDb) (steps : List StepInput) :
    Prop where
  rows : db.steps = steps.map (·.row sha3)
  keys : (steps.map fun step => (step.row sha3).idemKey).Nodup
  valid : ∀ step ∈ steps, (∃ input, StepInput.normalize input = .ok step)
    ∧ (∃ wf, db.workflow step.escrowIdHex = some wf ∧ step.fromId ∈ wf.participants)
    ∧ ∀ expected, expectedMsgTypeForState step.state = some expected → step.msgType = expected

theorem Recorded.frame {steps : List StepInput} (hr : Recorded sha3 db steps)
    (h : Effect sha3 db call reply db') (hsteps : db'.steps = db.steps) :
    Recorded sha3 db' steps := by
  refine ⟨hsteps.trans hr.rows, hr.keys, ?_⟩
  intro step hstep
  obtain ⟨hnorm, ⟨wf, hwf, hfrom⟩, htype⟩ := hr.valid step hstep
  obtain ⟨wf', hwf', hparticipants⟩ := participants_effect h hwf
  exact ⟨hnorm, ⟨wf', hwf', hparticipants ▸ hfrom⟩, htype⟩

theorem Recorded.effect {steps : List StepInput} (hr : Recorded sha3 db steps)
    (h : Effect sha3 db call reply db') :
    Recorded sha3 db' (steps ++ acceptedStep call reply) := by
  have hframe := hr.frame h
  cases h with
  | refused _ _ e hreply =>
    have hnone : acceptedStep call reply = [] := by
      rcases hreply with hreply | hreply
      · rw [hreply]
        cases call <;> rfl
      · rw [hreply]
        cases call <;> rfl
    rw [hnone, List.append_nil]
    exact hr
  | @accepted input step hcheck hnew =>
    obtain ⟨hnorm, hmsg⟩ := checkStep_eq_ok.mp hcheck
    obtain ⟨wf, hwf, hfrom, -, htype⟩ := checkMessage_eq_ok.mp hmsg
    have hone : acceptedStep (.recordStep input) (.step (.ok .accepted)) = [step] := by
      simp only [acceptedStep, hnorm]
      rfl
    rw [hone]
    refine ⟨?_, ?_, ?_⟩
    · simp [hr.rows]
    · refine nodup_map_snoc hr.keys ?_
      intro old hold heq
      -- an old row under the new key would have been found
      refine absurd ?_ (List.find?_eq_none.mp hnew (old.row sha3) ?_)
      · simpa using heq
      · rw [hr.rows]
        exact List.mem_map_of_mem hold
    · intro step' hstep'
      rcases List.mem_append.mp hstep' with hold | hstep'
      · exact hr.valid step' hold
      · rw [List.mem_singleton.mp hstep']
        exact ⟨⟨input, hnorm⟩, ⟨wf, hwf, hfrom⟩, htype⟩
  | _ =>
    rw [acceptedStep, List.append_nil]
    · exact hframe rfl
    all_goals simp

/-- **The table holds what was accepted**, after every history. -/
theorem recorded_reached (sha3 : List UInt8 → List UInt8) (calls : List Call) :
    Recorded sha3 (reached sha3 calls) (acceptedSteps sha3 calls) := by
  induction calls using reached_induction sha3 with
  | hempty => exact ⟨rfl, List.nodup_nil, List.forall_mem_nil _⟩
  | hstep calls call reply db' hserve heffect ih =>
    have hsteps : acceptedSteps sha3 (calls ++ [call])
        = acceptedSteps sha3 calls ++ acceptedStep call reply := by
      rw [acceptedSteps, Server.collect_snoc]
      show _ ++ acceptedStep call ((orchestrator sha3).serve (reached sha3 calls) call).1 = _
      rw [hserve]
      rfl
    rw [hsteps, reached_snoc hserve]
    exact ih.effect heffect

/-! ## 4. Repetitions -/

/-- The workflow still takes steps of that state. -/
def FlowDb.takes (db : FlowDb) (step : StepInput) : Bool :=
  (db.state step.escrowIdHex).any (·.allows step.state)

section
variable {steps : List StepInput} {step again input : StepInput}

theorem lower_of_normalize (h : input.normalize = .ok step) :
    toAsciiLowercase step.payloadHashHex = step.payloadHashHex := by
  simp only [StepInput.normalize, bind_eq_ok, pure_eq_ok] at h
  obtain ⟨_, -, _, -, _, -, hash, hhash, rfl⟩ := h
  obtain ⟨-, hall, rfl⟩ := normalizeHex_eq_ok.mp hhash
  exact (toAsciiLowercase_digits hall).2

theorem Recorded.find_again (hr : Recorded sha3 db steps) (hstep : step ∈ steps)
    (hslot : again.slot = step.slot) :
    db.steps.find? (·.idemKey = (again.row sha3).idemKey) = some (step.row sha3) := by
  rw [hr.rows, idemKey_of_slot hslot]
  refine find?_eq_some_of_unique (List.mem_map_of_mem hstep) (by simp) ?_
  intro row hrow hkey
  obtain ⟨other, hother, rfl⟩ := List.mem_map.mp hrow
  rw [List.inj_on_of_nodup_map hr.keys hother hstep (by simpa using hkey)]

theorem Recorded.checkStep_again (hr : Recorded sha3 db steps) (hstep : step ∈ steps)
    (hnorm : input.normalize = .ok again) (hslot : again.slot = step.slot)
    (htype : again.msgType = step.msgType) :
    db.checkStep input = .ok again ↔ db.takes again = true := by
  simp only [StepInput.slot, Prod.mk.injEq] at hslot
  obtain ⟨-, ⟨wf, hwf, hfrom⟩, hexpected⟩ := hr.valid step hstep
  rw [checkStep_eq_ok, checkMessage_eq_ok, FlowDb.takes, FlowDb.state, hslot.1, hslot.2.1,
    hslot.2.2.1, htype, hwf]
  constructor
  · intro h
    obtain ⟨-, wf', hwf', -, hallows, -⟩ := h
    rw [Option.some.injEq] at hwf'
    simpa [hwf'] using hallows
  · intro h
    exact ⟨hnorm, wf, rfl, hfrom, by simpa using h, hexpected⟩

/-- **What a repetition does.** With the same payload it changes nothing. With another one it is an
    error, which leaves one dead letter as long as the workflow still takes steps of that state. -/
theorem Recorded.repeated (hr : Recorded sha3 db steps) (hstep : step ∈ steps)
    (hnorm : input.normalize = .ok again) (hslot : again.slot = step.slot)
    (htype : again.msgType = step.msgType) :
    (again.payloadHashHex = step.payloadHashHex → (db.recordStep sha3 input).2 = db)
    ∧ (again.payloadHashHex ≠ step.payloadHashHex →
        (∃ e, (db.recordStep sha3 input).1 = .error e)
        ∧ (db.recordStep sha3 input).2
          = if db.takes again then db.addDeadLetter (FlowDb.conflict again) else db) := by
  have hcheck := hr.checkStep_again hstep hnorm hslot htype
  obtain ⟨⟨first, hfirst⟩, -⟩ := hr.valid step hstep
  unfold FlowDb.recordStep
  cases hc : db.checkStep input with
  | error e =>
    have htakes : db.takes again = false := by
      rw [← Bool.not_eq_true, ← hcheck, hc]
      simp
    simp [htakes]
  | ok step' =>
    -- what passes the checks is the normalised input
    have hsame : step' = again := by
      have h := (checkStep_eq_ok.mp hc).1
      rw [hnorm, Except.ok.injEq] at h
      exact h.symm
    rw [hsame] at hc ⊢
    simp only [hr.find_again hstep hslot, hcheck.mp hc, if_true]
    have hpayload : eqIgnoreAsciiCase (step.row sha3).payloadHashHex again.payloadHashHex = true
        ↔ step.payloadHashHex = again.payloadHashHex := by
      rw [eqIgnoreAsciiCase_iff, lower_of_normalize hnorm]
      show toAsciiLowercase step.payloadHashHex = _ ↔ _
      rw [lower_of_normalize hfirst]
    constructor
    · intro heq
      rw [if_pos (hpayload.mpr heq.symm)]
    · intro hne
      rw [if_neg (mt hpayload.mp (Ne.symm hne))]
      exact ⟨⟨_, rfl⟩, rfl⟩

end

/-! ## 5. Workflow runs -/

theorem accepted_checked {input : StepInput}
    (h : (db.recordStep sha3 input).1 = .ok .accepted) :
    ∃ step, input.normalize = .ok step ∧ ∃ wf, db.workflow step.escrowIdHex = some wf
      ∧ step.fromId ∈ wf.participants ∧ wf.state.allows step.state = true
      ∧ ∀ expected, expectedMsgTypeForState step.state = some expected →
          step.msgType = expected := by
  have heffect : Effect sha3 db _ _ _ := effect_recordStep input
  rw [h] at heffect
  generalize (db.recordStep sha3 input).2 = db' at heffect
  cases heffect with
  | refused _ _ e hreply => simp at hreply
  | accepted hcheck hnew =>
    obtain ⟨hnorm, hmsg⟩ := checkStep_eq_ok.mp hcheck
    exact ⟨_, hnorm, checkMessage_eq_ok.mp hmsg⟩

/-- **Workflow runs.** After every history of calls, for every escrow: its states followed the
    frozen path; a step is accepted only from a participant, in the current state or one that can
    follow it, with the type of that state; no slot is accepted twice; and a repetition does what
    `Recorded.repeated` says. -/
theorem workflow_runs (sha3 : List UInt8 → List UInt8) (calls : List Call) :
    (∀ e, OnFrozenPath (trail sha3 e calls)
      ∧ (reached sha3 calls).state e = (trail sha3 e calls).getLast?)
    ∧ (∀ input, ((reached sha3 calls).recordStep sha3 input).1 = .ok .accepted →
        ∃ step, input.normalize = .ok step
          ∧ ∃ wf, (reached sha3 calls).workflow step.escrowIdHex = some wf
            ∧ step.fromId ∈ wf.participants ∧ wf.state.allows step.state = true
            ∧ ∀ expected, expectedMsgTypeForState step.state = some expected →
                step.msgType = expected)
    ∧ ((acceptedSteps sha3 calls).map StepInput.slot).Nodup
    ∧ ∀ step ∈ acceptedSteps sha3 calls, ∀ input again, StepInput.normalize input = .ok again →
        again.slot = step.slot → again.msgType = step.msgType →
        (again.payloadHashHex = step.payloadHashHex →
          ((reached sha3 calls).recordStep sha3 input).2 = reached sha3 calls)
        ∧ (again.payloadHashHex ≠ step.payloadHashHex →
          (∃ e, ((reached sha3 calls).recordStep sha3 input).1 = .error e)
          ∧ ((reached sha3 calls).recordStep sha3 input).2
            = if (reached sha3 calls).takes again
              then (reached sha3 calls).addDeadLetter (FlowDb.conflict again)
              else reached sha3 calls) := by
  have hr := recorded_reached sha3 calls
  refine ⟨fun e => trail_on_path sha3 e calls, fun input => accepted_checked, ?_, ?_⟩
  · -- two steps of one slot would have one key
    have hkeys := hr.keys
    unfold List.Nodup at hkeys ⊢
    rw [List.pairwise_map] at hkeys ⊢
    exact hkeys.imp fun hne hslot => hne (idemKey_of_slot hslot)
  · intro step hstep input again hnorm hslot htype
    exact hr.repeated hstep hnorm hslot htype

/-! ### A repetition that comes late -/

/-- The digest of the one key of the run below. -/
def lateSha3 : List UInt8 → List UInt8 :=
  printedHash [("00112233445566778899aabbccddeeff:prepare_collected:seller:1",
    "81afd21f44e2c509366cf1217202c52230991533d3df8fba092e42fc08de1200")]

def lateStep (payloadHashHex : String) : StepInput :=
  { escrowIdHex := "00112233445566778899aabbccddeeff", state := .prepareCollected
    fromId := "seller", seq := 1, msgType := "prepare_info", payloadHashHex }

/-- A step is recorded, and the workflow moves on twice. -/
def lateCalls : List Call :=
  [.createWorkflow "00112233445566778899aabbccddeeff" (digit64 'a') ["buyer", "seller", "arbiter"],
    .recordStep (lateStep (digit64 'b')),
    .transitionWorkflow "00112233445566778899aabbccddeeff" .prepareCollected none,
    .transitionWorkflow "00112233445566778899aabbccddeeff" .makeCollected none]

/-- **A late conflict leaves no dead letter**: the step was accepted, it is repeated with another
    payload hash, and the error changes nothing. -/
theorem late_conflict_untraced :
    lateStep (digit64 'b') ∈ acceptedSteps lateSha3 lateCalls
    ∧ ((reached lateSha3 lateCalls).recordStep lateSha3 (lateStep (digit64 'c'))).1
        = .error ("workflow precondition failed: current state MakeCollected "
          ++ "does not allow step state PrepareCollected")
    ∧ ((reached lateSha3 lateCalls).recordStep lateSha3 (lateStep (digit64 'c'))).2.deadLetters
        = [] := by
  decide +kernel

end Nexum.Orchestrator
