import Nexum.Mailbox.Deliverable

/-!
# Waiting for a message

A pull that finds nothing waits, and a push wakes those who wait. The two meet through `Notify`:
`notify_waiters` wakes the pulls that are listening at that moment, and nobody else. A pull listens
only from the moment its `notified()` is polled, and that is **after** it has looked into the table.
A push that commits and notifies in between wakes nobody, and the pull goes to sleep next to its
message.

The other thing that ends a wait is the time. The branch of the timer answers with an empty list
and does not look again; what came meanwhile without a notification (a lease that ran out), or with
one that is still on its way, is not seen.

Each request is in one of a few phases, an event moves one of them, and a schedule is any list of
events: every interleaving of every number of requests.

Two things are said of an event, each once. `attentive_step` is about all pulls together: nobody who
is between a look and a wait has missed anything, and whoever listens next to a message is about to
be told. It is an invariant only of schedules that are `Prompt`, and the three clauses of that are
the three ways above in which a message is missed. `serve_moves` is about one pull: where it can go
from where it is. Who answers with nothing (`answers_empty`) and that a pull which was woken goes back
to the table and nowhere else (`woken_stays`) are read off it, and `pull_misses_nothing` puts the two
together.
-/

namespace Nexum.Mailbox

open Nexum.Lib Nexum.Transport

/-! ## 1. The phases of a pull -/

inductive Phase
  /-- At the head of the loop. -/
  | querying
  /-- The table had nothing; the clock is not read yet. -/
  | missed
  /-- Time is left; `notified()` is not polled yet. -/
  | armed
  | listening
  /-- Notified while listening. -/
  | woken
  | answered (messages : List LeasedMessage)
  deriving DecidableEq

/-- A pull request that got past its checks. -/
structure Waiter where
  inbox : String
  max : Nat
  deadline : Int
  phase : Phase
  max_pos : 1 ≤ max
  deriving DecidableEq

structure System where
  db : Db
  now : Int
  waiters : List Waiter
  /-- Pushes that have committed and have still to notify their inbox. -/
  pending : List String
  deriving DecidableEq

inductive Event
  | tick (now : Int)
  | request (inbox : String) (max : Option Nat) (waitMs : Nat)
  | push (env : NxmsEnvelope) (ttlSecs : Nat) (limits : MailboxLimits)
  | notify (k : Nat)
  | ack (receipt inbox : String)
  | cleanup
  | query (i : Nat) (draw : Nat → String)
  | settle (i : Nat)
  | listen (i : Nat)
  | timeout (i : Nat)
  | resume (i : Nat)

def Waiter.wake (inbox : String) (w : Waiter) : Waiter :=
  if w.inbox = inbox ∧ w.phase = .listening then { w with phase := .woken } else w

def System.move (sys : System) (i : Nat) (w : Waiter) (phase : Phase) : System :=
  { sys with waiters := sys.waiters.set i { w with phase } }

/-- What the event does to the pull it is about, given where the pull is. An event whose time has
    not come does nothing. -/
def System.advance (sys : System) (i : Nat) (w : Waiter) : Event → System
  | .settle _ =>
    if w.phase = .missed then
      -- `remaining.is_zero()`
      if w.deadline ≤ sys.now then sys.move i w (.answered []) else sys.move i w .armed
    else sys
  | .listen _ => if w.phase = .armed then sys.move i w .listening else sys
  | .timeout _ =>
    -- `select!` takes either branch when both are ready
    if (w.phase = .listening ∨ w.phase = .woken) ∧ w.deadline ≤ sys.now then
      sys.move i w (.answered [])
    else sys
  | .resume _ => if w.phase = .woken then sys.move i w .querying else sys
  | _ => sys

def longPoll (cfg : ApiConfig) : Server System Event Unit where
  serve sys event :=
    ((), match event with
    | .tick now => if sys.now ≤ now then { sys with now } else sys
    | .request inbox max waitMs =>
      { sys with waiters := sys.waiters ++ [
          { inbox, max := pullLimit ⟨inbox, max, waitMs⟩
            deadline := sys.now + min waitMs cfg.maxWaitMs, phase := .querying
            max_pos := by
              unfold pullLimit
              omega }] }
    | .push env ttlSecs limits =>
      let (result, db) := pushSync sys.now env ttlSecs limits sys.db
      if isAccepted result then { sys with db, pending := sys.pending ++ [env.to_] }
      else { sys with db }
    | .notify k =>
      match sys.pending[k]? with
      | some inbox =>
        { sys with pending := sys.pending.eraseIdx k, waiters := sys.waiters.map (·.wake inbox) }
      | none => sys
    | .ack receipt inbox => { sys with db := (ackSync receipt inbox sys.db).2 }
    | .cleanup => { sys with db := cleanupExpiredSync sys.now sys.db }
    | .query i draw =>
      match sys.waiters[i]? with
      | some w =>
        if w.phase = .querying then
          let (messages, db) := pullSync sys.now w.inbox w.max cfg.leaseSecs draw sys.db
          { sys with db }.move i w (if messages = [] then .missed else .answered messages)
        else sys
      | none => sys
    | .settle i | .listen i | .timeout i | .resume i =>
      match sys.waiters[i]? with
      | some w => sys.advance i w event
      | none => sys)

/-- Nothing has happened yet. -/
def System.start : System := ⟨.empty, 0, [], []⟩

/-- The system after a schedule. -/
def reached (cfg : ApiConfig) (events : List Event) : System :=
  (longPoll cfg).after .start events

/-- A message for the inbox is stored, unexpired and unleased. -/
def System.has (sys : System) (inbox : String) : Bool :=
  sys.db.rows.any (·.available inbox sys.now)

/-! ## 2. What can come to be there -/

/-- The table is that of some history of calls, so its ids are given once. -/
def System.Recorded (sys : System) : Prop := ∃ calls, sys.db = stored calls

theorem System.Recorded.numbered {sys : System} (h : sys.Recorded) : Numbered sys.db := by
  obtain ⟨calls, hdb⟩ := h
  rw [hdb]
  exact numbered_stored calls

theorem has_eq_false_iff {sys : System} {inbox : String} :
    sys.has inbox = false ↔ ∀ row ∈ sys.db.rows, ¬ row.available inbox sys.now = true := by
  rw [System.has, List.any_eq_false]

theorem has_of_sublist {sys : System} {rows : List Row} (hrows : rows.Sublist sys.db.rows)
    {inbox : String} (h : rows.any (·.available inbox sys.now) = true) : sys.has inbox = true := by
  obtain ⟨row, hrow, havailable⟩ := List.any_eq_true.mp h
  exact List.any_eq_true.mpr ⟨row, hrows.subset hrow, havailable⟩

theorem expiresAtMs_leased (drawn : List (String × Row)) (until_ : Int) (row : Row) :
    (row.leased drawn until_).expiresAtMs = row.expiresAtMs := by
  have h := congrArg Row.expiresAtMs (content_leased drawn until_ row)
  exact h

/-- What is available after a pull was available before: a row that got a lease was, and the others
    are as they were. So a look by one pull hides messages from the others and shows them none. -/
theorem available_of_leased {db : Db} (hnumbered : Numbered db) {inbox inbox' : String} {now : Int}
    {max : Nat} {draw : Nat → String} {until_ : Int} {row : Row} (hrow : row ∈ (db.prune now).rows)
    (h : (row.leased ((db.prune now).drawn inbox now max draw) until_).available inbox' now
      = true) :
    row.available inbox' now = true := by
  simp only [Row.available, leased_toId, expiresAtMs_leased, Bool.and_eq_true] at h ⊢
  refine ⟨h.1, ?_⟩
  have hlease := congrArg Prod.snd
    (lease_leased ((db.prune now).drawn inbox now max draw) until_ row)
  simp only at hlease
  cases hlast : (((db.prune now).drawn inbox now max draw).filter
      (·.2.id = row.id)).getLast? with
  | none =>
    rw [hlast] at hlease
    rw [hlease] at h
    exact h.2
  | some given =>
    obtain ⟨hgiven, hid⟩ := List.mem_filter.mp (List.mem_of_getLast? hlast)
    obtain ⟨hmem, havailable⟩ := mem_selected_of_drawn hgiven
    have hsame : given.2 = row :=
      eq_of_id hnumbered.ordered ((prune_sublist db now).subset hmem)
        ((prune_sublist db now).subset hrow) (by simpa using hid)
    rw [hsame] at havailable
    simp only [Row.available, Bool.and_eq_true] at havailable
    exact havailable.2

/-- A pull that gets nothing had nothing to get, and leaves the table to the rows that live. -/
theorem nothing_of_pull_nil {db : Db} {inbox : String} {now : Int} {max leaseSecs : Nat}
    {draw : Nat → String} (hmax : 1 ≤ max)
    (h : (pullSync now inbox max leaseSecs draw db).1 = []) :
    (∀ row ∈ db.rows, ¬ row.available inbox now = true) ∧
      (pullSync now inbox max leaseSecs draw db).2 = db.prune now := by
  have hdrawn : (db.prune now).drawn inbox now max draw = [] := by
    simpa [pullSync] using h
  have hselected : (db.prune now).selected inbox now max = [] := by
    rw [← drawn_snd (db.prune now) inbox now max draw, hdrawn]
    rfl
  have hnone : (db.prune now).rows.filter (·.available inbox now) = [] := by
    rw [Db.selected, List.take_eq_nil_iff] at hselected
    rcases hselected with hzero | hnil
    · omega
    · exact hnil
  constructor
  · intro row hrow havailable
    have hlive : now < row.expiresAtMs := by
      simp only [Row.available, Bool.and_eq_true, decide_eq_true_eq] at havailable
      exact havailable.1.2
    exact List.filter_eq_nil_iff.mp hnone row
      (List.mem_filter.mpr ⟨hrow, by simpa using hlive⟩) havailable
  · simp only [pullSync, hdrawn, List.foldl_nil]

/-! ## 3. Attention -/

/-- What the schedule is asked for, before each event: no push commits for an inbox while a pull of
    it is between its look and its wait; no lease of an inbox runs out while a pull of it is past
    its look; and the timer is not faster than a notification. -/
def Prompt (sys : System) : Event → Prop
  | .push env _ _ => ∀ w ∈ sys.waiters, w.inbox = env.to_ → w.phase ≠ .missed ∧ w.phase ≠ .armed
  | .tick now => ∀ w ∈ sys.waiters,
      w.phase = .missed ∨ w.phase = .armed ∨ w.phase = .listening →
      ∀ row ∈ sys.db.rows, row.available w.inbox now = true →
        row.available w.inbox sys.now = true
  | .timeout i => ∀ w ∈ sys.waiters[i]?, w.phase ≠ .woken ∧ w.inbox ∉ sys.pending
  | _ => True

instance (sys : System) : ∀ event, Decidable (Prompt sys event)
  | .push env _ _ => inferInstanceAs (Decidable (∀ w ∈ sys.waiters, w.inbox = env.to_ →
      w.phase ≠ .missed ∧ w.phase ≠ .armed))
  | .tick now => inferInstanceAs (Decidable (∀ w ∈ sys.waiters,
      w.phase = .missed ∨ w.phase = .armed ∨ w.phase = .listening →
      ∀ row ∈ sys.db.rows, row.available w.inbox now = true →
        row.available w.inbox sys.now = true))
  | .timeout i => inferInstanceAs (Decidable (∀ w ∈ sys.waiters[i]?,
      w.phase ≠ .woken ∧ w.inbox ∉ sys.pending))
  | .request .. | .notify .. | .ack .. | .cleanup | .query .. | .settle .. | .listen ..
  | .resume .. => isTrue trivial

/-- A pull between its look and its wait has missed nothing; and if there is something for one that
    listens, a notification is on its way. -/
structure Attentive (sys : System) : Prop where
  recorded : sys.Recorded
  window : ∀ w ∈ sys.waiters, w.phase = .missed ∨ w.phase = .armed → sys.has w.inbox = false
  waiting : ∀ w ∈ sys.waiters, w.phase = .listening → sys.has w.inbox = true →
    w.inbox ∈ sys.pending

theorem attentive_start : Attentive .start where
  recorded := ⟨[], rfl⟩
  window := List.forall_mem_nil _
  waiting := List.forall_mem_nil _

/-- One pull moves, and only its new phase has to be looked at. -/
theorem Attentive.move {sys : System} (h : Attentive sys) {i : Nat} {w : Waiter} {phase : Phase}
    (hwindow : phase = .missed ∨ phase = .armed → sys.has w.inbox = false)
    (hwaiting : phase = .listening → sys.has w.inbox = true → w.inbox ∈ sys.pending) :
    Attentive (sys.move i w phase) := by
  refine ⟨h.recorded, ?_, ?_⟩
  · intro v hv hphase
    rcases List.mem_or_eq_of_mem_set hv with hold | rfl
    · exact h.window v hold hphase
    · exact hwindow hphase
  · intro v hv hphase hhas
    rcases List.mem_or_eq_of_mem_set hv with hold | rfl
    · exact h.waiting v hold hphase hhas
    · exact hwaiting hphase hhas

/-- A table with no new messages keeps the invariant: pulls, acks and sweeps come to this. -/
theorem Attentive.table {sys : System} (h : Attentive sys) {db : Db}
    (hrecorded : ∃ calls, db = stored calls)
    (hfewer : ∀ inbox, db.rows.any (·.available inbox sys.now) = true → sys.has inbox = true) :
    Attentive { sys with db } := by
  refine ⟨hrecorded, ?_, ?_⟩
  · intro w hw hphase
    rw [← Bool.not_eq_true]
    intro hhas
    have hbefore := hfewer w.inbox hhas
    rw [h.window w hw hphase] at hbefore
    exact Bool.false_ne_true hbefore
  · intro w hw hphase hhas
    exact h.waiting w hw hphase (hfewer w.inbox hhas)

/-! ## 4. Step by step -/

section
variable {cfg : ApiConfig} {sys : System}

theorem Attentive.tick (h : Attentive sys) {now : Int} (hprompt : Prompt sys (.tick now)) :
    Attentive { sys with now } := by
  have hfewer : ∀ w ∈ sys.waiters, w.phase = .missed ∨ w.phase = .armed ∨ w.phase = .listening →
      System.has { sys with now } w.inbox = true → sys.has w.inbox = true := by
    intro w hw hphase hhas
    obtain ⟨row, hrow, havailable⟩ := List.any_eq_true.mp hhas
    exact List.any_eq_true.mpr ⟨row, hrow, hprompt w hw hphase row hrow havailable⟩
  refine ⟨h.recorded, ?_, ?_⟩
  · intro w hw hphase
    rw [← Bool.not_eq_true]
    intro hhas
    have hbefore := hfewer w hw (hphase.imp id .inl) hhas
    rw [h.window w hw hphase] at hbefore
    exact Bool.false_ne_true hbefore
  · intro w hw hphase hhas
    exact h.waiting w hw hphase (hfewer w hw (.inr (.inr hphase)) hhas)

theorem Attentive.stored (h : Attentive sys) {db : Db} (row : Row)
    (hrecorded : ∃ calls, db = stored calls) (hnew : ∀ r ∈ db.rows, r ∈ sys.db.rows ∨ r = row)
    (hprompt : ∀ w ∈ sys.waiters, w.inbox = row.toId → w.phase ≠ .missed ∧ w.phase ≠ .armed) :
    Attentive { sys with db, pending := sys.pending ++ [row.toId] } := by
  have hsplit : ∀ inbox, db.rows.any (·.available inbox sys.now) = true →
      sys.has inbox = true ∨ inbox = row.toId := by
    intro inbox hhas
    obtain ⟨r, hr, havailable⟩ := List.any_eq_true.mp hhas
    rcases hnew r hr with hold | rfl
    · exact .inl (List.any_eq_true.mpr ⟨r, hold, havailable⟩)
    · simp only [Row.available, Bool.and_eq_true, decide_eq_true_eq] at havailable
      exact .inr havailable.1.1.symm
  refine ⟨hrecorded, ?_, ?_⟩
  · intro w hw hphase
    rw [← Bool.not_eq_true]
    intro hhas
    rcases hsplit w.inbox hhas with hbefore | hinbox
    · rw [h.window w hw hphase] at hbefore
      exact Bool.false_ne_true hbefore
    · obtain ⟨hmissed, harmed⟩ := hprompt w hw hinbox
      exact hphase.elim hmissed harmed
  · intro w hw hphase hhas
    rcases hsplit w.inbox hhas with hbefore | hinbox
    · exact List.mem_append_left _ (h.waiting w hw hphase hbefore)
    · rw [hinbox]
      exact List.mem_append_right _ (List.mem_singleton.mpr rfl)

theorem wake_cases (w : Waiter) (inbox : String) :
    (w.wake inbox).phase = .woken ∨
      w.wake inbox = w ∧ ¬ (w.inbox = inbox ∧ w.phase = .listening) := by
  unfold Waiter.wake
  by_cases h : w.inbox = inbox ∧ w.phase = .listening
  · left
    rw [if_pos h]
  · right
    rw [if_neg h]
    exact ⟨rfl, h⟩

theorem Attentive.notify (h : Attentive sys) {k : Nat} {inbox : String}
    (hk : sys.pending[k]? = some inbox) :
    Attentive
      { sys with
        pending := sys.pending.eraseIdx k
        waiters := sys.waiters.map (·.wake inbox) } := by
  refine ⟨h.recorded, ?_, ?_⟩
  · intro v hv hphase
    obtain ⟨w, hw, rfl⟩ := List.mem_map.mp hv
    rcases wake_cases w inbox with hwoken | ⟨hsame, -⟩
    · rw [hwoken] at hphase
      simp at hphase
    · rw [hsame] at hphase ⊢
      exact h.window w hw hphase
  · intro v hv hphase hhas
    obtain ⟨w, hw, rfl⟩ := List.mem_map.mp hv
    rcases wake_cases w inbox with hwoken | ⟨hsame, hother⟩
    · rw [hwoken] at hphase
      simp at hphase
    · rw [hsame] at hphase hhas ⊢
      have hne : w.inbox ≠ inbox := fun heq => hother ⟨heq, hphase⟩
      obtain ⟨j, hj⟩ := List.mem_iff_getElem?.mp (h.waiting w hw hphase hhas)
      refine List.mem_eraseIdx_iff_getElem?.mpr ⟨j, ?_, hj⟩
      intro hjk
      rw [hjk, hk, Option.some.injEq] at hj
      exact hne hj.symm

/-- A look into the table: with something to answer, or with nothing left to miss. -/
theorem Attentive.query (h : Attentive sys) (i : Nat) (w : Waiter) (draw : Nat → String) :
    let out := pullSync sys.now w.inbox w.max cfg.leaseSecs draw sys.db
    Attentive ({ sys with db := out.2 }.move i w
      (if out.1 = [] then .missed else .answered out.1)) := by
  obtain ⟨calls, hcalls⟩ := h.recorded
  have hrows : (pullSync sys.now w.inbox w.max cfg.leaseSecs draw sys.db).2.rows =
      (sys.db.prune sys.now).rows.map (Row.leased ((sys.db.prune sys.now).drawn w.inbox sys.now
        w.max draw) (satAddI64 sys.now (spanMs cfg.leaseSecs))) :=
    congrArg Db.rows (rows_foldl_lease _ _ _)
  have htable : Attentive
      { sys with db := (pullSync sys.now w.inbox w.max cfg.leaseSecs draw sys.db).2 } := by
    apply h.table
    · refine ⟨calls ++ [.pull sys.now w.inbox w.max cfg.leaseSecs draw], ?_⟩
      rw [stored_snoc, serve_pull, ← hcalls]
    · intro inbox hhas
      rw [hrows] at hhas
      obtain ⟨r, hr, havailable⟩ := List.any_eq_true.mp hhas
      obtain ⟨row, hrow, rfl⟩ := List.mem_map.mp hr
      exact List.any_eq_true.mpr ⟨row, (prune_sublist _ _).subset hrow,
        available_of_leased h.recorded.numbered hrow havailable⟩
  dsimp only
  apply htable.move
  · intro hphase
    split at hphase
    · rename_i hnil
      obtain ⟨hnone, hpruned⟩ := nothing_of_pull_nil w.max_pos hnil
      refine has_eq_false_iff.mpr ?_
      intro row hrow
      rw [hpruned] at hrow
      exact hnone row ((prune_sublist _ _).subset hrow)
    · simp at hphase
  · intro hphase
    split at hphase <;> simp at hphase

theorem Attentive.advance (h : Attentive sys) {i : Nat} {w : Waiter}
    (hw : sys.waiters[i]? = some w) (event : Event) : Attentive (sys.advance i w event) := by
  have hmem : w ∈ sys.waiters := List.mem_of_getElem? hw
  unfold System.advance
  split
  · split
    · rename_i hmissed
      split
      · exact h.move (by simp) (by simp)
      · exact h.move (fun _ => h.window w hmem (.inl hmissed)) (by simp)
    · exact h
  · split
    · rename_i harmed
      refine h.move (by simp) ?_
      intro _ hhas
      rw [h.window w hmem (.inr harmed)] at hhas
      exact absurd hhas Bool.false_ne_true
    · exact h
  · split
    · exact h.move (by simp) (by simp)
    · exact h
  · split
    · exact h.move (by simp) (by simp)
    · exact h
  · exact h

/-- **One event.** -/
theorem attentive_step (h : Attentive sys) {event : Event} (hprompt : Prompt sys event) :
    Attentive ((longPoll cfg).serve sys event).2 := by
  obtain ⟨calls, hcalls⟩ := h.recorded
  cases event with
  | tick now =>
    simp only [longPoll]
    split
    · exact h.tick hprompt
    · exact h
  | request inbox max waitMs =>
    refine ⟨h.recorded, ?_, ?_⟩
    · intro w hw hphase
      rcases List.mem_append.mp hw with hw | hw
      · exact h.window w hw hphase
      · obtain rfl := List.mem_singleton.mp hw
        simp at hphase
    · intro w hw hphase hhas
      rcases List.mem_append.mp hw with hw | hw
      · exact h.waiting w hw hphase hhas
      · obtain rfl := List.mem_singleton.mp hw
        simp at hphase
  | push env ttlSecs limits =>
    have hspec := pushSync_spec sys.now env ttlSecs limits sys.db
    have hrecorded : ∃ calls, (pushSync sys.now env ttlSecs limits sys.db).2 = stored calls := by
      refine ⟨calls ++ [.push sys.now env ttlSecs limits], ?_⟩
      rw [stored_snoc, serve_push, ← hcalls]
    simp only [longPoll]
    generalize pushSync sys.now env ttlSecs limits sys.db = out at hspec hrecorded ⊢
    obtain ⟨result, db⟩ := out
    simp only at hspec hrecorded ⊢
    have hswept : Attentive { sys with db := sys.db.prune sys.now } := by
      refine h.table ?_ fun inbox => has_of_sublist (prune_sublist _ _)
      refine ⟨calls ++ [.cleanup sys.now], ?_⟩
      rw [stored_snoc, ← hcalls]
      rfl
    cases hspec with
    | failed e => exact h
    | dedup hlength hrow hkey => exact hswept
    | refused reason => exact hswept
    | stored hfree hlength hglobal hsum hinbox hbytes =>
      refine h.stored { rowOf env sys.now ttlSecs with id := sys.db.nextId } hrecorded ?_ hprompt
      intro r hr
      rcases List.mem_append.mp hr with hold | hnew
      · exact .inl ((prune_sublist _ _).subset hold)
      · exact .inr (List.mem_singleton.mp hnew)
  | notify k =>
    simp only [longPoll]
    split
    · rename_i hk
      exact h.notify hk
    · exact h
  | ack receipt inbox =>
    refine h.table ?_ fun inbox => has_of_sublist List.filter_sublist
    refine ⟨calls ++ [.ack sys.now receipt inbox], ?_⟩
    rw [stored_snoc, ← hcalls]
    rfl
  | cleanup =>
    refine h.table ?_ fun inbox => has_of_sublist (prune_sublist _ _)
    refine ⟨calls ++ [.cleanup sys.now], ?_⟩
    rw [stored_snoc, ← hcalls]
    rfl
  | query i draw =>
    simp only [longPoll]
    split
    · split
      · exact h.query i _ draw
      · exact h
    · exact h
  | settle i | listen i | timeout i | resume i =>
    simp only [longPoll]
    split
    · rename_i hw
      exact h.advance hw _
    · exact h

end

/-! ## 5. Along a schedule -/

/-- Every event of the schedule comes when it may. -/
def Prompted (cfg : ApiConfig) (events : List Event) : Prop :=
  (longPoll cfg).Along Prompt .start events

theorem attentive_reached {cfg : ApiConfig} {events : List Event} (h : Prompted cfg events) :
    Attentive (reached cfg events) :=
  (longPoll cfg).invariant (P := Attentive) (fun _ _ hprompt hsys => attentive_step hsys hprompt)
    attentive_start events h

section
variable {cfg : ApiConfig} {sys : System} {i : Nat} {w w' : Waiter}

/-- **What an event can do to a pull**, given where the pull is. What becomes of a single pull is read
    off here, once for all events. -/
inductive Moves (cfg : ApiConfig) (sys : System) (i : Nat) (w : Waiter) : Event → Phase → Prop
  | wakes {k : Nat} : w.phase = .listening → sys.pending[k]? = some w.inbox →
      Moves cfg sys i w (.notify k) .woken
  | looks {draw : Nat → String} {messages : List LeasedMessage} : w.phase = .querying →
      (pullSync sys.now w.inbox w.max cfg.leaseSecs draw sys.db).1 = messages →
      Moves cfg sys i w (.query i draw) (if messages = [] then .missed else .answered messages)
  | ends : w.phase = .missed → w.deadline ≤ sys.now → Moves cfg sys i w (.settle i) (.answered [])
  | arms : w.phase = .missed → ¬ w.deadline ≤ sys.now → Moves cfg sys i w (.settle i) .armed
  | listens : w.phase = .armed → Moves cfg sys i w (.listen i) .listening
  | fires : (w.phase = .listening ∨ w.phase = .woken) ∧ w.deadline ≤ sys.now →
      Moves cfg sys i w (.timeout i) (.answered [])
  | resumes : w.phase = .woken → Moves cfg sys i w (.resume i) .querying
  | stays {event : Event} : Moves cfg sys i w event w.phase

theorem serve_moves (cfg : ApiConfig) (event : Event) (hw : sys.waiters[i]? = some w) :
    ∃ phase, Moves cfg sys i w event phase
      ∧ ((longPoll cfg).serve sys event).2.waiters[i]? = some { w with phase } := by
  obtain ⟨hlt, -⟩ := List.getElem?_eq_some_iff.mp hw
  have hstays : ∀ {after : System}, after.waiters[i]? = some w → ∃ phase,
      Moves cfg sys i w event phase ∧ after.waiters[i]? = some { w with phase } :=
    fun h => ⟨_, .stays, h⟩
  have hset : ∀ {phase}, (sys.waiters.set i { w with phase })[i]? = some { w with phase } :=
    List.getElem?_set_self hlt
  have hother : ∀ {j v}, j ≠ i → (sys.waiters.set j v)[i]? = some w :=
    fun hji => (List.getElem?_set_ne hji).trans hw
  cases event with
  | tick now =>
    simp only [longPoll]
    split <;> exact hstays hw
  | request inbox max waitMs => exact hstays ((List.getElem?_append_left hlt).trans hw)
  | push env ttlSecs limits =>
    simp only [longPoll]
    split <;> exact hstays hw
  | notify k =>
    simp only [longPoll]
    split
    · rename_i inbox hk
      by_cases hwakes : w.inbox = inbox ∧ w.phase = .listening
      · exact ⟨_, .wakes hwakes.2 (hwakes.1 ▸ hk), by simp [hw, Waiter.wake, hwakes]⟩
      · exact hstays (by simp [hw, Waiter.wake, hwakes])
    · exact hstays hw
  | ack receipt inbox => exact hstays hw
  | cleanup => exact hstays hw
  | query j draw =>
    by_cases hji : j = i
    · subst hji
      by_cases hquerying : w.phase = .querying
      · refine ⟨_, .looks hquerying rfl, ?_⟩
        simp only [longPoll, hw, hquerying, if_true]
        exact hset
      · exact hstays (by simp [longPoll, hw, hquerying])
    · simp only [longPoll]
      split
      · split
        · exact hstays (hother hji)
        · exact hstays hw
      · exact hstays hw
  | settle j | listen j | timeout j | resume j =>
    by_cases hji : j = i
    · subst hji
      simp only [longPoll, hw, System.advance]
      repeat' split
      all_goals first
        | exact hstays hw
        | exact ⟨_, by constructor <;> assumption, hset⟩
    · simp only [longPoll, System.advance]
      repeat' split
      all_goals first
        | exact hstays (hother hji)
        | exact hstays hw

/-- The four events that only move a pull leave the table and the clock alone. -/
theorem has_advance {event : Event} {inbox : String} :
    (sys.advance i w event).has inbox = sys.has inbox := by
  unfold System.advance
  repeat' split
  all_goals rfl

/-- **Who answers with nothing.** A pull that found nothing and has no time left, or one whose timer
    has fired. -/
theorem answers_empty {event : Event} (hw : sys.waiters[i]? = some w)
    (hw' : ((longPoll cfg).serve sys event).2.waiters[i]? = some w')
    (hbefore : w.phase ≠ .answered []) (hafter : w'.phase = .answered []) :
    ((longPoll cfg).serve sys event).2.has w.inbox = sys.has w.inbox ∧
      (w.phase = .missed ∨ event = .timeout i ∧ (w.phase = .listening ∨ w.phase = .woken)) := by
  obtain ⟨phase, hmoves, hat⟩ := serve_moves cfg event hw
  obtain rfl : { w with phase } = w' := Option.some.inj (hat.symm.trans hw')
  cases hmoves with
  | ends hmissed _ =>
    simp only [longPoll, hw]
    exact ⟨has_advance, .inl hmissed⟩
  | fires hfired =>
    simp only [longPoll, hw]
    exact ⟨has_advance, .inr ⟨trivial, hfired.1⟩⟩
  | looks =>
    dsimp only at hafter
    split at hafter
    · cases hafter
    · rename_i hne
      exact absurd (Phase.answered.inj hafter) hne
  | stays => exact absurd hafter hbefore
  | _ => cases hafter

/-- One that is awake stays so until it goes back to the table: of the other events only the timer
    could end its wait, and a prompt one does not. -/
theorem woken_stays {event : Event} (hprompt : Prompt sys event) (hw : sys.waiters[i]? = some w)
    (hwoken : w.phase = .woken) (hne : event ≠ .resume i) :
    ((longPoll cfg).serve sys event).2.waiters[i]? = some w := by
  obtain ⟨phase, hmoves, hat⟩ := serve_moves cfg event hw
  rw [hat]
  cases hmoves with
  | stays => rfl
  | fires => exact absurd hwoken (hprompt w hw).1
  | resumes => exact absurd rfl hne
  | wakes h | looks h | ends h | arms h | listens h =>
    rw [hwoken] at h
    cases h

end

/-- **A pull misses nothing**, as long as every event comes when it may: one that answers with an
    empty list leaves nothing behind; if there is something for one that listens, a notification is
    on its way; the notification wakes it, and once awake it goes back to the table; and one that
    looks when something is there answers with it. Together they lead from the push to the answer,
    whatever else happens in between. -/
theorem pull_misses_nothing (cfg : ApiConfig) (events : List Event) (event : Event)
    (h : Prompted cfg (events ++ [event])) :
    let before := reached cfg events
    let after := reached cfg (events ++ [event])
    (∀ (i : Nat) (w w' : Waiter), before.waiters[i]? = some w → after.waiters[i]? = some w' →
      w.phase ≠ .answered [] → w'.phase = .answered [] → after.has w.inbox = false) ∧
    (∀ w ∈ after.waiters, w.phase = .listening → after.has w.inbox = true →
      w.inbox ∈ after.pending) ∧
    (∀ (i : Nat) (w : Waiter) draw, before.waiters[i]? = some w → w.phase = .querying →
      before.has w.inbox = true → event = .query i draw →
      ∃ w' m ms, after.waiters[i]? = some w' ∧ w'.phase = .answered (m :: ms)) ∧
    (∀ (i : Nat) (w : Waiter) k, before.waiters[i]? = some w → w.phase = .listening →
      before.pending[k]? = some w.inbox → event = .notify k →
      after.waiters[i]? = some { w with phase := .woken }) ∧
    (∀ (i : Nat) (w : Waiter), before.waiters[i]? = some w → w.phase = .woken →
      (event = .resume i → after.waiters[i]? = some { w with phase := .querying }) ∧
      (event ≠ .resume i → after.waiters[i]? = some w)) := by
  obtain ⟨hpast, hprompt⟩ := (longPoll cfg).along_snoc.mp h
  have hbefore := attentive_reached hpast
  have hreached : reached cfg (events ++ [event]) =
      ((longPoll cfg).serve (reached cfg events) event).2 := by
    unfold reached
    rw [Server.after_snoc]
  refine ⟨?_, (attentive_reached h).waiting, ?_, ?_, ?_⟩
  · intro i w w' hw hw' hphase hphase'
    rw [hreached] at hw' ⊢
    obtain ⟨hhas, hwhy⟩ := answers_empty hw hw' hphase hphase'
    have hmem : w ∈ (reached cfg events).waiters := List.mem_of_getElem? hw
    rw [hhas]
    rcases hwhy with hmissed | ⟨rfl, hwaits⟩
    · exact hbefore.window w hmem (.inl hmissed)
    · obtain ⟨hasleep, hnone⟩ := hprompt w hw
      rcases hwaits with hlistening | hwoken
      · rw [← Bool.not_eq_true]
        intro hthere
        exact hnone (hbefore.waiting w hmem hlistening hthere)
      · exact absurd hwoken hasleep
  · intro i w draw hw hquerying hthere hevent
    subst hevent
    obtain ⟨row, hrow, havailable⟩ := List.any_eq_true.mp hthere
    have hne : (pullSync (reached cfg events).now w.inbox w.max cfg.leaseSecs draw
        (reached cfg events).db).1 ≠ [] := by
      intro hnil
      exact (nothing_of_pull_nil w.max_pos hnil).1 row hrow havailable
    obtain ⟨m, ms, hmessages⟩ := List.exists_cons_of_ne_nil hne
    obtain ⟨hlt, -⟩ := List.getElem?_eq_some_iff.mp hw
    refine ⟨{ w with phase := .answered (m :: ms) }, m, ms, ?_, rfl⟩
    rw [hreached]
    simp only [longPoll, hw, hquerying, if_true, System.move]
    rw [hmessages, List.getElem?_set_self hlt]
    simp
  · intro i w k hw hlistening hpending hevent
    subst hevent
    rw [hreached]
    simp [longPoll, hpending, hw, Waiter.wake, hlistening]
  · intro i w hw hwoken
    rw [hreached]
    refine ⟨fun hevent => ?_, woken_stays hprompt hw hwoken⟩
    obtain ⟨hlt, -⟩ := List.getElem?_eq_some_iff.mp hw
    simp [hevent, longPoll, hw, System.advance, hwoken, System.move, List.getElem?_set_self hlt]

/-! ## 6. The push in between -/

def sampleConfig : ApiConfig where
  pushToken := some "push-secret"
  pullTokens := ⟨[("bob", "pull-bob")], by decide⟩
  ackTokens := ⟨[("bob", "ack-bob")], by decide⟩
  adminToken := some "admin-secret"
  maxBodyBytes := 16 * 1024 * 1024
  defaultTtlSecs := 86400
  maxTtlSecs := 604800
  leaseSecs := 60
  maxWaitMs := 20000
  limits := ⟨10000, 64 * 1024 * 1024, 1000000⟩
  rateLimitIpPerMin := 300
  rateLimitToPerMin := 600

/-- A pull listens, a push comes and wakes it, and it looks again. -/
def sampleWait : List Event :=
  [.request "bob" none 1000, .query 0 (fun _ => "r1"), .settle 0, .listen 0,
   .push (sampleEnvelope "bob" 1) 3600 sampleConfig.limits, .notify 0, .resume 0]

theorem pull_misses_nothing_sample :
    Prompted sampleConfig (sampleWait ++ [.query 0 fun _ => "r2"]) ∧
      ∃ w m ms, (reached sampleConfig (sampleWait ++ [.query 0 fun _ => "r2"])).waiters[0]? =
        some w ∧ w.phase = .answered (m :: ms) := by
  have hprompt : Prompted sampleConfig (sampleWait ++ [.query 0 fun _ => "r2"]) := by
    unfold Prompted
    decide +kernel
  refine ⟨hprompt, ?_⟩
  have hstate : (reached sampleConfig sampleWait).waiters[0]?.any (fun w =>
      w.phase = .querying ∧ (reached sampleConfig sampleWait).has w.inbox) = true := by
    decide +kernel
  cases hw : (reached sampleConfig sampleWait).waiters[0]? with
  | none => simp [hw] at hstate
  | some w =>
    simp only [hw, Option.any_some, decide_eq_true_eq] at hstate
    exact (pull_misses_nothing sampleConfig sampleWait _ hprompt).2.2.1 0 w _ hw hstate.1
      hstate.2 rfl

/-- The pull has looked, the push commits and notifies, and then the pull starts to listen: it
    answers with an empty list while the message is there. -/
theorem push_in_between_missed :
    let sys := reached sampleConfig
      [.request "bob" none 1000, .query 0 (fun _ => "r1"),
       .push (sampleEnvelope "bob" 1) 3600 sampleConfig.limits, .notify 0,
       .settle 0, .listen 0, .tick 1000, .timeout 0]
    sys.waiters.map (·.phase) = [.answered []] ∧ sys.has "bob" = true := by
  decide +kernel

end Nexum.Mailbox
