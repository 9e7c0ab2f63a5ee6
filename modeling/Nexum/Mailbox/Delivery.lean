import Nexum.Mailbox.Db
import Mathlib.Data.List.Nodup

/-!
# Delivery

What the mailbox promises is about its whole past. Two things are noted down along a history and
kept nowhere in the table: the messages that were **accepted**, in the order they were pushed, and
the **leases** that were given out. The table is tied to them by `Kept`: its rows are some of the
accepted messages, in that order, and the lease a row shows is the last one that was given for it.

From there the promises are short. Leases of one message do not overlap, since a row is selected
only when its last lease is over; a receipt removes a row only while it is the receipt of its last
lease; and the selection of a pull is the first part of what waits.
-/

namespace Nexum.Mailbox

open Nexum.Lib Nexum.Transport

/-! ## 1. What is noted down -/

structure Lease where
  id : Nat
  inbox : String
  receipt : String
  start : Int
  until_ : Int
  deriving DecidableEq

/-- The leases a call gives out. -/
def Call.leases (db : Db) : Call → List Lease
  | .pull now inbox max leaseSecs draw =>
    ((db.prune now).drawn inbox now max draw).map fun given =>
      ⟨given.2.id, given.2.toId, given.1, now, satAddI64 now (spanMs leaseSecs)⟩
  | _ => []

/-- The answer of a push that was accepted without dedup. -/
def isAccepted : Except String PushResult → Bool
  | .ok ⟨false, none⟩ => true
  | _ => false

/-- The message a call puts into the mailbox, under its id. -/
def Call.accepts (db : Db) : Call → List (Nat × NxmsEnvelope)
  | .push now env ttlSecs limits =>
    if isAccepted (pushSync now env ttlSecs limits db).1 then [(db.nextId, env)] else []
  | _ => []

def leases (calls : List Call) : List Lease := mailbox.collect Call.leases .empty calls

def accepted (calls : List Call) : List (Nat × NxmsEnvelope) :=
  mailbox.collect Call.accepts .empty calls

/-- The last lease of a message. -/
def lastLease (ls : List Lease) (id : Nat) : Option Lease := (ls.filter (·.id = id)).getLast?

def latest (calls : List Call) (id : Nat) : Option Lease := lastLease (leases calls) id

/-- The message is stored for the inbox, has not expired, and every lease of it is over. -/
def waiting (calls : List Call) (inbox : String) (now : Int) (m : Nat × NxmsEnvelope) : Bool :=
  (stored calls).rows.any (fun row => row.id = m.1 && row.toId = inbox && now < row.expiresAtMs)
    && (leases calls).all fun l => l.id = m.1 → l.until_ < now

theorem stored_snoc (calls : List Call) (call : Call) :
    stored (calls ++ [call]) = (mailbox.serve (stored calls) call).2 := by
  unfold stored
  rw [Server.after_snoc]

theorem leases_snoc (calls : List Call) (call : Call) :
    leases (calls ++ [call]) = leases calls ++ call.leases (stored calls) := by
  unfold leases stored
  rw [Server.collect_snoc]

theorem accepted_snoc (calls : List Call) (call : Call) :
    accepted (calls ++ [call]) = accepted calls ++ call.accepts (stored calls) := by
  unfold accepted stored
  rw [Server.collect_snoc]

theorem mem_of_lastLease {ls : List Lease} {id : Nat} {l : Lease} (h : lastLease ls id = some l) :
    l ∈ ls ∧ l.id = id := by
  have hmem := List.mem_of_getLast? h
  simpa using hmem

theorem lastLease_append (ls new : List Lease) (id : Nat) :
    lastLease (ls ++ new) id = (lastLease new id).or (lastLease ls id) := by
  unfold lastLease
  rw [List.filter_append, List.getLast?_append]

theorem lastLease_eq_none {ls : List Lease} {id : Nat} (h : ∀ l ∈ ls, l.id ≠ id) :
    lastLease ls id = none := by
  unfold lastLease
  rw [List.filter_eq_nil_iff.mpr (by simpa using h)]
  rfl

/-! ## 2. What a call does to the rows -/

/-- A row without its lease. -/
def Row.content (row : Row) : Row := { row with leaseId := none, leaseUntilMs := none }

/-- The row after the updates of a pull. -/
def Row.leased (drawn : List (String × Row)) (until_ : Int) (row : Row) : Row :=
  drawn.foldl (fun row given => if row.id = given.2.id then
    { row with leaseId := some given.1, leaseUntilMs := some until_ } else row) row

theorem rows_foldl_lease (drawn : List (String × Row)) (until_ : Int) (db : Db) :
    drawn.foldl (fun db given => db.lease given.2.id given.1 until_) db
      = { db with rows := db.rows.map (Row.leased drawn until_) } := by
  induction drawn generalizing db with
  | nil =>
    have hid : Row.leased [] until_ = id := rfl
    rw [hid, List.map_id]
    rfl
  | cons given drawn ih =>
    rw [List.foldl_cons, ih]
    simp only [Db.lease, List.map_map]
    rfl

theorem content_leased (drawn : List (String × Row)) (until_ : Int) (row : Row) :
    (row.leased drawn until_).content = row.content := by
  unfold Row.leased
  induction drawn generalizing row with
  | nil => rfl
  | cons given drawn ih =>
    rw [List.foldl_cons, ih]
    split <;> rfl

@[simp] theorem leased_id (drawn : List (String × Row)) (until_ : Int) (row : Row) :
    (row.leased drawn until_).id = row.id := by
  have h := congrArg Row.id (content_leased drawn until_ row)
  exact h

@[simp] theorem leased_toId (drawn : List (String × Row)) (until_ : Int) (row : Row) :
    (row.leased drawn until_).toId = row.toId := by
  have h := congrArg Row.toId (content_leased drawn until_ row)
  exact h

@[simp] theorem leased_envelope (drawn : List (String × Row)) (until_ : Int) (row : Row) :
    (row.leased drawn until_).envelope = row.envelope := by
  have h := congrArg Row.envelope (content_leased drawn until_ row)
  exact h

theorem lease_leased (drawn : List (String × Row)) (until_ : Int) (row : Row) :
    ((row.leased drawn until_).leaseId, (row.leased drawn until_).leaseUntilMs) =
      match (drawn.filter (·.2.id = row.id)).getLast? with
      | some given => (some given.1, some until_)
      | none => (row.leaseId, row.leaseUntilMs) := by
  induction drawn using List.reverseRecOn with
  | nil => rfl
  | append_singleton drawn given ih =>
    have hid := leased_id drawn until_ row
    have hstep : row.leased (drawn ++ [given]) until_ = if row.id = given.2.id then
        { row.leased drawn until_ with leaseId := some given.1, leaseUntilMs := some until_ }
        else row.leased drawn until_ := by
      rw [← hid]
      unfold Row.leased
      rw [List.foldl_append, List.foldl_cons, List.foldl_nil]
    rw [hstep, List.filter_append, List.getLast?_append]
    by_cases h : row.id = given.2.id
    · simp [h]
    · rw [if_neg h, ih]
      have hne : given.2.id ≠ row.id := fun h' => h h'.symm
      simp [hne]

/-! ## 3. The table and the past -/

structure Kept (ls : List Lease) (acc : List (Nat × NxmsEnvelope)) (db : Db) : Prop where
  listed : (db.rows.map fun row => (row.id, row.envelope)).Sublist acc
  ids : acc.Pairwise fun m m' => m.1 < m'.1
  bound : ∀ m ∈ acc, m.1 < db.nextId
  leased : ∀ l ∈ ls, l.id < db.nextId
  addressed : ∀ row ∈ db.rows, row.toId = row.envelope.to_
  receipt : ∀ row ∈ db.rows, row.leaseId = (lastLease ls row.id).map (·.receipt)
  until_ : ∀ row ∈ db.rows, row.leaseUntilMs = (lastLease ls row.id).map (·.until_)
  inbox : ∀ row ∈ db.rows, ∀ l ∈ ls, l.id = row.id → l.inbox = row.toId
  apart : ls.Pairwise fun l l' => l.id = l'.id → l.until_ < l'.start

section
variable {ls : List Lease} {acc : List (Nat × NxmsEnvelope)} {db : Db}

theorem kept_empty : Kept [] [] .empty where
  listed := List.Sublist.refl []
  ids := List.Pairwise.nil
  bound := List.forall_mem_nil _
  leased := List.forall_mem_nil _
  addressed := List.forall_mem_nil _
  receipt := List.forall_mem_nil _
  until_ := List.forall_mem_nil _
  inbox := List.forall_mem_nil _
  apart := List.Pairwise.nil

theorem Kept.sublist (h : Kept ls acc db) {rows : List Row} (hrows : rows.Sublist db.rows) :
    Kept ls acc { db with rows := rows } where
  listed := (hrows.map _).trans h.listed
  ids := h.ids
  bound := h.bound
  leased := h.leased
  addressed row hrow := h.addressed row (hrows.subset hrow)
  receipt row hrow := h.receipt row (hrows.subset hrow)
  until_ row hrow := h.until_ row (hrows.subset hrow)
  inbox row hrow := h.inbox row (hrows.subset hrow)
  apart := h.apart

theorem Kept.push (h : Kept ls acc db) (row : Row) (hid : row.id = db.nextId)
    (haddressed : row.toId = row.envelope.to_) (hreceipt : row.leaseId = none)
    (huntil : row.leaseUntilMs = none) :
    Kept ls (acc ++ [(db.nextId, row.envelope)]) ⟨db.rows ++ [row], db.nextId + 1⟩ := by
  have hfresh : lastLease ls row.id = none := by
    apply lastLease_eq_none
    intro l hl heq
    have hlt := h.leased l hl
    omega
  refine ⟨?_, ?_, ?_, ?_, ?_, ?_, ?_, ?_, h.apart⟩
  · rw [List.map_append, List.map_singleton, hid]
    exact h.listed.append (List.Sublist.refl _)
  · refine List.pairwise_append.mpr ⟨h.ids, List.pairwise_singleton .., ?_⟩
    intro m hm m' hm'
    obtain rfl := List.mem_singleton.mp hm'
    exact h.bound m hm
  · intro m hm
    rcases List.mem_append.mp hm with hm | hm
    · exact Nat.lt_succ_of_lt (h.bound m hm)
    · obtain rfl := List.mem_singleton.mp hm
      exact Nat.lt_succ_self _
  · intro l hl
    exact Nat.lt_succ_of_lt (h.leased l hl)
  · intro r hr
    rcases List.mem_append.mp hr with hr | hr
    · exact h.addressed r hr
    · obtain rfl := List.mem_singleton.mp hr
      exact haddressed
  · intro r hr
    rcases List.mem_append.mp hr with hr | hr
    · exact h.receipt r hr
    · obtain rfl := List.mem_singleton.mp hr
      rw [hreceipt, hfresh]
      rfl
  · intro r hr
    rcases List.mem_append.mp hr with hr | hr
    · exact h.until_ r hr
    · obtain rfl := List.mem_singleton.mp hr
      rw [huntil, hfresh]
      rfl
  · intro r hr l hl heq
    rcases List.mem_append.mp hr with hr | hr
    · exact h.inbox r hr l hl heq
    · obtain rfl := List.mem_singleton.mp hr
      have hlt := h.leased l hl
      omega

theorem Kept.ended (h : Kept ls acc db) {row : Row} (hrow : row ∈ db.rows) {now : Int}
    (hstart : ∀ l ∈ ls, l.start ≤ now) :
    row.leaseUntilMs.all (· < now) = true ↔ ∀ l ∈ ls, l.id = row.id → l.until_ < now := by
  rw [h.until_ row hrow]
  constructor
  · intro hlast l hl hid
    -- either `l` is the last one, or the last one started after `l` was over
    have hmem : l ∈ ls.filter (·.id = row.id) := List.mem_filter.mpr ⟨hl, by simpa using hid⟩
    obtain ⟨init, last, hsplit⟩ : ∃ init last, ls.filter (·.id = row.id) = init ++ [last] :=
      ⟨_, _, (List.dropLast_append_getLast (List.ne_nil_of_mem hmem)).symm⟩
    have hlastlease : lastLease ls row.id = some last := by
      rw [lastLease, hsplit, List.getLast?_concat]
    rw [hlastlease] at hlast
    have hover : last.until_ < now := by simpa using hlast
    rw [hsplit] at hmem
    rcases List.mem_append.mp hmem with hinit | hsame
    · have hapart := (h.apart.filter (fun l => l.id = row.id))
      rw [hsplit, List.pairwise_append] at hapart
      obtain ⟨hlast', hlastid⟩ := mem_of_lastLease hlastlease
      have hbefore := hapart.2.2 l hinit last (List.mem_singleton.mpr rfl) (hid.trans hlastid.symm)
      exact Int.lt_of_lt_of_le hbefore (hstart last hlast')
    · obtain rfl := List.mem_singleton.mp hsame
      exact hover
  · intro hall
    cases hlast : lastLease ls row.id with
    | none => rfl
    | some l =>
      obtain ⟨hl, hid⟩ := mem_of_lastLease hlast
      simpa using hall l hl hid

theorem Kept.ordered (h : Kept ls acc db) : db.rows.Pairwise fun row row' => row.id < row'.id := by
  have hpairs : (db.rows.map fun row => (row.id, row.envelope)).Pairwise fun m m' => m.1 < m'.1 :=
    h.ids.sublist h.listed
  rw [List.pairwise_map] at hpairs
  exact hpairs

theorem eq_of_id {rows : List Row} (h : rows.Pairwise fun row row' => row.id < row'.id)
    {row row' : Row} (hrow : row ∈ rows) (hrow' : row' ∈ rows) (hid : row.id = row'.id) :
    row = row' := by
  have hnodup : (rows.map Row.id).Nodup :=
    List.pairwise_map.mpr (h.imp fun hlt => Nat.ne_of_lt hlt)
  exact List.inj_on_of_nodup_map hnodup hrow hrow' hid

/-- The lease that is given with a receipt. -/
def leaseOf (now until_ : Int) (given : String × Row) : Lease :=
  ⟨given.2.id, given.2.toId, given.1, now, until_⟩

theorem lastLease_map (drawn : List (String × Row)) (now until_ : Int) (id : Nat) :
    lastLease (drawn.map (leaseOf now until_)) id =
      ((drawn.filter (·.2.id = id)).getLast?).map (leaseOf now until_) := by
  unfold lastLease
  rw [List.filter_map, List.getLast?_map]
  rfl

/-- **The leases of a pull.** They are on different rows, and every earlier lease of such a row is
    over. -/
theorem Kept.pull (h : Kept ls acc db) (drawn : List (String × Row)) (now until_ : Int)
    (hdrawn : (drawn.map Prod.snd).Sublist db.rows)
    (havailable : ∀ given ∈ drawn, given.2.leaseUntilMs.all (· < now) = true)
    (hstart : ∀ l ∈ ls, l.start ≤ now) :
    Kept (ls ++ drawn.map (leaseOf now until_)) acc
      { db with rows := db.rows.map (Row.leased drawn until_) } := by
  have hmem : ∀ given ∈ drawn, given.2 ∈ db.rows := fun given hgiven =>
    hdrawn.subset (List.mem_map.mpr ⟨given, hgiven, rfl⟩)
  have hlast : ∀ row : Row, lastLease (ls ++ drawn.map (leaseOf now until_)) row.id =
      (((drawn.filter (·.2.id = row.id)).getLast?).map (leaseOf now until_)).or
        (lastLease ls row.id) := by
    intro row
    rw [lastLease_append, lastLease_map]
  refine ⟨?_, h.ids, h.bound, ?_, ?_, ?_, ?_, ?_, ?_⟩
  · rw [List.map_map]
    have hsame : ((fun row : Row => (row.id, row.envelope)) ∘ Row.leased drawn until_)
        = fun row => (row.id, row.envelope) := by
      funext row
      simp
    rw [hsame]
    exact h.listed
  · intro l hl
    rcases List.mem_append.mp hl with hl | hl
    · exact h.leased l hl
    · obtain ⟨given, hgiven, rfl⟩ := List.mem_map.mp hl
      exact h.bound _ (h.listed.subset (List.mem_map.mpr ⟨given.2, hmem given hgiven, rfl⟩))
  · intro r hr
    obtain ⟨row, hrow, rfl⟩ := List.mem_map.mp hr
    rw [leased_toId, leased_envelope]
    exact h.addressed row hrow
  · intro r hr
    obtain ⟨row, hrow, rfl⟩ := List.mem_map.mp hr
    rw [leased_id, hlast row]
    have hlease := congrArg Prod.fst (lease_leased drawn until_ row)
    cases hgiven : (drawn.filter (·.2.id = row.id)).getLast? with
    | some given =>
      rw [hgiven] at hlease
      exact hlease
    | none =>
      rw [hgiven] at hlease
      exact hlease.trans (h.receipt row hrow)
  · intro r hr
    obtain ⟨row, hrow, rfl⟩ := List.mem_map.mp hr
    rw [leased_id, hlast row]
    have hlease := congrArg Prod.snd (lease_leased drawn until_ row)
    cases hgiven : (drawn.filter (·.2.id = row.id)).getLast? with
    | some given =>
      rw [hgiven] at hlease
      exact hlease
    | none =>
      rw [hgiven] at hlease
      exact hlease.trans (h.until_ row hrow)
  · intro r hr l hl hid
    obtain ⟨row, hrow, rfl⟩ := List.mem_map.mp hr
    rw [leased_id] at hid
    rw [leased_toId]
    rcases List.mem_append.mp hl with hl | hl
    · exact h.inbox row hrow l hl hid
    · obtain ⟨given, hgiven, rfl⟩ := List.mem_map.mp hl
      show given.2.toId = row.toId
      rw [eq_of_id h.ordered (hmem given hgiven) hrow hid]
  · refine List.pairwise_append.mpr ⟨h.apart, ?_, ?_⟩
    · refine List.pairwise_map.mpr ?_
      have hpairs := h.ordered.sublist hdrawn
      rw [List.pairwise_map] at hpairs
      refine hpairs.imp ?_
      intro given given' hlt heq
      have hid : given.2.id = given'.2.id := heq
      omega
    · intro l hl l' hl' hid
      obtain ⟨given, hgiven, rfl⟩ := List.mem_map.mp hl'
      exact (h.ended (hmem given hgiven) hstart).mp (havailable given hgiven) l hl hid

end

/-! ## 4. Along a history -/

theorem drawn_snd (db : Db) (inbox : String) (now : Int) (max : Nat) (draw : Nat → String) :
    (db.drawn inbox now max draw).map Prod.snd = db.selected inbox now max := by
  unfold Db.drawn
  apply List.ext_getElem
  · simp
  · intro k hk hk'
    simp

theorem mem_selected_of_drawn {db : Db} {inbox : String} {now : Int} {max : Nat}
    {draw : Nat → String} {given : String × Row} (h : given ∈ db.drawn inbox now max draw) :
    given.2 ∈ db.rows ∧ given.2.available inbox now = true := by
  have hsel : given.2 ∈ db.selected inbox now max := by
    rw [← drawn_snd db inbox now max draw]
    exact List.mem_map.mpr ⟨given, h, rfl⟩
  exact List.mem_filter.mp (List.mem_of_mem_take hsel)

theorem prune_sublist (db : Db) (now : Int) : (db.prune now).rows.Sublist db.rows :=
  List.filter_sublist

theorem Kept.prune {ls : List Lease} {acc : List (Nat × NxmsEnvelope)} {db : Db}
    (h : Kept ls acc db) (now : Int) : Kept ls acc (db.prune now) :=
  h.sublist (prune_sublist db now)

theorem serve_push (db : Db) (now : Int) (env : NxmsEnvelope) (ttlSecs : Nat)
    (limits : MailboxLimits) :
    mailbox.serve db (.push now env ttlSecs limits) =
      (.pushed (pushSync now env ttlSecs limits db).1, (pushSync now env ttlSecs limits db).2) := by
  simp only [mailbox]

theorem serve_pull (db : Db) (now : Int) (inbox : String) (max leaseSecs : Nat)
    (draw : Nat → String) :
    (mailbox.serve db (.pull now inbox max leaseSecs draw)).2 =
      (pullSync now inbox max leaseSecs draw db).2 := by
  simp only [mailbox]

theorem serve_pull_rows (db : Db) (now : Int) (inbox : String) (max leaseSecs : Nat)
    (draw : Nat → String) :
    (mailbox.serve db (.pull now inbox max leaseSecs draw)).2 =
      { db.prune now with
        rows := (db.prune now).rows.map (Row.leased ((db.prune now).drawn inbox now max draw)
          (satAddI64 now (spanMs leaseSecs))) } :=
  rows_foldl_lease _ _ _

/-- The clock does not go back. -/
def Timely (calls : List Call) : Prop := calls.Pairwise fun call call' => call.now ≤ call'.now

theorem Timely.past {calls : List Call} {call : Call} (h : Timely (calls ++ [call])) :
    Timely calls :=
  h.sublist (List.sublist_append_left calls [call])

theorem start_of_lease (calls : List Call) :
    ∀ l ∈ leases calls, ∃ call ∈ calls, call.now = l.start := by
  induction calls using List.reverseRecOn with
  | nil => exact List.forall_mem_nil _
  | append_singleton calls call ih =>
    intro l hl
    rw [leases_snoc] at hl
    rcases List.mem_append.mp hl with hl | hl
    · obtain ⟨past, hpast, hnow⟩ := ih l hl
      exact ⟨past, List.mem_append_left _ hpast, hnow⟩
    · cases call with
      | pull now inbox max leaseSecs draw =>
        obtain ⟨given, -, rfl⟩ := List.mem_map.mp hl
        exact ⟨_, List.mem_append_right _ (List.mem_singleton.mpr rfl), rfl⟩
      | push now env ttlSecs limits => exact absurd hl List.not_mem_nil
      | ack now receipt inbox => exact absurd hl List.not_mem_nil
      | cleanup now => exact absurd hl List.not_mem_nil

theorem Timely.start_le {calls : List Call} {call : Call} (h : Timely (calls ++ [call])) :
    ∀ l ∈ leases calls, l.start ≤ call.now := by
  intro l hl
  obtain ⟨past, hpast, hnow⟩ := start_of_lease calls l hl
  rw [← hnow]
  exact (List.pairwise_append.mp h).2.2 past hpast call (List.mem_singleton.mpr rfl)

/-- **The table and the past agree**, as long as the clock does not go back. -/
theorem kept (calls : List Call) (h : Timely calls) :
    Kept (leases calls) (accepted calls) (stored calls) := by
  refine history_induction (P := fun calls => Kept (leases calls) (accepted calls) (stored calls))
    (fun _ _ => Timely.past) kept_empty ?_ calls h
  intro calls call htimely ih
  show Kept (leases (calls ++ [call])) (accepted (calls ++ [call])) (stored (calls ++ [call]))
  rw [leases_snoc, accepted_snoc, stored_snoc]
  cases call with
  | push now env ttlSecs limits =>
    have hspec := pushSync_spec now env ttlSecs limits (stored calls)
    rw [serve_push]
    simp only [Call.leases, Call.accepts, List.append_nil]
    generalize pushSync now env ttlSecs limits (stored calls) = out at hspec ⊢
    obtain ⟨result, db⟩ := out
    simp only at hspec ⊢
    cases hspec with
    | failed e => simpa [isAccepted] using ih
    | dedup hlength hrow hkey => simpa [isAccepted] using ih.prune now
    | refused reason => simpa [isAccepted] using ih.prune now
    | stored hfree hlength hglobal hsum hinbox hbytes =>
      exact (ih.prune now).push { rowOf env now ttlSecs with id := (stored calls).nextId }
        rfl rfl rfl rfl
  | pull now inbox max leaseSecs draw =>
    rw [serve_pull_rows]
    show Kept _ (accepted calls ++ []) _
    rw [List.append_nil]
    refine (ih.prune now).pull _ now _ ?_ ?_ htimely.start_le
    · rw [drawn_snd]
      exact (List.take_sublist _ _).trans List.filter_sublist
    · intro given hgiven
      have havailable := (mem_selected_of_drawn hgiven).2
      simp only [Row.available, Bool.and_eq_true] at havailable
      exact havailable.2
  | ack now receipt inbox =>
    show Kept (leases calls ++ []) (accepted calls ++ []) (ackSync receipt inbox (stored calls)).2
    rw [List.append_nil, List.append_nil]
    exact ih.sublist List.filter_sublist
  | cleanup now =>
    show Kept (leases calls ++ []) (accepted calls ++ []) ((stored calls).prune now)
    rw [List.append_nil, List.append_nil]
    exact ih.prune now

/-! ## 5. The promises -/

/-- A message may go: it has expired, or its inbox acknowledges the receipt of its last lease. -/
def MayGo (calls : List Call) (call : Call) (id : Nat) (inbox : String) (expiry : Int) : Prop :=
  expiry ≤ call.now ∨
    ∃ now l, call = .ack now l.receipt inbox ∧ latest calls id = some l

/-- **One call.** A row stays, whatever becomes of its lease, unless it may go. -/
theorem stays {calls : List Call} (hkept : Kept (leases calls) (accepted calls) (stored calls))
    (call : Call) {row : Row} (hrow : row ∈ (stored calls).rows) :
    (∃ row' ∈ (stored (calls ++ [call])).rows, row'.content = row.content) ∨
      MayGo calls call row.id row.toId row.expiresAtMs := by
  by_cases hexpired : row.expiresAtMs ≤ call.now
  · exact .inr (.inl hexpired)
  have hprune : row ∈ ((stored calls).prune call.now).rows :=
    List.mem_filter.mpr ⟨hrow, by simpa using hexpired⟩
  rw [stored_snoc]
  cases call with
  | push now env ttlSecs limits =>
    refine .inl ⟨row, ?_, rfl⟩
    have hspec := pushSync_spec now env ttlSecs limits (stored calls)
    rw [serve_push]
    generalize pushSync now env ttlSecs limits (stored calls) = out at hspec ⊢
    obtain ⟨result, db⟩ := out
    simp only at hspec ⊢
    cases hspec with
    | failed e => exact hrow
    | dedup hlength _ hkey => exact hprune
    | refused reason => exact hprune
    | stored _ hlength hglobal hsum hinbox hbytes => exact List.mem_append_left _ hprune
  | pull now inbox max leaseSecs draw =>
    rw [serve_pull_rows]
    exact .inl ⟨_, List.mem_map.mpr ⟨row, hprune, rfl⟩, content_leased _ _ row⟩
  | ack now receipt inbox =>
    by_cases hacked : row.acked receipt inbox = true
    · right
      right
      simp only [Row.acked, Bool.and_eq_true, decide_eq_true_eq] at hacked
      obtain ⟨hreceipt, hinbox⟩ := hacked
      rw [hkept.receipt row hrow] at hreceipt
      obtain ⟨l, hlast, hl⟩ := Option.map_eq_some_iff.mp hreceipt
      exact ⟨now, l, by rw [hl, hinbox], hlast⟩
    · exact .inl ⟨row, List.mem_filter.mpr ⟨hrow, by simpa using hacked⟩, rfl⟩
  | cleanup now => exact .inl ⟨row, hprune, rfl⟩

/-- **Until it may go.** A row is in every table of the future, or some call took it that was
    allowed to. -/
theorem stays_until (before after : List Call) (htimely : Timely (before ++ after)) {row : Row}
    (hrow : row ∈ (stored before).rows) :
    (∃ row' ∈ (stored (before ++ after)).rows, row'.content = row.content) ∨
      ∃ mid call later, after = mid ++ call :: later ∧
        MayGo (before ++ mid) call row.id row.toId row.expiresAtMs := by
  induction after using List.reverseRecOn with
  | nil =>
    rw [List.append_nil]
    exact .inl ⟨row, hrow, rfl⟩
  | append_singleton after call ih =>
    rw [← List.append_assoc] at htimely ⊢
    rcases ih htimely.past with ⟨found, hfound, hcontent⟩ | ⟨mid, taker, later, hsplit, hgo⟩
    · have hid : found.id = row.id := by
        have h := congrArg Row.id hcontent
        exact h
      have hinbox : found.toId = row.toId := by
        have h := congrArg Row.toId hcontent
        exact h
      have hexpiry : found.expiresAtMs = row.expiresAtMs := by
        have h := congrArg Row.expiresAtMs hcontent
        exact h
      rcases stays (kept _ htimely.past) call hfound with ⟨next, hnext, hsame⟩ | hgo
      · exact .inl ⟨next, hnext, hsame.trans hcontent⟩
      · rw [hid, hinbox, hexpiry] at hgo
        exact .inr ⟨after, call, [], rfl, hgo⟩
    · refine .inr ⟨mid, taker, later ++ [call], ?_, hgo⟩
      rw [hsplit, List.append_assoc]
      rfl

theorem stored_of_accepted (calls : List Call) (now : Int) (env : NxmsEnvelope) (ttlSecs : Nat)
    (limits : MailboxLimits)
    (h : isAccepted (pushSync now env ttlSecs limits (stored calls)).1 = true) :
    { rowOf env now ttlSecs with id := (stored calls).nextId } ∈
      (stored (calls ++ [.push now env ttlSecs limits])).rows := by
  have hspec := pushSync_spec now env ttlSecs limits (stored calls)
  rw [stored_snoc, serve_push]
  generalize pushSync now env ttlSecs limits (stored calls) = out at hspec h ⊢
  obtain ⟨result, db⟩ := out
  simp only at hspec h ⊢
  cases hspec with
  | failed e => exact absurd h (by simp [isAccepted])
  | dedup hlength hrow hkey => exact absurd h (by simp [isAccepted])
  | refused reason => exact absurd h (by simp [isAccepted])
  | stored hfree hlength hglobal hsum hinbox hbytes =>
    exact List.mem_append_right _ (List.mem_singleton.mpr rfl)

/-- An ack takes a row only with the receipt of its last lease, and only for its inbox. -/
theorem ack_of_stale {calls : List Call}
    (hkept : Kept (leases calls) (accepted calls) (stored calls))
    (hreceipts : ((leases calls).map (·.receipt)).Nodup) {l : Lease} (hl : l ∈ leases calls)
    {inbox : String} (hstale : latest calls l.id ≠ some l ∨ l.inbox ≠ inbox) (now : Int) :
    stored (calls ++ [.ack now l.receipt inbox]) = stored calls := by
  rw [stored_snoc]
  show (ackSync l.receipt inbox (stored calls)).2 = stored calls
  have hnone : ∀ row ∈ (stored calls).rows, ¬ row.acked l.receipt inbox = true := by
    intro row hrow hacked
    simp only [Row.acked, Bool.and_eq_true, decide_eq_true_eq] at hacked
    obtain ⟨hreceipt, hinbox⟩ := hacked
    rw [hkept.receipt row hrow] at hreceipt
    obtain ⟨last, hlast, hsame⟩ := Option.map_eq_some_iff.mp hreceipt
    obtain ⟨hmem, hid⟩ := mem_of_lastLease hlast
    -- a receipt is drawn once, so the last lease of the row is the one it was drawn for
    obtain rfl := List.inj_on_of_nodup_map hreceipts hmem hl hsame
    rcases hstale with hstale | hstale
    · rw [hid] at hstale
      exact hstale hlast
    · exact hstale ((hkept.inbox row hrow last hl hid).trans hinbox)
  have hrows : (stored calls).rows.filter (fun row => ¬ row.acked l.receipt inbox)
      = (stored calls).rows :=
    List.filter_eq_self.mpr fun row hrow => by simpa using hnone row hrow
  simp only [ackSync, hrows]

theorem filter_waiting {calls : List Call}
    (hkept : Kept (leases calls) (accepted calls) (stored calls)) {now : Int}
    (hstart : ∀ l ∈ leases calls, l.start ≤ now) (inbox : String) :
    (accepted calls).filter (waiting calls inbox now) =
      ((stored calls).rows.filter (·.available inbox now)).map
        fun row => (row.id, row.envelope) := by
  apply filter_eq_of_sublist
  · exact (List.filter_sublist.map _).trans hkept.listed
  · exact hkept.ids.imp fun hlt heq => Nat.ne_of_lt hlt (congrArg Prod.fst heq)
  · intro m hm
    simp only [waiting, Bool.and_eq_true, List.any_eq_true, List.all_eq_true, decide_eq_true_eq,
      List.mem_map, List.mem_filter, Row.available]
    constructor
    · rintro ⟨⟨row, hrow, ⟨hid, hinbox⟩, hexpiry⟩, hover⟩
      refine ⟨row, ⟨hrow, ⟨hinbox, hexpiry⟩, ?_⟩, ?_⟩
      · rw [hkept.ended hrow hstart, hid]
        exact hover
      · -- both are accepted messages, and an id is given once
        have hlisted := hkept.listed.subset (List.mem_map.mpr ⟨row, hrow, rfl⟩)
        have hnodup : ((accepted calls).map Prod.fst).Nodup :=
          List.pairwise_map.mpr (hkept.ids.imp fun hlt => Nat.ne_of_lt hlt)
        exact List.inj_on_of_nodup_map hnodup hlisted hm hid
    · rintro ⟨row, ⟨hrow, ⟨hinbox, hexpiry⟩, hended⟩, rfl⟩
      exact ⟨⟨row, hrow, ⟨rfl, hinbox⟩, hexpiry⟩, (hkept.ended hrow hstart).mp hended⟩

theorem pullSync_waiting {calls : List Call}
    (hkept : Kept (leases calls) (accepted calls) (stored calls)) {now : Int}
    (hstart : ∀ l ∈ leases calls, l.start ≤ now) (inbox : String) (max leaseSecs : Nat)
    (draw : Nat → String) :
    (pullSync now inbox max leaseSecs draw (stored calls)).1.map (·.envelope) =
      (((accepted calls).filter (waiting calls inbox now)).take max).map Prod.snd := by
  have hpruned : ((stored calls).prune now).rows.filter (·.available inbox now)
      = (stored calls).rows.filter (·.available inbox now) := by
    simp only [Db.prune, List.filter_filter]
    apply List.filter_congr
    intro row _
    simp only [Row.available]
    cases decide (now < row.expiresAtMs) <;> simp
  calc (pullSync now inbox max leaseSecs draw (stored calls)).1.map (·.envelope)
      = ((((stored calls).prune now).drawn inbox now max draw).map Prod.snd).map
          (·.envelope) := by
        simp only [pullSync, List.map_map]
        rfl
    _ = (((stored calls).rows.filter (·.available inbox now)).take max).map (·.envelope) := by
        rw [drawn_snd, Db.selected, hpruned]
    _ = (((accepted calls).filter (waiting calls inbox now)).take max).map Prod.snd := by
        rw [filter_waiting hkept hstart, ← List.map_take, List.map_map]
        rfl

theorem receipts_nodup_past {before calls : List Call} (h : before <+: calls)
    (hreceipts : ((leases calls).map (·.receipt)).Nodup) :
    ((leases before).map (·.receipt)).Nodup := by
  obtain ⟨after, rfl⟩ := h
  unfold leases at hreceipts ⊢
  rw [Server.collect_append, List.map_append] at hreceipts
  exact hreceipts.of_append_left

/-- **Delivery.** In every history with a clock that does not go back and receipts that do not
    repeat: an accepted message is stored until it may go; the leases of one message follow each
    other; a receipt that is not of the last lease, or is used for another inbox, removes nothing;
    and a pull gives out the oldest messages that wait, in the order they were pushed. -/
theorem mailbox_delivery (calls : List Call) (htimely : Timely calls)
    (hreceipts : ((leases calls).map (·.receipt)).Nodup) :
    (∀ before now env ttlSecs limits after,
      calls = before ++ [.push now env ttlSecs limits] ++ after →
      isAccepted (pushSync now env ttlSecs limits (stored before)).1 = true →
      (∃ row ∈ (stored calls).rows, row.id = (stored before).nextId ∧ row.envelope = env ∧
        row.toId = env.to_) ∨
      ∃ mid call later, after = mid ++ call :: later ∧
        MayGo (before ++ [.push now env ttlSecs limits] ++ mid) call (stored before).nextId env.to_
          (satAddI64 now (spanMs ttlSecs))) ∧
    ((leases calls).Pairwise fun l l' => l.id = l'.id → l.until_ < l'.start) ∧
    (∀ before now inbox, ∀ l ∈ leases before,
      before ++ [.ack now l.receipt inbox] <+: calls →
      latest before l.id ≠ some l ∨ l.inbox ≠ inbox →
      stored (before ++ [.ack now l.receipt inbox]) = stored before) ∧
    (∀ before now inbox max leaseSecs draw,
      before ++ [.pull now inbox max leaseSecs draw] <+: calls →
      (pullSync now inbox max leaseSecs draw (stored before)).1.map (·.envelope) =
        (((accepted before).filter (waiting before inbox now)).take max).map Prod.snd) := by
  refine ⟨?_, (kept calls htimely).apart, ?_, ?_⟩
  · intro before now env ttlSecs limits after hcalls hanswer
    rw [hcalls] at htimely ⊢
    have hrow := stored_of_accepted before now env ttlSecs limits hanswer
    rcases stays_until _ after htimely hrow with ⟨row, hstored, hcontent⟩ | hgone
    · have hid := congrArg Row.id hcontent
      have henvelope := congrArg Row.envelope hcontent
      have hinbox := congrArg Row.toId hcontent
      exact .inl ⟨row, hstored, hid, henvelope, hinbox⟩
    · exact .inr hgone
  · intro before now inbox l hl hpart hstale
    have hack : Timely (before ++ [.ack now l.receipt inbox]) := htimely.sublist hpart.sublist
    exact ack_of_stale (kept before hack.past)
      (receipts_nodup_past ((List.prefix_append before _).trans hpart) hreceipts) hl hstale now
  · intro before now inbox max leaseSecs draw hpart
    have hpull : Timely (before ++ [.pull now inbox max leaseSecs draw]) :=
      htimely.sublist hpart.sublist
    exact pullSync_waiting (kept before hpull.past) hpull.start_le inbox max leaseSecs draw

/-- A valid envelope. -/
def sampleEnvelope (inbox : String) (seq : Nat) : NxmsEnvelope where
  proto := nxmsProtoV1
  kemId := nxmsWireKemIdV1
  sigId := nxmsWireSigIdV1
  msgType := .txSignReq
  escrowIdHex := "00112233445566778899aabbccddeeff"
  from_ := "alice"
  to_ := inbox
  seq := seq
  kemCtB64 := "a2Vt"
  nonceB64 := "bm9uY2U="
  ciphertextB64 := "Y3Q="
  tagB64 := "dGFn"
  sigB64 := "c2ln"

/-- Two messages; the first is pulled twice and acknowledged with the second receipt. -/
def sampleCalls : List Call :=
  [.push 0 (sampleEnvelope "bob" 1) 3600 ⟨10, 10000, 100⟩,
   .push 5 (sampleEnvelope "bob" 2) 3600 ⟨10, 10000, 100⟩,
   .pull 10 "bob" 1 30 fun _ => "r1",
   .pull 40000 "bob" 1 30 fun _ => "r2",
   .ack 40001 "r1" "bob",
   .ack 40002 "r2" "bob"]

theorem mailbox_delivery_sample :
    Timely sampleCalls ∧ (leases sampleCalls).map (·.receipt) = ["r1", "r2"] ∧
      (leases sampleCalls).Pairwise fun l l' => l.id = l'.id → l.until_ < l'.start := by
  have htimely : Timely sampleCalls := by
    unfold Timely sampleCalls
    simp [Call.now]
  have hreceipts : (leases sampleCalls).map (·.receipt) = ["r1", "r2"] := by decide +kernel
  refine ⟨htimely, hreceipts, (mailbox_delivery sampleCalls htimely ?_).2.1⟩
  rw [hreceipts]
  decide

end Nexum.Mailbox
