import Mathlib.Data.Set.Insert
import Mathlib.Tactic.Common

/-!
# Leases and one-time tickets

Any number of workers share a table of *keys*. A worker inserts a key to work on it, which only
one worker can do; it then takes a one-time *ticket*, which nobody can take twice; and with both
in hand it may make one *use* of some resource. A use that succeeded is an answer, and the key
is then marked as finished. A worker without an answer may also remove its key again, after which
anybody may insert it anew. A worker may vanish at any point and leave its key behind.

The point of the discipline is what it says about the resource: **for every key at most one use
succeeds, and every ticket is used at most once** — although keys come and go, and although a
worker that holds a key can be interrupted anywhere. `Safe` is the invariant that carries this.
-/

namespace Nexum.Lib

variable {K T : Type}

/-- What a worker has in hand. -/
inductive Hold (K T : Type)
  | nothing
  | has (k : K)
  | ready (k : K) (t : T)
  | spent (k : K)
  | answered (k : K)

namespace Hold

/-- The key in hand. -/
def key : Hold K T → Option K
  | nothing => none
  | has k | ready k _ | spent k | answered k => some k

/-- The key in hand, as long as there is no answer for it. -/
def pending : Hold K T → Option K
  | has k | ready k _ | spent k => some k
  | nothing | answered _ => none

/-- The ticket in hand, not used yet. -/
def ticket : Hold K T → Option T
  | ready _ t => some t
  | _ => none

theorem key_of_pending {h : Hold K T} {k : K} (hp : h.pending = some k) : h.key = some k := by
  cases h <;> simp_all [pending, key]

end Hold

/-- The shared table (`some true` for a finished key), the tickets taken, what each worker has
    in hand, and the uses made so far: successful ones by key, all of them by ticket. -/
structure Lease (K T : Type) where
  row : K → Option Bool
  taken : Set T
  hold : Nat → Hold K T
  answers : K → Nat
  uses : T → Nat

namespace Lease

variable [DecidableEq K] [DecidableEq T]

/-- One step of the worker `i`. -/
inductive Step (s : Lease K T) (i : Nat) : Lease K T → Prop
  | insert {k : K} (hi : s.hold i = .nothing) (hk : s.row k = none) :
      Step s i { s with
        row := Function.update s.row k (some false), hold := Function.update s.hold i (.has k) }
  | take {k : K} {t : T} (hi : s.hold i = .has k) (ht : t ∉ s.taken) :
      Step s i { s with
        taken := insert t s.taken, hold := Function.update s.hold i (.ready k t) }
  /-- A ticket may also be taken and thrown away. -/
  | waste {t : T} (ht : t ∉ s.taken) : Step s i { s with taken := insert t s.taken }
  | answer {k : K} {t : T} (hi : s.hold i = .ready k t) :
      Step s i { s with
        hold := Function.update s.hold i (.answered k)
        answers := Function.update s.answers k (s.answers k + 1)
        uses := Function.update s.uses t (s.uses t + 1) }
  | refusal {k : K} {t : T} (hi : s.hold i = .ready k t) :
      Step s i { s with
        hold := Function.update s.hold i (.spent k)
        uses := Function.update s.uses t (s.uses t + 1) }
  | remove {k : K} (hi : (s.hold i).pending = some k) :
      Step s i { s with
        row := Function.update s.row k none, hold := Function.update s.hold i .nothing }
  | finish {k : K} (hi : s.hold i = .answered k) :
      Step s i { s with
        row := Function.update s.row k (some true), hold := Function.update s.hold i .nothing }
  /-- Whatever is in hand is let go of, and stays behind in the table. -/
  | vanish : Step s i { s with hold := Function.update s.hold i .nothing }

/-- The invariant. A key in hand is in the table and in no other hand; as long as there is no
    answer for it in hand, there has never been one. The same for tickets and their uses. -/
structure Safe (s : Lease K T) : Prop where
  owned : ∀ {i k}, (s.hold i).key = some k → s.row k = some false
  apart : ∀ {i j k}, (s.hold i).key = some k → (s.hold j).key = some k → i = j
  unanswered : ∀ {i k}, (s.hold i).pending = some k → s.answers k = 0
  kept : ∀ {k}, s.answers k ≠ 0 → s.row k ≠ none
  once : ∀ k, s.answers k ≤ 1
  ticketTaken : ∀ {i t}, (s.hold i).ticket = some t → t ∈ s.taken ∧ s.uses t = 0
  ticketApart : ∀ {i j t}, (s.hold i).ticket = some t → (s.hold j).ticket = some t → i = j
  usedTaken : ∀ {t}, s.uses t ≠ 0 → t ∈ s.taken
  usedOnce : ∀ t, s.uses t ≤ 1

attribute [local grind =] Hold.key Hold.pending Hold.ticket Function.update_apply
attribute [local grind →] Hold.key_of_pending

/-- **Every step keeps the invariant.** -/
theorem Step.safe {s s' : Lease K T} {i : Nat} (h : Step s i s') (hs : Safe s) : Safe s' := by
  obtain ⟨owned, apart, unanswered, kept, once, ticketTaken, ticketApart, usedTaken, usedOnce⟩ :=
    hs
  cases h with
  | @insert k hi hk =>
    -- a key that is not in the table is in no hand, and was never answered
    have hfree : ∀ j, (s.hold j).key ≠ some k := by
      intro j hj
      rw [owned hj] at hk
      exact absurd hk (by simp)
    have hnever : s.answers k = 0 := by
      by_contra hne
      exact kept hne hk
    constructor <;> grind
  | @take k t hi ht =>
    -- a ticket nobody has taken is in no hand, and was never used
    have hfree : ∀ j, (s.hold j).ticket ≠ some t := fun j hj => ht (ticketTaken hj).1
    have hnever : s.uses t = 0 := by
      by_contra hne
      exact ht (usedTaken hne)
    constructor <;> grind
  | waste ht => constructor <;> grind
  | @answer k t hi =>
    -- the first answer for the key, and the first use of the ticket
    have hk : s.answers k = 0 := unanswered (i := i) (by rw [hi]; rfl)
    have hrow : s.row k = some false := owned (i := i) (by rw [hi]; rfl)
    have ht : t ∈ s.taken ∧ s.uses t = 0 := ticketTaken (i := i) (by rw [hi]; rfl)
    constructor <;> grind
  | @refusal k t hi =>
    have ht : t ∈ s.taken ∧ s.uses t = 0 := ticketTaken (i := i) (by rw [hi]; rfl)
    constructor <;> grind
  | @remove k hi =>
    -- only a key without an answer is removed
    have hk : s.answers k = 0 := unanswered hi
    have hheld : (s.hold i).key = some k := Hold.key_of_pending hi
    constructor <;> grind
  | @finish k hi =>
    have hheld : (s.hold i).key = some k := by rw [hi]; rfl
    constructor <;> grind
  | vanish => constructor <;> grind

end Lease

/-- What is counted at most once in a history is one event: how two uses of one ticket that are
    found in a history come to be the same use. -/
theorem eq_of_countP_le_one {α : Type} {p : α → Bool} {l : List α} (h : l.countP p ≤ 1) {x y : α}
    (hx : x ∈ l) (hy : y ∈ l) (hpx : p x = true) (hpy : p y = true) : x = y := by
  have hx := List.mem_filter.mpr ⟨hx, hpx⟩
  have hy := List.mem_filter.mpr ⟨hy, hpy⟩
  rw [List.countP_eq_length_filter] at h
  obtain ⟨z, hz⟩ := List.length_eq_one_iff.mp (Nat.le_antisymm h (List.length_pos_of_mem hx))
  rw [hz, List.mem_singleton] at hx hy
  rw [hx, hy]

end Nexum.Lib
