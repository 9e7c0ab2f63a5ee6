import Mathlib.Data.List.Count
import Mathlib.Order.Nat

/-!
# Fixed windows

A limiter lets `limit` things through in a window of `width` seconds. The first try opens a window;
the first one at or after its end opens the next. What is let through is not spread evenly, since a
window may be used up at its end and the next one at its beginning; but **no span of `width` seconds
sees more than twice the limit** (`Spread.span`).

The counters of a limiter are kept in a table from which they may be dropped. A counter whose window
is over can be dropped without a trace, since the next try opens a window either way: `Tracks` is
what a table's entry says about the tries of the past, and `Tracks.check` is one try.
-/

namespace Nexum.Lib

structure Counter where
  start : Nat
  count : Nat

/-- The counter a try is held against: a new one if there is none, or if its window is over. -/
def Counter.renew (width now : Nat) : Option Counter → Counter
  | none => ⟨now, 0⟩
  | some c => if width ≤ now - c.start then ⟨now, 0⟩ else c

/-- Whether a try is let through, and the counter after it. -/
def Counter.check (width limit now : Nat) (entry : Option Counter) : Bool × Counter :=
  let c := renew width now entry
  if limit ≤ c.count then (false, c) else (true, { c with count := c.count + 1 })

/-- Where the window begins that the last of these tries was in. -/
def opening (width : Nat) (tries : List Nat) : Option Nat :=
  tries.foldl (fun s t =>
    match s with
    | none => some t
    | some s => if width ≤ t - s then some t else some s) none

/-- How many of the times are in a span, its ends included. -/
def inSpan (first last : Nat) (times : List Nat) : Nat :=
  times.countP fun t => first ≤ t && t ≤ last

/-- **What a counter says of the tries, and of those that were let through**, as of `now`. -/
structure Spread (width limit now : Nat) (c : Counter) (tries passes : List Nat) : Prop where
  begun : c.start ≤ now
  past : ∀ t ∈ tries ++ passes, t ≤ now
  closes : ∀ t ∈ tries ++ passes, t < c.start + width
  opened : opening width tries = some c.start
  tried : c.count = min limit (tries.countP (c.start ≤ ·))
  current : passes.countP (c.start ≤ ·) = c.count
  before : passes.countP (fun t => c.start ≤ t + width && t < c.start) ≤ limit
  span : ∀ first, inSpan first (first + width) passes ≤ 2 * limit

/-- The table's entry is the counter; or it was dropped after its window, or never was there. -/
def Tracks (width limit now : Nat) (entry : Option Counter) (tries passes : List Nat) : Prop :=
  match entry with
  | some c => Spread width limit now c tries passes
  | none => (tries = [] ∧ passes = [])
    ∨ ∃ c, Spread width limit now c tries passes ∧ c.start + width ≤ now

variable {width limit now : Nat} {c : Counter} {tries passes : List Nat}

/-- A span that reaches into the window holds a limit before it, and what is in it. -/
theorem inSpan_le (hbefore : passes.countP
      (fun t => c.start ≤ t + width && t < c.start) ≤ limit) {first : Nat}
    (hfirst : c.start ≤ first + width) :
    inSpan first (first + width) passes ≤ limit + passes.countP (c.start ≤ ·) := by
  have hsplit : inSpan first (first + width) passes
      ≤ passes.countP (fun t => c.start ≤ t + width && t < c.start)
        + passes.countP (c.start ≤ ·) := by
    clear hbefore
    unfold inSpan
    induction passes with
    | nil => simp
    | cons t passes ih =>
      simp only [List.countP_cons, Bool.and_eq_true, decide_eq_true_eq]
      split <;> split <;> split <;> omega
  omega

namespace Spread

theorem later {now' : Nat} (h : Spread width limit now c tries passes) (hle : now ≤ now') :
    Spread width limit now' c tries passes :=
  { h with
    begun := h.begun.trans hle
    past := fun t ht => (h.past t ht).trans hle }

theorem few (h : Spread width limit now c tries passes) : c.count ≤ limit := by
  rw [h.tried]
  exact Nat.min_le_left ..

/-- What a try finds in the window that is open. -/
theorem try_open (h : Spread width limit now c tries passes) (hopen : now < c.start + width)
    {more : List Nat} {count : Nat} (hmore : more = [] ∨ more = [now])
    (hcount : count = c.count + more.length)
    (hlimit : count = min limit (tries.countP (c.start ≤ ·) + 1)) :
    Spread width limit now ⟨c.start, count⟩ (tries ++ [now]) (passes ++ more) := by
  have hbegun := h.begun
  have hle : ∀ t ∈ more, t = now := by
    rcases hmore with rfl | rfl <;> simp
  have hall : ∀ t ∈ (tries ++ [now]) ++ (passes ++ more), t ∈ tries ++ passes ∨ t = now := by
    intro t ht
    simp only [List.mem_append, List.mem_singleton] at ht ⊢
    rcases ht with (ht | ht) | ht | ht
    · exact .inl (.inl ht)
    · exact .inr ht
    · exact .inl (.inr ht)
    · exact .inr (hle t ht)
  have hcurrent : (passes ++ more).countP (c.start ≤ ·) = count := by
    rw [List.countP_append, h.current, hcount]
    rcases hmore with rfl | rfl <;> simp [hbegun]
  have hbefore : (passes ++ more).countP (fun t => c.start ≤ t + width && t < c.start)
      ≤ limit := by
    have hnow : ¬ now < c.start := Nat.not_lt.mpr hbegun
    have hsame := h.before
    rcases hmore with rfl | rfl <;> simpa [List.countP_append, hnow] using hsame
  refine ⟨hbegun, fun t ht => ?_, fun t ht => ?_, ?_, ?_, hcurrent, hbefore, fun first => ?_⟩
  · rcases hall t ht with ht | rfl
    · exact h.past t ht
    · exact le_rfl
  · rcases hall t ht with ht | rfl
    · exact h.closes t ht
    · exact hopen
  · have hin : ¬ width ≤ now - c.start := by omega
    simp only [opening, List.foldl_append, List.foldl_cons, List.foldl_nil]
    rw [show List.foldl _ none tries = some c.start from h.opened]
    simp [hin]
  · rw [hlimit]
    simp [List.countP_append, hbegun]
  · by_cases hfirst : c.start ≤ first + width
    · have hspan := inSpan_le hbefore hfirst
      have hfew : count ≤ limit := hlimit ▸ Nat.min_le_left ..
      omega
    · -- the new try is after the span
      have hout : ¬ now ≤ first + width := by omega
      have hsame : inSpan first (first + width) (passes ++ more)
          = inSpan first (first + width) passes := by
        rcases hmore with rfl | rfl <;> simp [inSpan, List.countP_append, hout]
      rw [hsame]
      exact h.span first

end Spread

theorem opening_snoc (width : Nat) (tries : List Nat) (t : Nat) :
    opening width (tries ++ [t]) = match opening width tries with
      | none => some t
      | some s => if width ≤ t - s then some t else some s := by
  simp only [opening, List.foldl_append, List.foldl_cons, List.foldl_nil]

/-- No window is open: a try opens one, and what was let through lately fits into one window. -/
structure Over (width limit now : Nat) (tries passes : List Nat) : Prop where
  past : ∀ t ∈ tries ++ passes, t < now
  opened : opening width (tries ++ [now]) = some now
  before : passes.countP (fun t => now ≤ t + width && t < now) ≤ limit

theorem Spread.over (h : Spread width limit now c tries passes) (hover : c.start + width ≤ now) :
    Over width limit now tries passes := by
  have hwide : width ≤ now - c.start := by omega
  refine ⟨fun t ht => (h.closes t ht).trans_le hover, ?_, ?_⟩
  · rw [opening_snoc, h.opened]
    exact if_pos hwide
  · have hmono : passes.countP (fun t => now ≤ t + width && t < now)
        ≤ passes.countP (c.start ≤ ·) := by
      refine List.countP_mono_left fun t _ ht => ?_
      simp only [Bool.and_eq_true, decide_eq_true_eq] at ht ⊢
      omega
    exact hmono.trans (h.current.le.trans h.few)

/-- A window that opens with a try; what was let through before is in the window before at most. -/
theorem Over.begins (h : Over width limit now tries passes) (hwidth : 1 ≤ width)
    (hlimit : 1 ≤ limit) (hspan : ∀ first, inSpan first (first + width) passes ≤ 2 * limit) :
    Spread width limit now ⟨now, 1⟩ (tries ++ [now]) (passes ++ [now]) := by
  have hpast := h.past
  have hnone : ∀ l : List Nat, (∀ t ∈ l, t < now) → l.countP (now ≤ ·) = 0 := by
    intro l hl
    refine List.countP_eq_zero.mpr fun t ht => ?_
    simpa using hl t ht
  have htries : tries.countP (now ≤ ·) = 0 := hnone _ fun t ht =>
    hpast t (List.mem_append_left _ ht)
  have hpasses : passes.countP (now ≤ ·) = 0 := hnone _ fun t ht =>
    hpast t (List.mem_append_right _ ht)
  have hall : ∀ t ∈ (tries ++ [now]) ++ (passes ++ [now]), t ≤ now := by
    intro t ht
    simp only [List.mem_append, List.mem_singleton] at ht
    rcases ht with (ht | rfl) | ht | rfl
    · exact (hpast t (List.mem_append_left _ ht)).le
    · exact le_rfl
    · exact (hpast t (List.mem_append_right _ ht)).le
    · exact le_rfl
  have hbefore' : (passes ++ [now]).countP (fun t => now ≤ t + width && t < now) ≤ limit := by
    simpa [List.countP_append] using h.before
  refine ⟨le_rfl, hall, fun t ht => ?_, h.opened, ?_, ?_, hbefore', fun first => ?_⟩
  · have hle := hall t ht
    show t < now + width
    omega
  · simp [List.countP_append, htries, hlimit]
  · simp [List.countP_append, hpasses]
  · by_cases hfirst : now ≤ first + width
    · have hle := inSpan_le (c := ⟨now, 1⟩) hbefore' hfirst
      simp only [List.countP_append, hpasses] at hle
      simp at hle
      omega
    · have hsame : inSpan first (first + width) (passes ++ [now])
          = inSpan first (first + width) passes := by
        simp [inSpan, List.countP_append, hfirst]
      rw [hsame]
      exact hspan first

theorem Over.check (h : Over width limit now tries passes) {entry : Option Counter}
    (hrenew : Counter.renew width now entry = ⟨now, 0⟩) (hwidth : 1 ≤ width) (hlimit : 1 ≤ limit)
    (hspan : ∀ first, inSpan first (first + width) passes ≤ 2 * limit) :
    Tracks width limit now (some (Counter.check width limit now entry).2) (tries ++ [now])
        (passes ++ if (Counter.check width limit now entry).1 then [now] else [])
      ∧ ((Counter.check width limit now entry).1 = true
        ↔ ∀ s, opening width (tries ++ [now]) = some s → tries.countP (s ≤ ·) < limit) := by
  have hcheck : Counter.check width limit now entry = (true, ⟨now, 1⟩) := by
    simp only [Counter.check, hrenew]
    rw [if_neg (by omega)]
  rw [hcheck]
  refine ⟨h.begins hwidth hlimit hspan, iff_of_true rfl fun s hs => ?_⟩
  cases h.opened.symm.trans hs
  rw [List.countP_eq_zero.mpr]
  · exact hlimit
  · intro t ht
    simpa using h.past t (List.mem_append_left _ ht)

namespace Tracks

theorem later {now' : Nat} {entry : Option Counter} (h : Tracks width limit now entry tries passes)
    (hle : now ≤ now') : Tracks width limit now' entry tries passes := by
  cases entry with
  | some c => exact Spread.later h hle
  | none =>
    rcases h with h | ⟨c, h, hover⟩
    · exact .inl h
    · exact .inr ⟨c, h.later hle, hover.trans hle⟩

/-- **An entry can be dropped after its window.** -/
theorem drop (h : Tracks width limit now (some c) tries passes) (hover : c.start + width ≤ now) :
    Tracks width limit now none tries passes :=
  .inr ⟨c, h, hover⟩

theorem span {entry : Option Counter} (h : Tracks width limit now entry tries passes)
    (first : Nat) : inSpan first (first + width) passes ≤ 2 * limit := by
  cases entry with
  | some c => exact Spread.span h first
  | none =>
    rcases h with ⟨-, rfl⟩ | ⟨c, h, -⟩
    · exact Nat.zero_le _
    · exact h.span first

/-- In the window of the last try no more than the limit were let through. -/
theorem current_le {entry : Option Counter} (h : Tracks width limit now entry tries passes)
    {s : Nat} (hs : opening width tries = some s) : passes.countP (s ≤ ·) ≤ limit := by
  have hspread : ∀ c, Spread width limit now c tries passes → passes.countP (s ≤ ·) ≤ limit := by
    intro c h
    cases h.opened.symm.trans hs
    exact h.current.le.trans h.few
  cases entry with
  | some c => exact hspread c h
  | none =>
    rcases h with ⟨-, rfl⟩ | ⟨c, h, -⟩
    · exact Nat.zero_le _
    · exact hspread c h

/-- **One try.** It is let through exactly if fewer than the limit came before it in its window. -/
theorem check {entry : Option Counter} (h : Tracks width limit now entry tries passes)
    (hwidth : 1 ≤ width) (hlimit : 1 ≤ limit) :
    Tracks width limit now (some (Counter.check width limit now entry).2) (tries ++ [now])
        (passes ++ if (Counter.check width limit now entry).1 then [now] else [])
      ∧ ((Counter.check width limit now entry).1 = true
        ↔ ∀ s, opening width (tries ++ [now]) = some s → tries.countP (s ≤ ·) < limit) := by
  have hbegin : Counter.renew width now entry = ⟨now, 0⟩ → Over width limit now tries passes → _ :=
    fun hrenew hover => hover.check hrenew hwidth hlimit h.span
  cases entry with
  | none =>
    refine hbegin rfl ?_
    rcases h with ⟨rfl, rfl⟩ | ⟨c, h, hover⟩
    · exact ⟨nofun, rfl, Nat.zero_le _⟩
    · exact h.over hover
  | some c =>
    have h : Spread width limit now c tries passes := h
    have hbegun := h.begun
    by_cases hover : width ≤ now - c.start
    · exact hbegin (if_pos hover) (h.over (by omega))
    · -- the window is open
      have hopen : now < c.start + width := by omega
      have htried := h.tried
      have hopening : opening width (tries ++ [now]) = some c.start := by
        rw [opening_snoc, h.opened]
        exact if_neg hover
      have hiff : (∀ s, opening width (tries ++ [now]) = some s → tries.countP (s ≤ ·) < limit)
          ↔ tries.countP (c.start ≤ ·) < limit := by
        simp [hopening]
      rw [hiff]
      simp only [Counter.check, Counter.renew, if_neg hover]
      by_cases hfull : limit ≤ c.count
      · rw [if_pos hfull]
        exact ⟨h.try_open hopen (.inl rfl) rfl (by omega), iff_of_false nofun (by omega)⟩
      · rw [if_neg hfull]
        exact ⟨h.try_open hopen (.inr rfl) rfl (by omega), iff_of_true rfl (by omega)⟩

end Tracks

/-! ## A table of counters -/

section Table

variable {κ : Type} [DecidableEq κ] {key : κ} {before after : κ → Option Counter} {ok : Bool}

/-- **A try under a key of a table.** Entries whose window is over may be dropped on the way. -/
structure TableStep (width limit now : Nat) (key : κ) (before after : κ → Option Counter)
    (ok : Bool) : Prop where
  own : after key = some (Counter.check width limit now (before key)).2
  answer : ok = (Counter.check width limit now (before key)).1
  others : ∀ k ≠ key, after k = before k
    ∨ after k = none ∧ ∃ c, before k = some c ∧ c.start + width ≤ now

/-- What was let through under `k`, with one more try under `key`. -/
theorem TableStep.tracks (h : TableStep width limit now key before after ok) (hwidth : 1 ≤ width)
    (hlimit : 1 ≤ limit) {k : κ} (hk : Tracks width limit now (before k) tries passes) :
    Tracks width limit now (after k) (tries ++ if k = key then [now] else [])
      (passes ++ if k = key ∧ ok = true then [now] else []) := by
  by_cases hkey : k = key
  · subst hkey
    rw [h.own, h.answer]
    simpa using (hk.check hwidth hlimit).1
  · simp only [hkey, if_false, false_and, List.append_nil]
    rcases h.others k hkey with hsame | ⟨hnone, c, hsome, hover⟩
    · rwa [hsame]
    · rw [hnone]
      rw [hsome] at hk
      exact hk.drop hover

omit [DecidableEq κ] in
/-- A window that is still running goes on. -/
theorem TableStep.running (h : TableStep width limit now key before after ok) (hwidth : 1 ≤ width)
    {k : κ} (hk : before k = some c) (hopen : now < c.start + width) :
    ∃ c', after k = some c' ∧ c'.start = c.start := by
  by_cases hkey : k = key
  · subst hkey
    have hrenew : Counter.renew width now (some c) = c := if_neg (by omega)
    refine ⟨_, h.own, ?_⟩
    rw [hk, Counter.check, hrenew]
    split <;> rfl
  · rcases h.others k hkey with hsame | ⟨-, c', hc', hover⟩
    · exact ⟨c, hsame.trans hk, rfl⟩
    · cases hc'.symm.trans hk
      omega

end Table

end Nexum.Lib
