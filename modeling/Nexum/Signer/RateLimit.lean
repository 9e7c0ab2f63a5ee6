import Nexum.Lib.Table

/-!
# The verifier's rate limiter

`VerifyRateLimiter`: how often one token may be tried. An entry per token says when its window
began, how many tries it has seen and when the last one was; entries that have not been seen for a
whole window are forgotten, and the oldest one makes room for a new token.

A hash map has no order, so which of several equally old entries makes room is not determined by
the source. Here it is the first of them. Nothing depends on it: **whether a token is let through
is a matter of its own entry only**.
-/

namespace Nexum.Signer

open Nexum.Lib

/-- An entry, with the digest of the token it is kept under. -/
structure VerifyRateEntry where
  key : String
  windowStart : Nat
  count : Nat
  lastSeen : Nat
  deriving DecidableEq

/-- The limits; `new` keeps each of them from being zero. -/
structure VerifyRateLimiter where
  maxAttempts : Nat
  windowSecs : Nat
  maxKeys : Nat
  attempts_pos : 1 ≤ maxAttempts
  window_pos : 1 ≤ windowSecs
  keys_min : 64 ≤ maxKeys

def VerifyRateLimiter.new (maxAttempts windowSecs maxKeys : Nat) : VerifyRateLimiter :=
  ⟨max maxAttempts 1, max windowSecs 1, max maxKeys 64, Nat.le_max_right .., Nat.le_max_right ..,
    Nat.le_max_right ..⟩

/-- The entries in memory: a token has one at most. -/
structure RateTable where
  entries : List VerifyRateEntry
  apart : entries.Pairwise fun e e' => e.key ≠ e'.key

namespace RateTable

variable (t : RateTable)

def empty : RateTable := ⟨[], .nil⟩

def get (key : String) : Option VerifyRateEntry :=
  t.entries.find? (·.key = key)

def retain (p : VerifyRateEntry → Bool) : RateTable :=
  ⟨t.entries.filter p, t.apart.filter p⟩

def insert (e : VerifyRateEntry) : RateTable where
  entries := upsert (·.key = e.key) (fun _ => e) e t.entries
  apart := by
    refine pairwise_upsert (fun _ _ h => h.symm) ?_ t.apart ?_
    · intro r r' hr hr' hne
      exact hne ((of_decide_eq_true hr).trans (of_decide_eq_true hr').symm)
    · intro r _ hr
      exact of_decide_eq_false hr

/-- `min_by_key` on the time an entry was last seen. -/
def oldest : Option VerifyRateEntry :=
  t.entries.foldl (fun best e =>
    match best with
    | none => some e
    | some b => if e.lastSeen < b.lastSeen then some e else some b) none

def evictOldestEntry : RateTable :=
  match t.oldest with
  | none => t
  | some e => t.retain fun e' => e'.key ≠ e.key

variable {t} {key : String}

theorem get_retain (p : VerifyRateEntry → Bool) : (t.retain p).get key = (t.get key).filter p := by
  obtain ⟨entries, hapart⟩ := t
  show (entries.filter p).find? _ = (entries.find? _).filter p
  induction entries with
  | nil => rfl
  | cons e entries ih =>
    obtain ⟨hfirst, hrest⟩ := List.pairwise_cons.mp hapart
    by_cases hkey : e.key = key
    · -- there is no other entry with this key
      have hnone : ∀ q : VerifyRateEntry → Bool, (entries.filter q).find? (·.key = key) = none := by
        intro q
        refine List.find?_eq_none.mpr fun e' he' => ?_
        have hne := hfirst e' (List.mem_of_mem_filter he')
        simp only [decide_eq_true_eq]
        exact fun heq => hne (hkey.trans heq.symm)
      rw [List.find?_cons_of_pos (by simp [hkey])]
      by_cases hp : p e = true
      · rw [List.filter_cons_of_pos hp, List.find?_cons_of_pos (by simp [hkey]),
          Option.filter_some, if_pos hp]
      · rw [List.filter_cons_of_neg hp, hnone, Option.filter_some, if_neg hp]
    · rw [List.find?_cons_of_neg (by simp [hkey]), ← ih hrest]
      by_cases hp : p e = true
      · rw [List.filter_cons_of_pos hp, List.find?_cons_of_neg (by simp [hkey])]
      · rw [List.filter_cons_of_neg hp]

theorem get_evictOldestEntry (h : t.get key = none) : t.evictOldestEntry.get key = none := by
  unfold evictOldestEntry
  cases t.oldest with
  | none => exact h
  | some e =>
    show (t.retain _).get key = none
    rw [get_retain, h]
    rfl

end RateTable

namespace VerifyRateLimiter

variable (L : VerifyRateLimiter) (t : RateTable) (key : String) (now : Nat)

/-- The entries a try is judged by: those seen lately, with room for this token. -/
def present : RateTable :=
  let kept := t.retain fun e => now - e.lastSeen < L.windowSecs
  if kept.get key = none ∧ L.maxKeys ≤ kept.entries.length then kept.evictOldestEntry else kept

/-- The token's entry, in the window it belongs to now. -/
def entry : VerifyRateEntry :=
  let e := ((L.present t key now).get key).getD ⟨key, now, 0, now⟩
  if L.windowSecs ≤ now - e.windowStart then
    { e with windowStart := now, count := 0, lastSeen := now }
  else { e with lastSeen := now }

def check : Except String Unit × RateTable :=
  let e := L.entry t key now
  if L.maxAttempts ≤ e.count then
    (.error "action token verification rate limit exceeded; retry later",
      (L.present t key now).insert e)
  else (.ok (), (L.present t key now).insert { e with count := e.count + 1 })

variable {L t key now}

theorem get_present : (L.present t key now).get key
    = (t.get key).filter fun e => now - e.lastSeen < L.windowSecs := by
  unfold present
  dsimp only
  split
  · rename_i hfull
    rw [RateTable.get_evictOldestEntry hfull.1, ← RateTable.get_retain, hfull.1]
  · rw [RateTable.get_retain]

end VerifyRateLimiter

end Nexum.Signer
