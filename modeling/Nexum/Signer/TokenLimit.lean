import Nexum.Lib.History
import Nexum.Lib.Window
import Nexum.Signer.RateLimit

/-!
# How often a token is tried

The limiter of the verifier forgets an entry that has not been seen for a whole window, and makes
room for a new token when the table is full. **Forgetting loses nothing**: a token that was last
seen a window ago is in a window that is over. So as long as no entry has to make room, the table
counts exactly (`token_checks_limited`): a try is let through if and only if fewer than the limit
came before it in its window. The table never holds more than its limit in any case.
-/

namespace Nexum.Signer

open Nexum.Lib

namespace RateTable

variable {t : RateTable} {key : String}

/-- The counter of a key. -/
def counter (t : RateTable) (key : String) : Option Counter :=
  (t.get key).map fun e => ⟨e.windowStart, e.count⟩

theorem get_insert (e : VerifyRateEntry) :
    (t.insert e).get key = if key = e.key then some e else t.get key := by
  by_cases hkey : key = e.key
  · subst hkey
    rw [if_pos rfl]
    exact find?_upsert (by simp)
  · rw [if_neg hkey]
    refine find?_upsert_of_ne (by simpa using Ne.symm hkey) fun r hr => ?_
    rw [of_decide_eq_true hr]
    simpa using Ne.symm hkey

theorem mem_insert {e e' : VerifyRateEntry} (h : e' ∈ (t.insert e).entries) :
    e' = e ∨ e' ∈ t.entries :=
  (mem_upsert h).imp_right And.left

theorem oldest_mem (h : t.entries ≠ []) : ∃ e ∈ t.entries, t.oldest = some e := by
  obtain ⟨older, hoverall, hfirst, hnext⟩ : ∃ older, t.oldest = t.entries.foldl older none
      ∧ (∀ e, older none e = some e)
      ∧ ∀ b e, older (some b) e = if e.lastSeen < b.lastSeen then some e else some b :=
    ⟨_, rfl, fun _ => rfl, fun _ _ => rfl⟩
  have hfold : ∀ (l : List VerifyRateEntry) (b : VerifyRateEntry), ∃ e ∈ b :: l,
      l.foldl older (some b) = some e := by
    intro l
    induction l with
    | nil => exact fun b => ⟨b, List.mem_cons_self, rfl⟩
    | cons x l ih =>
      intro b
      rw [List.foldl_cons, hnext]
      by_cases hlt : x.lastSeen < b.lastSeen
      · simp only [hlt, if_true]
        obtain ⟨e, he, heq⟩ := ih x
        exact ⟨e, List.mem_cons_of_mem b he, heq⟩
      · simp only [hlt, if_false]
        obtain ⟨e, he, heq⟩ := ih b
        refine ⟨e, ?_, heq⟩
        rcases List.mem_cons.mp he with rfl | he
        · exact List.mem_cons_self
        · exact List.mem_cons_of_mem b (List.mem_cons_of_mem x he)
  obtain ⟨b, l, hentries⟩ := List.exists_cons_of_ne_nil h
  rw [hoverall, hentries, List.foldl_cons, hfirst]
  exact hfold l b

/-- Making room removes an entry. -/
theorem length_evictOldestEntry (h : t.entries ≠ []) :
    t.evictOldestEntry.entries.length < t.entries.length := by
  obtain ⟨e, he, hold⟩ := oldest_mem h
  rw [evictOldestEntry, hold]
  exact List.length_filter_lt_length_iff_exists.mpr ⟨e, he, by simp⟩

theorem length_insert (e : VerifyRateEntry) :
    (t.insert e).entries.length
      = if t.get e.key = none then t.entries.length + 1 else t.entries.length := by
  show (upsert _ _ _ _).length = _
  unfold upsert get
  by_cases hany : t.entries.any (·.key = e.key) = true
  · have hsome : t.entries.find? (·.key = e.key) ≠ none := by
      obtain ⟨r, hr, hkey⟩ := List.any_eq_true.mp hany
      exact fun hnone => List.find?_eq_none.mp hnone r hr hkey
    rw [if_pos hany, if_neg hsome, List.length_map]
  · have hnone : t.entries.find? (·.key = e.key) = none := by
      refine List.find?_eq_none.mpr fun r hr hkey => hany ?_
      exact List.any_eq_true.mpr ⟨r, hr, hkey⟩
    rw [if_neg hany, if_pos hnone, List.length_append]
    rfl

end RateTable

namespace VerifyRateLimiter

variable {L : VerifyRateLimiter} {t : RateTable} {key : String} {now : Nat}

theorem key_of_get {e : VerifyRateEntry} (h : t.get key = some e) : e.key = key := by
  simpa using List.find?_some h

theorem key_entry : (L.entry t key now).key = key := by
  have hkey : (((L.present t key now).get key).getD ⟨key, now, 0, now⟩).key = key := by
    cases hget : (L.present t key now).get key with
    | none => rfl
    | some e => exact key_of_get hget
  unfold entry
  dsimp only
  split <;> exact hkey

/-- **The table keeps its limit.** -/
theorem length_check (h : t.entries.length ≤ L.maxKeys) :
    (L.check t key now).2.entries.length ≤ L.maxKeys := by
  have hmin := L.keys_min
  have hpresent : (L.present t key now).entries.length
      + (if (L.present t key now).get key = none then 1 else 0) ≤ L.maxKeys := by
    have hkept := List.length_filter_le (fun e => decide (now - e.lastSeen < L.windowSecs))
      t.entries
    unfold present
    dsimp only
    split
    · rename_i hfull
      have hne : (t.retain fun e => now - e.lastSeen < L.windowSecs).entries ≠ [] := by
        intro hnil
        rw [hnil] at hfull
        have := hfull.2
        simp only [List.length_nil] at this
        omega
      have hlt := RateTable.length_evictOldestEntry hne
      have hle : (t.retain fun e => now - e.lastSeen < L.windowSecs).entries.length
          ≤ t.entries.length := hkept
      split <;> omega
    · rename_i hroom
      have hle : (t.retain fun e => now - e.lastSeen < L.windowSecs).entries.length
          ≤ t.entries.length := hkept
      split
      · rename_i hnone
        have hlt := Nat.not_le.mp fun hle => hroom ⟨hnone, hle⟩
        omega
      · omega
  have hinsert : ∀ e : VerifyRateEntry, e.key = key →
      ((L.present t key now).insert e).entries.length ≤ L.maxKeys := by
    intro e he
    rw [RateTable.length_insert, he]
    split at hpresent <;> rename_i hget <;> simp only [hget] <;> simpa using hpresent
  unfold check
  dsimp only
  split
  · exact hinsert _ key_entry
  · exact hinsert _ key_entry

/-- No entry has to make room for this token. -/
def Roomy (L : VerifyRateLimiter) (t : RateTable) (key : String) (now : Nat) : Prop :=
  L.present t key now = t.retain fun e => now - e.lastSeen < L.windowSecs

/-- An entry was seen after its window began. -/
def Seen (t : RateTable) (now : Nat) : Prop :=
  ∀ e ∈ t.entries, e.windowStart ≤ e.lastSeen ∧ e.lastSeen ≤ now

/-- What a try finds is the counter of the key, renewed. -/
theorem entry_eq (L : VerifyRateLimiter) (key : String) (hseen : Seen t now) :
    (⟨(L.entry t key now).windowStart, (L.entry t key now).count⟩ : Counter)
      = Counter.renew L.windowSecs now (t.counter key) := by
  have hwindow := L.window_pos
  unfold entry RateTable.counter
  rw [get_present]
  cases hget : t.get key with
  | none => simp [Counter.renew]
  | some e =>
    obtain ⟨hstart, hlast⟩ := hseen e (List.mem_of_find?_eq_some hget)
    simp only [Option.filter_some, Option.map_some, Counter.renew]
    by_cases hlate : now - e.lastSeen < L.windowSecs
    · simp only [hlate, decide_true, if_true, Option.getD_some]
      split <;> rfl
    · have hover : L.windowSecs ≤ now - e.windowStart := by omega
      simp [hlate, hover]

theorem check_eq (L : VerifyRateLimiter) (key : String) (hseen : Seen t now) :
    Counter.check L.windowSecs L.maxAttempts now (t.counter key)
      = ((L.check t key now).1.isOk, ⟨(L.entry t key now).windowStart,
        if L.maxAttempts ≤ (L.entry t key now).count then (L.entry t key now).count
        else (L.entry t key now).count + 1⟩) := by
  unfold Counter.check check
  dsimp only
  rw [← entry_eq L key hseen]
  split <;> rfl

/-- **One try**, where no entry makes room. -/
theorem tableStep (hseen : Seen t now) (hroom : L.Roomy t key now) :
    TableStep L.windowSecs L.maxAttempts now key t.counter (L.check t key now).2.counter
      (L.check t key now).1.isOk := by
  have hcheck := check_eq L key hseen
  have hget : ∀ k, (L.check t key now).2.get k
      = if k = key then some { L.entry t key now with
          count := if L.maxAttempts ≤ (L.entry t key now).count then (L.entry t key now).count
            else (L.entry t key now).count + 1 }
        else (L.present t key now).get k := by
    intro k
    unfold check
    dsimp only
    by_cases hfull : L.maxAttempts ≤ (L.entry t key now).count
    · rw [if_pos hfull, RateTable.get_insert, if_pos hfull]
      exact if_congr (by rw [key_entry]) rfl rfl
    · rw [if_neg hfull, RateTable.get_insert, if_neg hfull]
      exact if_congr (by rw [key_entry]) rfl rfl
  refine ⟨?_, by rw [hcheck], fun k hk => ?_⟩
  · rw [hcheck, RateTable.counter, hget, if_pos rfl]
    rfl
  · rw [RateTable.counter, RateTable.counter, hget, if_neg hk, hroom, RateTable.get_retain]
    cases hold : t.get k with
    | none => exact .inl rfl
    | some e =>
      obtain ⟨hstart, -⟩ := hseen e (List.mem_of_find?_eq_some hold)
      have hwindow := L.window_pos
      by_cases hlate : now - e.lastSeen < L.windowSecs
      · rw [Option.filter_some, if_pos (decide_eq_true hlate)]
        exact .inl rfl
      · rw [Option.filter_some, if_neg (by simpa using hlate)]
        refine .inr ⟨rfl, ⟨e.windowStart, e.count⟩, rfl, ?_⟩
        show e.windowStart + L.windowSecs ≤ now
        omega

theorem Seen.check (h : Seen t now) : Seen (L.check t key now).2 now := by
  have hpresent : ∀ e ∈ (L.present t key now).entries, e ∈ t.entries := by
    intro e he
    unfold present RateTable.evictOldestEntry at he
    dsimp only at he
    split at he
    · split at he
      · exact List.mem_of_mem_filter he
      · exact List.mem_of_mem_filter (List.mem_of_mem_filter he)
    · exact List.mem_of_mem_filter he
  have hentry : (L.entry t key now).windowStart ≤ now ∧ (L.entry t key now).lastSeen = now := by
    unfold entry
    dsimp only
    split
    · exact ⟨le_rfl, rfl⟩
    · refine ⟨?_, rfl⟩
      cases hget : (L.present t key now).get key with
      | none => exact le_rfl
      | some e =>
        obtain ⟨hstart, hlast⟩ := h e (hpresent e (List.mem_of_find?_eq_some hget))
        exact hstart.trans hlast
  have hinsert : ∀ e : VerifyRateEntry, e.windowStart ≤ e.lastSeen ∧ e.lastSeen ≤ now →
      Seen ((L.present t key now).insert e) now := by
    intro e he e' he'
    rcases RateTable.mem_insert he' with rfl | he'
    · exact he
    · exact h e' (hpresent e' he')
  have hbounds : (L.entry t key now).windowStart ≤ (L.entry t key now).lastSeen
      ∧ (L.entry t key now).lastSeen ≤ now := by
    rw [hentry.2]
    exact ⟨hentry.1, le_rfl⟩
  unfold VerifyRateLimiter.check
  dsimp only
  split
  · exact hinsert _ hbounds
  · exact hinsert _ hbounds

/-! ## Over a history -/

/-- Tokens and the times they are tried. -/
def limiter (L : VerifyRateLimiter) (sha256Hex : String → String) :
    Server RateTable (String × Nat) (Except String Unit) :=
  ⟨fun t call => L.check t (sha256Hex call.1) call.2⟩

/-- The times a token was tried. -/
def tries (calls : List (String × Nat)) (token : String) : List Nat :=
  calls.flatMap fun call => if call.1 = token then [call.2] else []

/-- The times a token was let through. -/
def passes (L : VerifyRateLimiter) (sha256Hex : String → String) (calls : List (String × Nat))
    (token : String) : List Nat :=
  (L.limiter sha256Hex).collect (fun t call =>
    if call.1 = token ∧ (L.check t (sha256Hex call.1) call.2).1.isOk = true then [call.2] else [])
    .empty calls

/-- No entry makes room along the history. -/
def RoomyAlong (L : VerifyRateLimiter) (sha256Hex : String → String)
    (calls : List (String × Nat)) : Prop :=
  (L.limiter sha256Hex).Along (fun t call => L.Roomy t (sha256Hex call.1) call.2) .empty calls

/-- One time after the other. -/
def InTurn (calls : List (String × Nat)) : Prop := (calls.map Prod.snd).Pairwise (· ≤ ·)

theorem inTurn_snoc {calls : List (String × Nat)} {call : String × Nat}
    (h : InTurn (calls ++ [call])) : InTurn calls ∧ ∀ c ∈ calls, c.2 ≤ call.2 := by
  unfold InTurn at h
  rw [List.map_append, List.pairwise_append] at h
  exact ⟨h.1, fun c hc => h.2.2 c.2 (List.mem_map.mpr ⟨c, hc, rfl⟩) call.2 (by simp)⟩

theorem exists_last (calls : List (String × Nat)) : ∃ last, ∀ c ∈ calls, c.2 ≤ last := by
  induction calls with
  | nil => exact ⟨0, nofun⟩
  | cons call calls ih =>
    obtain ⟨last, hlast⟩ := ih
    refine ⟨max call.2 last, fun c hc => ?_⟩
    rcases List.mem_cons.mp hc with rfl | hc
    · exact Nat.le_max_left ..
    · exact (hlast c hc).trans (Nat.le_max_right ..)

variable {sha256Hex : String → String}

/-- No other token that was tried has this token's digest. -/
def Distinct (sha256Hex : String → String) (calls : List (String × Nat)) (token : String) : Prop :=
  ∀ c ∈ calls, sha256Hex c.1 = sha256Hex token → c.1 = token

/-- **The table counts**, at any time that is not before the last try. -/
theorem counts {token : String} (calls : List (String × Nat))
    (hdistinct : Distinct sha256Hex calls token)
    (h : InTurn calls ∧ L.RoomyAlong sha256Hex calls) :
    ∀ now, (∀ c ∈ calls, c.2 ≤ now) →
      Seen ((L.limiter sha256Hex).after .empty calls) now
      ∧ Tracks L.windowSecs L.maxAttempts now
        (((L.limiter sha256Hex).after .empty calls).counter (sha256Hex token)) (tries calls token)
        (L.passes sha256Hex calls token) := by
  induction calls using List.reverseRecOn with
  | nil =>
    intro now _
    exact ⟨nofun, .inl ⟨rfl, rfl⟩⟩
  | append_singleton calls call ih =>
    intro now hnow
    obtain ⟨hturn, hlast⟩ := inTurn_snoc h.1
    obtain ⟨hroomy, hroom⟩ := (L.limiter sha256Hex).along_snoc.mp h.2
    obtain ⟨hseen, htracks⟩ := ih (fun c hc => hdistinct c (List.mem_append_left _ hc))
      ⟨hturn, hroomy⟩ call.2 hlast
    have hsame : sha256Hex token = sha256Hex call.1 ↔ call.1 = token :=
      ⟨fun heq => hdistinct call (by simp) heq.symm, fun heq => by rw [heq]⟩
    have hle : call.2 ≤ now := hnow call (by simp)
    rw [Server.after_snoc]
    constructor
    · intro e he
      obtain ⟨hstart, hlast⟩ := hseen.check e he
      exact ⟨hstart, hlast.trans hle⟩
    · have hstep := (tableStep hseen hroom).tracks L.window_pos L.attempts_pos htracks
      have htries : tries (calls ++ [call]) token
          = tries calls token ++ if sha256Hex token = sha256Hex call.1 then [call.2] else [] := by
        simp [tries, hsame]
      have hpasses : L.passes sha256Hex (calls ++ [call]) token
          = L.passes sha256Hex calls token ++ if sha256Hex token = sha256Hex call.1
            ∧ (L.check ((L.limiter sha256Hex).after .empty calls) (sha256Hex call.1) call.2).1.isOk
              = true then [call.2] else [] := by
        rw [passes, Server.collect_snoc]
        simp only [hsame, passes]
      rw [htries, hpasses]
      exact hstep.later hle

/-- **The limiter.** The table keeps its limit over any history. As long as no entry makes room, a
    token is let through at most `max_attempts` times in its window and twice that in any span of
    a window's length, and it is refused only if its window has seen that many tries. -/
theorem token_checks_limited (L : VerifyRateLimiter) (sha256Hex : String → String)
    (calls : List (String × Nat)) :
    ((L.limiter sha256Hex).after .empty calls).entries.length ≤ L.maxKeys
    ∧ (InTurn calls → L.RoomyAlong sha256Hex calls → ∀ token, Distinct sha256Hex calls token →
      (∀ first, inSpan first (first + L.windowSecs) (L.passes sha256Hex calls token)
        ≤ 2 * L.maxAttempts)
      ∧ (∀ s, opening L.windowSecs (tries calls token) = some s →
        (L.passes sha256Hex calls token).countP (s ≤ ·) ≤ L.maxAttempts)
      ∧ ∀ now, (∀ c ∈ calls, c.2 ≤ now) →
        (((L.limiter sha256Hex).reply .empty calls (token, now)).isOk = true
          ↔ ∀ s, opening L.windowSecs (tries calls token ++ [now]) = some s →
            (tries calls token).countP (s ≤ ·) < L.maxAttempts)) := by
  constructor
  · induction calls using List.reverseRecOn with
    | nil => exact Nat.zero_le _
    | append_singleton calls call ih =>
      rw [Server.after_snoc]
      exact length_check ih
  · intro hturn hroomy token hdistinct
    have hcounts := L.counts calls hdistinct ⟨hturn, hroomy⟩
    obtain ⟨last, hlast⟩ := exists_last calls
    have htracks := (hcounts last hlast).2
    refine ⟨htracks.span, fun s hs => htracks.current_le hs, fun now hnow => ?_⟩
    obtain ⟨hseen, htracks⟩ := hcounts now hnow
    have hanswer : ((L.limiter sha256Hex).reply .empty calls (token, now)).isOk
        = (Counter.check L.windowSecs L.maxAttempts now
          (((L.limiter sha256Hex).after .empty calls).counter (sha256Hex token))).1 := by
      rw [check_eq L _ hseen]
      rfl
    rw [hanswer]
    exact (htracks.check L.window_pos L.attempts_pos).2

def sampleLimiter : VerifyRateLimiter := .new 2 60 64

/-- Three tries in one window, the third of them refused. -/
theorem token_checks_limited_sample :
    ((sampleLimiter.limiter id).reply .empty [("a", 0), ("a", 59)] ("a", 59)).isOk = false := by
  have hroom : sampleLimiter.RoomyAlong id [("a", 0), ("a", 59)] := ⟨rfl, rfl, trivial⟩
  have hlimited := (token_checks_limited sampleLimiter id [("a", 0), ("a", 59)]).2
    (by simp [InTurn]) hroom "a" (fun _ _ => id)
  have hanswer := (hlimited.2.2 59 (by simp)).mp
  refine Bool.eq_false_iff.mpr fun hok => ?_
  exact absurd (hanswer hok 0 rfl) (by decide)

end VerifyRateLimiter

end Nexum.Signer
