import Nexum.Lib.Window
import Nexum.Mailbox.Deliverable

/-!
# How many pushes get through

A push is charged to its recipient and then to its source, each with a counter that is started anew
after a minute. Counters that are two minutes old may be dropped, which **never touches a window
that is running**. For a recipient that settles it. The source is another matter: it is what the
`X-Forwarded-For` header says, or the `X-Real-Ip` header, and only without them the address of the
connection. **Whoever writes the headers chooses the counter** (`headers_evade`). Where a peer's
requests are charged to its own address, it is limited like a recipient (`pushes_limited`).
-/

namespace Nexum.Mailbox

open Nexum.Lib Nexum.Lib.Check Nexum.Transport

/-! ## 1. One counter table -/

namespace FixedWindowLimiter

variable {L : FixedWindowLimiter} {key : String} {limit now : Nat}

def counter (L : FixedWindowLimiter) (key : String) : Option Counter :=
  (L.entries.lookup key).map fun c => ⟨c.startedAt, c.count⟩

/-- A key has one counter at most. -/
def Apart (L : FixedWindowLimiter) : Prop := (L.entries.map Prod.fst).Nodup

theorem Apart.set (h : L.Apart) (key : String) (c : WindowCounter) : (L.set key c).Apart := by
  unfold Apart at *
  rw [List.Nodup, List.pairwise_map] at *
  refine pairwise_upsert (fun _ _ h => h.symm) (fun r r' hr hr' hne => ?_) h fun r _ hr => ?_
  · exact hne ((of_decide_eq_true hr).trans (of_decide_eq_true hr').symm)
  · exact of_decide_eq_false hr

theorem counter_set (c : WindowCounter) (k : String) :
    (L.set key c).counter k = if k = key then some ⟨c.startedAt, c.count⟩ else L.counter k := by
  rw [counter, set, lookup_upsert]
  split <;> rfl

/-- Dropping what is two minutes old. -/
theorem counter_prune (h : L.Apart) (k : String) :
    counter ⟨L.entries.filter fun entry => now - entry.2.startedAt < 120⟩ k
      = (L.counter k).filter fun c => now - c.start < 120 := by
  rw [counter, counter, lookup_filter h]
  cases L.entries.lookup k with
  | none => rfl
  | some c =>
    simp only [Option.map_some, Option.filter_some]
    split <;> rfl

/-- **One check.** -/
theorem tableStep (h : L.Apart) (hlimit : 1 ≤ limit ∧ limit ≤ u32Max) (now : Nat)
    (hkey : isBlank key = false) :
    TableStep 60 limit now key L.counter (L.check key limit now).2.counter
        (L.check key limit now).1.isNone
      ∧ (L.check key limit now).2.Apart := by
  have hgate : ¬ (limit = 0 ∨ isBlank key = true) := by
    rw [hkey]
    simp
    omega
  -- the counter this check is held against
  obtain ⟨c, hc⟩ : ∃ c : WindowCounter, c
      = (let c := (L.entries.lookup key).getD ⟨now, 0⟩
         if now - c.startedAt ≥ 60 then ⟨now, 0⟩ else c) := ⟨_, rfl⟩
  have hrenew : Counter.renew 60 now (L.counter key) = ⟨c.startedAt, c.count⟩ := by
    rw [hc, counter]
    cases L.entries.lookup key with
    | none => simp [Counter.renew]
    | some c' =>
      simp only [Option.map_some, Option.getD_some, Counter.renew, ge_iff_le]
      split <;> rfl
  have hfresh : now - c.startedAt < 60 := by
    rw [hc]
    dsimp only
    split
    · simp
    · omega
  unfold check
  rw [if_neg hgate]
  simp only [← hc]
  by_cases hfull : c.count ≥ limit
  · have hcheck : Counter.check 60 limit now (L.counter key) = (false, ⟨c.startedAt, c.count⟩) := by
      rw [Counter.check, hrenew]
      exact if_pos hfull
    rw [if_pos hfull]
    refine ⟨⟨?_, by rw [hcheck]; rfl, fun k hk => .inl ?_⟩, h.set key c⟩
    · rw [hcheck, counter_set, if_pos rfl]
    · rw [counter_set, if_neg hk]
  · have hcheck : Counter.check 60 limit now (L.counter key)
        = (true, ⟨c.startedAt, c.count + 1⟩) := by
      rw [Counter.check, hrenew]
      exact if_neg hfull
    have hsat : min (c.count + 1) u32Max = c.count + 1 := by omega
    rw [if_neg hfull, hsat]
    have hset := h.set key { c with count := c.count + 1 }
    by_cases hmany : (L.set key { c with count := c.count + 1 }).entries.length > 50000
    · rw [if_pos hmany]
      refine ⟨⟨?_, by rw [hcheck]; rfl, fun k hk => ?_⟩, ?_⟩
      · rw [hcheck, counter_prune hset, counter_set, if_pos rfl]
        have hkept : now - c.startedAt < 120 := by omega
        simp [hkept]
      · rw [counter_prune hset, counter_set, if_neg hk]
        cases hold : L.counter k with
        | none => exact .inl rfl
        | some c' =>
          by_cases hlate : now - c'.start < 120
          · exact .inl (by simp [hlate])
          · exact .inr ⟨by simpa using hlate, c', rfl, by omega⟩
      · exact (List.filter_sublist.map Prod.fst).nodup hset
    · rw [if_neg hmany]
      refine ⟨⟨?_, by rw [hcheck]; rfl, fun k hk => .inl ?_⟩, hset⟩
      · rw [hcheck, counter_set, if_pos rfl]
      · rw [counter_set, if_neg hk]

/-- What a call does to a table: nothing, or one check, which `passed` has got through. -/
def Charged (limit now : Nat) (L L' : FixedWindowLimiter) (passed : Option String) : Prop :=
  (L' = L ∧ passed = none)
    ∨ ∃ key, L' = (L.check key limit now).2
        ∧ ∀ k ∈ passed, k = key ∧ (L.check key limit now).1 = none

/-- These times are among those at which the counter has let something through. -/
def Limited (limit now : Nat) (L : FixedWindowLimiter) (k : String) (times : List Nat) : Prop :=
  ∃ tries passes, Tracks 60 limit now (L.counter k) tries passes ∧ times.Sublist passes

variable {L' : FixedWindowLimiter} {passed : Option String} {k : String} {times : List Nat}

/-- A blank key is not counted, so a call with one leaves the table alone. -/
theorem Charged.cases (h : Charged limit now L L' passed) (hapart : L.Apart)
    (hlimit : 1 ≤ limit ∧ limit ≤ u32Max) :
    (L' = L ∧ ∀ k ∈ passed, isBlank k = true)
      ∨ ∃ key ok, TableStep 60 limit now key L.counter L'.counter ok ∧ L'.Apart
          ∧ ∀ k ∈ passed, k = key ∧ ok = true := by
  obtain ⟨hsame, hnone⟩ | ⟨key, hcheck, hpassed⟩ := h
  · rw [hnone]
    exact .inl ⟨hsame, nofun⟩
  · cases hkey : isBlank key with
    | true =>
      have hidle : (L.check key limit now).2 = L := by simp [check, hkey]
      refine .inl ⟨hcheck.trans hidle, fun k hk => ?_⟩
      rw [(hpassed k hk).1]
      exact hkey
    | false =>
      obtain ⟨hstep, hapart'⟩ := tableStep hapart hlimit now hkey
      rw [← hcheck] at hstep hapart'
      refine .inr ⟨key, _, hstep, hapart', fun k hk => ⟨(hpassed k hk).1, ?_⟩⟩
      rw [(hpassed k hk).2]
      rfl

theorem Charged.apart (h : Charged limit now L L' passed) (hapart : L.Apart)
    (hlimit : 1 ≤ limit ∧ limit ≤ u32Max) : L'.Apart := by
  obtain ⟨hsame, -⟩ | ⟨_, _, -, hapart', -⟩ := h.cases hapart hlimit
  · rwa [hsame]
  · exact hapart'

theorem Charged.limited (h : Charged limit now L L' passed) (hapart : L.Apart)
    (hlimit : 1 ≤ limit ∧ limit ≤ u32Max) (hk : passed = some k → isBlank k = false)
    (hold : Limited limit now L k times) :
    Limited limit now L' k (times ++ if passed = some k then [now] else []) := by
  obtain ⟨tries, passes, htracks, hsub⟩ := hold
  obtain ⟨hsame, hblank⟩ | ⟨key, ok, hstep, -, hpassed⟩ := h.cases hapart hlimit
  · have hnot : passed ≠ some k := by
      intro heq
      exact absurd ((hblank k heq).symm.trans (hk heq)) nofun
    rw [hsame, if_neg hnot, List.append_nil]
    exact ⟨tries, passes, htracks, hsub⟩
  · refine ⟨_, _, hstep.tracks (by omega) hlimit.1 htracks, hsub.append ?_⟩
    by_cases heq : passed = some k
    · rw [if_pos heq, if_pos (hpassed k heq)]
    · rw [if_neg heq]
      exact List.nil_sublist _

theorem Charged.running (h : Charged limit now L L' passed) (hapart : L.Apart)
    (hlimit : 1 ≤ limit ∧ limit ≤ u32Max) {c : Counter} (hc : L.counter k = some c)
    (hopen : now < c.start + 60) : ∃ c', L'.counter k = some c' ∧ c'.start = c.start := by
  obtain ⟨hsame, -⟩ | ⟨key, ok, hstep, -, -⟩ := h.cases hapart hlimit
  · exact ⟨c, hsame ▸ hc, rfl⟩
  · exact hstep.running (by omega) hc hopen

end FixedWindowLimiter

/-! ## 2. Pushes -/

structure PushCall where
  now : Int
  nowSecs : Nat
  request : PushHttp

namespace PushCall

variable (cfg : ApiConfig) (s : AppState) (call : PushCall)

def accepted : Bool := (push cfg call.now call.nowSecs call.request s).1.isOk

/-- The recipient of a push that was accepted. -/
def recipient : Option String :=
  match call.request.body with
  | .encoded req => if call.accepted cfg s then some req.envelope.to_ else none
  | .malformed _ _ => none

/-- The address that a push was accepted from, by what it was charged to. -/
def source : Option String :=
  if call.accepted cfg s then some (extractSourceIp call.request.connectIp call.request.headers)
  else none

/-- The address that a push was accepted from, by its connection. -/
def peer : Option String :=
  if call.accepted cfg s then call.request.connectIp else none

end PushCall

/-- The limits are charged before anything else can fail, and nothing else touches them. -/
theorem push_limits {cfg : ApiConfig} {request : PushHttp} {req : PushRequest}
    (hread : readPush cfg request = .ok req) (now : Int) (nowSecs : Nat) (state : AppState) :
    let charged := enforcePushRateLimits cfg nowSecs request.connectIp request.headers
      req.envelope.to_ state
    let pushed := push cfg now nowSecs request state
    pushed.2.byTo = charged.2.byTo ∧ pushed.2.byIp = charged.2.byIp
      ∧ (pushed.1.isOk = true → charged.1 = .ok ()) := by
  simp only [push, hread]
  split
  · rename_i heq
    rw [heq]
    exact ⟨rfl, rfl, nofun⟩
  · rename_i heq
    rw [heq]
    cases settleTtl cfg req with
    | error e => exact ⟨rfl, rfl, nofun⟩
    | ok ttlSecs =>
      dsimp only
      split <;> exact ⟨rfl, rfl, fun _ => rfl⟩

/-- **What a push is charged to.** -/
theorem push_charged (cfg : ApiConfig) (s : AppState) (call : PushCall) :
    let after := (push cfg call.now call.nowSecs call.request s).2
    FixedWindowLimiter.Charged cfg.rateLimitToPerMin call.nowSecs s.byTo after.byTo
        (call.recipient cfg s)
      ∧ FixedWindowLimiter.Charged cfg.rateLimitIpPerMin call.nowSecs s.byIp after.byIp
        (call.source cfg s) := by
  cases hread : readPush cfg call.request with
  | error e =>
    have hpush : push cfg call.now call.nowSecs call.request s = (.error e, s) := by
      simp [push, hread]
    have hnot : call.accepted cfg s = false := by
      simp [PushCall.accepted, hpush, Except.isOk, Except.toBool]
    have hnone : call.recipient cfg s = none := by
      unfold PushCall.recipient
      split <;> simp [hnot]
    rw [hpush]
    exact ⟨.inl ⟨rfl, hnone⟩, .inl ⟨rfl, by simp [PushCall.source, hnot]⟩⟩
  | ok req =>
    obtain ⟨hto, hip, hok⟩ := push_limits hread call.now call.nowSecs s
    have hrecipient : ∀ k ∈ call.recipient cfg s, k = req.envelope.to_ ∧ call.accepted cfg s := by
      intro k hk
      simp only [PushCall.recipient, body_of_readPush hread, Option.mem_def,
        Option.ite_none_right_eq_some, Option.some.injEq] at hk
      exact ⟨hk.2.symm, hk.1⟩
    have hsource : ∀ k ∈ call.source cfg s, k = extractSourceIp call.request.connectIp
        call.request.headers ∧ call.accepted cfg s := by
      intro k hk
      simp only [PushCall.source, Option.mem_def, Option.ite_none_right_eq_some,
        Option.some.injEq] at hk
      exact ⟨hk.2.symm, hk.1⟩
    simp only [hto, hip]
    have hcharge : (call.accepted cfg s → (s.byTo.check req.envelope.to_ cfg.rateLimitToPerMin
          call.nowSecs).1 = none ∧ (s.byIp.check (extractSourceIp call.request.connectIp
            call.request.headers) cfg.rateLimitIpPerMin call.nowSecs).1 = none) := by
      intro haccepted
      have hpassed := hok haccepted
      unfold enforcePushRateLimits at hpassed
      split at hpassed
      · exact absurd hpassed nofun
      · rename_i hto
        rw [hto]
        split at hpassed
        · exact absurd hpassed nofun
        · rename_i hip
          rw [hip]
          exact ⟨rfl, rfl⟩
    have hnothing : (s.byTo.check req.envelope.to_ cfg.rateLimitToPerMin call.nowSecs).1 ≠ none →
        call.source cfg s = none := by
      intro hwait
      rw [PushCall.source, if_neg]
      exact fun haccepted => hwait (hcharge haccepted).1
    have hrecipient' := fun k hk => And.intro (hrecipient k hk).1 (hcharge (hrecipient k hk).2).1
    have hsource' := fun k hk => And.intro (hsource k hk).1 (hcharge (hsource k hk).2).2
    unfold enforcePushRateLimits
    split
    · rename_i hwait
      refine ⟨.inr ⟨_, by rw [hwait], hrecipient'⟩, .inl ⟨rfl, hnothing ?_⟩⟩
      rw [hwait]
      nofun
    · rename_i hpass
      split <;> rename_i hcheck <;>
        exact ⟨.inr ⟨_, by rw [hpass], hrecipient'⟩, .inr ⟨_, by rw [hcheck], hsource'⟩⟩

theorem recipient_not_blank {cfg : ApiConfig} {s : AppState} {call : PushCall} {inbox : String}
    (h : call.recipient cfg s = some inbox) : isBlank inbox = false := by
  cases hbody : call.request.body with
  | malformed raw err => simp [PushCall.recipient, hbody] at h
  | encoded req =>
    simp only [PushCall.recipient, hbody, Option.ite_none_right_eq_some, Option.some.injEq] at h
    obtain ⟨haccepted, rfl⟩ := h
    unfold PushCall.accepted at haccepted
    cases hpush : push cfg call.now call.nowSecs call.request s with
    | mk answer after =>
      cases answer with
      | error e => simp [hpush, Except.isOk, Except.toBool] at haccepted
      | ok response =>
        obtain ⟨req', _, hbody', hvalid, -⟩ := push_ok hpush
        cases hbody.symm.trans hbody'
        simp only [NxmsEnvelope.validateBasic, bind_eq_ok, exists_unit, mapError_eq_ok,
          validatePeerId, failIf_eq_ok] at hvalid
        simpa [isBlank] using hvalid.2.2.2.2.1.1

/-! ## 3. Histories -/

def pushes (cfg : ApiConfig) : Server AppState PushCall (Except ApiError PushResponse) :=
  ⟨fun s call => push cfg call.now call.nowSecs call.request s⟩

/-- When pushes were accepted that have `k` for what `who` reads from them. -/
def acceptedAt (cfg : ApiConfig) (who : AppState → PushCall → Option String) (k : String)
    (s : AppState) (calls : List PushCall) : List Nat :=
  (pushes cfg).collect (fun s call => if who s call = some k then [call.nowSecs] else []) s calls

/-- One table along a history. -/
theorem limited_along {cfg : ApiConfig} {table : AppState → FixedWindowLimiter} {limit : Nat}
    {who : AppState → PushCall → Option String} (hlimit : 1 ≤ limit ∧ limit ≤ u32Max)
    (hcharged : ∀ s call, (table s).Charged limit call.nowSecs
      (table ((pushes cfg).serve s call).2) (who s call))
    {k : String} (hk : ∀ s call, who s call = some k → isBlank k = false) {s : AppState}
    (hfresh : (table s).entries = []) (calls : List PushCall)
    (htimes : (calls.map (·.nowSecs)).Pairwise (· ≤ ·)) :
    (table ((pushes cfg).after s calls)).Apart
      ∧ ∀ now, (∀ call ∈ calls, call.nowSecs ≤ now) →
        (table ((pushes cfg).after s calls)).Limited limit now k
          (acceptedAt cfg who k s calls) := by
  induction calls using List.reverseRecOn with
  | nil =>
    rw [Server.after_nil]
    refine ⟨by simp [FixedWindowLimiter.Apart, hfresh], fun now _ => ?_⟩
    refine ⟨[], [], ?_, List.nil_sublist _⟩
    have hnone : (table s).counter k = none := by simp [FixedWindowLimiter.counter, hfresh]
    rw [hnone]
    exact .inl ⟨rfl, rfl⟩
  | append_singleton calls call ih =>
    simp only [List.map_append, List.map_cons, List.map_nil, List.pairwise_append,
      List.mem_map, List.mem_singleton] at htimes
    obtain ⟨hbefore, -, hlast⟩ := htimes
    obtain ⟨hapart, hlimited⟩ := ih hbefore
    have hstep := hcharged ((pushes cfg).after s calls) call
    rw [← Server.after_snoc] at hstep
    refine ⟨hstep.apart hapart hlimit, fun now hnow => ?_⟩
    have hthen := hstep.limited hapart hlimit (hk _ call)
      (hlimited call.nowSecs fun earlier hmem => hlast _ ⟨earlier, hmem, rfl⟩ _ rfl)
    rw [acceptedAt, Server.collect_snoc]
    obtain ⟨tries, passes, htracks, hsub⟩ := hthen
    exact ⟨tries, passes, htracks.later (hnow call (by simp)), hsub⟩

theorem acceptedAt_sublist {cfg : ApiConfig} {who who' : AppState → PushCall → Option String}
    {k : String} {s : AppState} {calls : List PushCall}
    (h : ∀ s, ∀ call ∈ calls, who s call = some k → who' s call = some k) :
    (acceptedAt cfg who k s calls).Sublist (acceptedAt cfg who' k s calls) := by
  induction calls generalizing s with
  | nil => exact List.Sublist.refl _
  | cons call calls ih =>
    refine List.Sublist.append ?_ (ih fun s later hlater =>
      h s later (List.mem_cons_of_mem _ hlater))
    dsimp only
    by_cases hwho : who s call = some k
    · rw [if_pos hwho, if_pos (h s call List.mem_cons_self hwho)]
    · rw [if_neg hwho]
      exact List.nil_sublist _

theorem FixedWindowLimiter.Limited.span {limit now : Nat} {L : FixedWindowLimiter} {k : String}
    {times : List Nat} (h : L.Limited limit now k times) (first : Nat) :
    inSpan first (first + 60) times ≤ 2 * limit := by
  obtain ⟨tries, passes, htracks, hsub⟩ := h
  exact (hsub.countP_le).trans (htracks.span first)

/-- **How many pushes are accepted in a minute.** For a recipient the bound holds whatever the
    requests say. For the peer at an address it holds as long as its requests are charged to that
    address. A window that is running goes on, pruned or not. -/
theorem pushes_limited (cfg : ApiConfig)
    (hto : 1 ≤ cfg.rateLimitToPerMin ∧ cfg.rateLimitToPerMin ≤ u32Max)
    (hip : 1 ≤ cfg.rateLimitIpPerMin ∧ cfg.rateLimitIpPerMin ≤ u32Max) (s : AppState)
    (hfresh : s.byTo.entries = [] ∧ s.byIp.entries = []) (calls : List PushCall)
    (htimes : (calls.map (·.nowSecs)).Pairwise (· ≤ ·)) :
    (∀ inbox first, inSpan first (first + 60)
        (acceptedAt cfg (fun s call => call.recipient cfg s) inbox s calls)
      ≤ 2 * cfg.rateLimitToPerMin)
    ∧ (∀ address, isBlank address = false →
      (∀ call ∈ calls, call.request.connectIp = some address →
        extractSourceIp call.request.connectIp call.request.headers = address) →
      ∀ first, inSpan first (first + 60)
        (acceptedAt cfg (fun s call => call.peer cfg s) address s calls)
      ≤ 2 * cfg.rateLimitIpPerMin)
    ∧ ∀ call : PushCall, ∀ table ∈ [AppState.byTo, AppState.byIp], ∀ k c,
        (table ((pushes cfg).after s calls)).counter k = some c → call.nowSecs < c.start + 60 →
        ∃ c', (table ((pushes cfg).after s (calls ++ [call]))).counter k = some c'
          ∧ c'.start = c.start := by
  have hbyTo := fun s call => (push_charged cfg s call).1
  have hbyIp := fun s call => (push_charged cfg s call).2
  have hlast : ∀ call ∈ calls, call.nowSecs ≤ (calls.map (·.nowSecs)).sum := by
    intro call hcall
    exact List.single_le_sum (fun _ _ => Nat.zero_le _) _ (List.mem_map_of_mem hcall)
  refine ⟨fun inbox first => ?_, fun address haddress hown first => ?_, fun call table htable => ?_⟩
  · exact ((limited_along hto hbyTo (fun _ _ h => recipient_not_blank h) hfresh.1 calls htimes).2
      _ hlast).span first
  · have hlimited := (limited_along hip hbyIp (k := address) (fun _ _ _ => haddress) hfresh.2 calls
      htimes).2 _ hlast
    refine (List.Sublist.countP_le (acceptedAt_sublist fun s call hcall hpeer => ?_)).trans
      (hlimited.span first)
    simp only [PushCall.peer, Option.ite_none_right_eq_some] at hpeer
    rw [PushCall.source, if_pos hpeer.1, hown call hcall hpeer.2]
  · intro k c hc hopen
    rw [Server.after_snoc]
    simp only [List.mem_cons, List.not_mem_nil, or_false] at htable
    rcases htable with rfl | rfl
    · exact (hbyTo _ call).running (limited_along hto hbyTo (k := "-")
        (fun _ _ h => recipient_not_blank h) hfresh.1 calls htimes).1 hto hc hopen
    · exact (hbyIp _ call).running (limited_along hip hbyIp (k := "-")
        (fun _ _ _ => by decide) hfresh.2 calls htimes).1 hip hc hopen

/-- Pushes in one second from one address, each with its own `X-Forwarded-For` header. -/
def forwardedPushes (forwarded : List String) : List PushCall :=
  forwarded.zipIdx.map fun (ip, n) =>
    ⟨0, 0,
      { headers := { withBearer "push-secret" with xForwardedFor := some ip }
        connectIp := some "10.0.0.9"
        bodyLen := 400
        body := .encoded ⟨sampleEnvelope "bob" (n + 1), none⟩ }⟩

/-- With the peer's own address in the header. -/
theorem pushes_limited_sample :
    ∃ cfg, sampleServe = .ok cfg
      ∧ inSpan 0 60 (acceptedAt { cfg with rateLimitIpPerMin := 1, rateLimitToPerMin := 1 }
          (fun s call => call.peer { cfg with rateLimitIpPerMin := 1, rateLimitToPerMin := 1 } s)
          "10.0.0.9" emptyState (forwardedPushes ["10.0.0.9", "10.0.0.9", "10.0.0.9"]))
        ≤ 2 * 1 := by
  obtain ⟨cfg, hcfg, -⟩ := exists_ok_of_any (x := sampleServe) (p := fun _ => true)
    (by decide +kernel)
  have hone : 1 ≤ 1 ∧ 1 ≤ u32Max := by decide
  refine ⟨cfg, hcfg, (pushes_limited { cfg with rateLimitIpPerMin := 1, rateLimitToPerMin := 1 }
    hone hone emptyState ⟨rfl, rfl⟩ _ (by decide)).2.1 "10.0.0.9" (by decide +kernel) ?_ 0⟩
  intro call hcall _
  simp only [forwardedPushes, List.zipIdx_cons, List.zipIdx_nil, List.map_cons, List.map_nil,
    List.mem_cons, List.not_mem_nil, or_false] at hcall
  rcases hcall with rfl | rfl | rfl <;> decide +kernel

/-- **The header chooses the counter.** One push a minute is allowed from an address, and three of
    them from one connection are accepted in a second. -/
theorem headers_evade :
    ∃ cfg, sampleServe = .ok cfg ∧ ∃ calls : List PushCall,
      (∀ call ∈ calls, call.request.connectIp = some "10.0.0.9" ∧ call.nowSecs = 0)
      ∧ inSpan 0 60 (acceptedAt { cfg with rateLimitIpPerMin := 1 }
          (fun s call => call.peer { cfg with rateLimitIpPerMin := 1 } s) "10.0.0.9" emptyState
          calls)
        = 3 := by
  obtain ⟨cfg, hcfg, hrun⟩ := exists_ok_of_any (x := sampleServe)
    (p := fun cfg => inSpan 0 60 (acceptedAt { cfg with rateLimitIpPerMin := 1 }
      (fun s call => call.peer { cfg with rateLimitIpPerMin := 1 } s) "10.0.0.9" emptyState
      (forwardedPushes ["192.0.2.1", "192.0.2.2", "192.0.2.3"])) = 3)
    (by decide +kernel)
  refine ⟨cfg, hcfg, _, ?_, of_decide_eq_true hrun⟩
  simp [forwardedPushes]

end Nexum.Mailbox
