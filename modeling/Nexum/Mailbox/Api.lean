import Nexum.Lib.Hex
import Nexum.Lib.Table
import Nexum.Mailbox.Db
import Mathlib.Data.Nat.Bitwise

/-!
# The mailbox's HTTP interface

The three handlers, as the router calls them: what they check, in which order, and what they do to
the database and to the rate limits. Each operation has its own credential: one bearer token to
push, one for the administrator, and one per inbox to pull and one to acknowledge.

The recipient of an envelope is compared in six places here and in `db.rs`: by `validate_peer_id`,
which trims it; by the rate limit, the quota, the table and the notification, which take it as it
stands; and by the token maps, whose keys were trimmed when the configuration was read.

A header value is its text. A body is what `serde_json` makes of it, with its length. `pull` here
is what a request does up to its first look into the table; the wait is `Nexum.Mailbox.LongPoll`.
-/

namespace Nexum.Mailbox

open Nexum.Lib Nexum.Lib.Check Nexum.Transport

/-! ## 1. Comparing credentials -/

/-- `timing_safe_eq_fixed::<N>`: both texts are copied into zeroed buffers of `N` bytes, and the
    difference is collected over all of them. -/
def timingSafeEqFixed (n : Nat) (a b : String) : Bool :=
  let ab := utf8 a
  let bb := utf8 b
  if ab.length > n ∨ bb.length > n then false
  else
    let aBuf := ab ++ List.replicate (n - ab.length) 0
    let bBuf := bb ++ List.replicate (n - bb.length) 0
    let diff := (aBuf.zip bBuf).foldl (fun diff pair => diff ||| (pair.1 ^^^ pair.2).toNat)
      (ab.length ^^^ bb.length)
    diff == 0

theorem foldl_or_eq_zero (pairs : List (UInt8 × UInt8)) (diff : Nat) :
    pairs.foldl (fun diff pair => diff ||| (pair.1 ^^^ pair.2).toNat) diff = 0 ↔
      diff = 0 ∧ ∀ pair ∈ pairs, pair.1 = pair.2 := by
  induction pairs generalizing diff with
  | nil => simp
  | cons pair pairs ih =>
    have hpair : (pair.1 ^^^ pair.2).toNat = 0 ↔ pair.1 = pair.2 := by
      rw [← UInt8.toNat_zero, UInt8.toNat_inj, UInt8.xor_eq_zero_iff]
    rw [List.foldl_cons, ih, Nat.or_eq_zero_iff, hpair, List.forall_mem_cons, and_assoc]

theorem eq_of_zip {ab bb : List UInt8} (hlen : ab.length = bb.length)
    (h : ∀ pair ∈ ab.zip bb, pair.1 = pair.2) : ab = bb := by
  apply List.ext_getElem hlen
  intro k hk hk'
  have hmem : (ab[k], bb[k]) ∈ ab.zip bb := by
    rw [← List.getElem_zip (i := k) (h := by simp; omega)]
    exact List.getElem_mem _
  exact h _ hmem

/-- **Equal, and not too long.** -/
theorem timingSafeEqFixed_iff {n : Nat} {a b : String} :
    timingSafeEqFixed n a b = true ↔ a = b ∧ a.utf8ByteSize ≤ n := by
  have hsize : ∀ s : String, (utf8 s).length = s.utf8ByteSize := fun s => Array.length_toList
  unfold timingSafeEqFixed
  dsimp only
  split
  · rename_i hlong
    simp only [Bool.false_eq_true, false_iff, not_and]
    intro heq
    subst heq
    rw [hsize] at hlong
    omega
  · rename_i hshort
    rw [not_or, Nat.not_lt, Nat.not_lt] at hshort
    rw [beq_iff_eq, foldl_or_eq_zero, Nat.xor_eq_zero_iff]
    constructor
    · intro h
      have hbuf := eq_of_zip (by simp; omega) h.2
      rw [h.1] at hbuf
      refine ⟨utf8_injective (List.append_cancel_right hbuf), ?_⟩
      rw [← hsize]
      exact hshort.1
    · intro h
      obtain ⟨rfl, -⟩ := h
      refine ⟨rfl, ?_⟩
      intro pair hpair
      rw [List.zip_eq_zipWith, List.zipWith_self] at hpair
      obtain ⟨b, -, rfl⟩ := List.mem_map.mp hpair
      rfl

/-- **The comparison is equality of texts that fit.** The zeros behind a text count for nothing in
    the buffers; the lengths tell a text from itself with zeros appended. -/
theorem timing_safe_comparison (n : Nat) (a b : String) :
    (timingSafeEqFixed n a b = true ↔ a = b ∧ a.utf8ByteSize ≤ n)
    ∧ ∀ k, timingSafeEqFixed n a (a ++ String.ofList (List.replicate (k + 1) (.ofNat 0)))
      = false := by
  refine ⟨timingSafeEqFixed_iff, ?_⟩
  intro k
  rw [Bool.eq_false_iff, ne_eq, timingSafeEqFixed_iff]
  intro h
  have hlen := congrArg (fun s => s.toList.length) h.1
  simp at hlen

/-! ## 2. The configuration the handlers see -/

/-- `HashMap<String, String>`: its entries in the order it iterates over them. -/
structure TokenMap where
  entries : List (String × String)
  nodup : (entries.map Prod.fst).Nodup

namespace TokenMap

def empty : TokenMap := ⟨[], List.nodup_nil⟩

def keys (m : TokenMap) : List String := m.entries.map Prod.fst
def values (m : TokenMap) : List String := m.entries.map Prod.snd

def get? (m : TokenMap) (inbox : String) : Option String := m.entries.lookup inbox

/-- `insert`, where an entry that was there before is an error. -/
def insertNew (m : TokenMap) (inbox token : String) : Option TokenMap :=
  if h : inbox ∈ m.keys then none
  else
    some
      { entries := m.entries ++ [(inbox, token)]
        nodup := by
          rw [List.map_append, List.nodup_append]
          refine ⟨m.nodup, List.nodup_singleton _, ?_⟩
          intro key hkey key' hkey' heq
          obtain rfl := List.mem_singleton.mp hkey'
          exact h (heq ▸ hkey) }

theorem lookup_of_mem {entries : List (String × String)} (hnodup : (entries.map Prod.fst).Nodup)
    {inbox token : String} (h : (inbox, token) ∈ entries) :
    entries.lookup inbox = some token := by
  induction entries with
  | nil => exact absurd h List.not_mem_nil
  | cons entry entries ih =>
    rw [List.map_cons, List.nodup_cons] at hnodup
    rw [List.lookup_cons]
    rcases List.mem_cons.mp h with rfl | hmem
    · simp
    · have hkey : inbox ≠ entry.1 := by
        intro heq
        exact hnodup.1 (heq ▸ List.mem_map.mpr ⟨_, hmem, rfl⟩)
      simp only [beq_eq_false_iff_ne.mpr hkey]
      exact ih hnodup.2 hmem

theorem get?_eq_some {m : TokenMap} {inbox token : String} :
    m.get? inbox = some token ↔ (inbox, token) ∈ m.entries :=
  ⟨mem_of_lookup, lookup_of_mem m.nodup⟩

end TokenMap

structure ApiConfig where
  pushToken : Option String
  pullTokens : TokenMap
  ackTokens : TokenMap
  adminToken : Option String
  maxBodyBytes : Nat
  defaultTtlSecs : Nat
  maxTtlSecs : Nat
  leaseSecs : Nat
  maxWaitMs : Nat
  limits : MailboxLimits
  rateLimitIpPerMin : Nat
  rateLimitToPerMin : Nat

inductive StatusCode
  | payloadTooLarge | badRequest | internalServerError | unauthorized | forbidden
  | tooManyRequests | insufficientStorage | notFound
  deriving DecidableEq

structure ApiError where
  status : StatusCode
  detail : String
  retryAfterSecs : Option Nat
  deriving DecidableEq

def ApiError.new (status : StatusCode) (detail : String) : ApiError := ⟨status, detail, none⟩

def ApiError.withRetryAfter (status : StatusCode) (detail : String) (retryAfterSecs : Nat) :
    ApiError :=
  ⟨status, detail, some (max retryAfterSecs 1)⟩

structure Headers where
  authorization : Option String
  contentLength : Option String
  xForwardedFor : Option String
  xRealIp : Option String

/-- `HeaderValue::to_str`: only visible ASCII, blanks and tabs. -/
def toStr (value : String) : Option String :=
  if (chars value).all fun c => c == '\t' || (32 ≤ c.toNat && c.toNat < 127) then some value
  else none

/-! ## 3. Credentials -/

def authHeaderCompareMaxLen : Nat := 1024

def Headers.auth (headers : Headers) : String :=
  (headers.authorization.bind toStr).getD ""

/-- What a client sends that has a token. -/
def bearer (token : String) : String := "Bearer " ++ token

def requireBearer (token : Option String) (headers : Headers) (missingDetail : String) :
    Except ApiError Unit :=
  match token with
  | none => .error (.new .internalServerError missingDetail)
  | some token =>
    failIf (¬ timingSafeEqFixed authHeaderCompareMaxLen headers.auth (bearer token))
      (.new .unauthorized "unauthorized")

def requirePushAuth (cfg : ApiConfig) (headers : Headers) : Except ApiError Unit :=
  requireBearer cfg.pushToken headers "push auth is not configured"

def requirePullAuthForInbox (cfg : ApiConfig) (headers : Headers) (inbox : String) :
    Except ApiError Unit :=
  match cfg.pullTokens.get? inbox with
  | none => .error (.new .forbidden "inbox is not authorized for pull")
  | some token => requireBearer (some token) headers "pull auth is not configured"

def authorizedInboxForToken (tokens : TokenMap) (headers : Headers) (missingDetail : String) :
    Except ApiError String :=
  if tokens.entries = [] then .error (.new .internalServerError missingDetail)
  else
    match tokens.entries.find? fun entry =>
      timingSafeEqFixed authHeaderCompareMaxLen headers.auth (bearer entry.2) with
    | some entry => .ok entry.1
    | none => .error (.new .unauthorized "unauthorized")

def requireAdminAuth (cfg : ApiConfig) (headers : Headers) : Except ApiError Unit :=
  requireBearer cfg.adminToken headers "admin auth is not configured"

/-- The header carries this token, and the handlers can tell. -/
def Presents (headers : Headers) (token : String) : Prop :=
  headers.auth = bearer token ∧ (bearer token).utf8ByteSize ≤ authHeaderCompareMaxLen

theorem presents_iff {headers : Headers} {token : String} :
    timingSafeEqFixed authHeaderCompareMaxLen headers.auth (bearer token) = true ↔
      Presents headers token := by
  rw [timingSafeEqFixed_iff, Presents]
  constructor
  · intro h
    exact ⟨h.1, h.1 ▸ h.2⟩
  · intro h
    exact ⟨h.1, h.1.symm ▸ h.2⟩

theorem bearer_inj {token token' : String} (h : bearer token = bearer token') :
    token = token' := by
  unfold bearer at h
  simpa using h

theorem Presents.inj {headers : Headers} {token token' : String} (h : Presents headers token)
    (h' : Presents headers token') : token = token' :=
  bearer_inj (h.1.symm.trans h'.1)

theorem requireBearer_eq_ok {token : Option String} {headers : Headers} {detail : String} :
    requireBearer token headers detail = .ok () ↔ ∃ t, token = some t ∧ Presents headers t := by
  cases token with
  | none => simp [requireBearer]
  | some t => simp [requireBearer, presents_iff]

theorem requirePullAuthForInbox_eq_ok {cfg : ApiConfig} {headers : Headers} {inbox : String} :
    requirePullAuthForInbox cfg headers inbox = .ok () ↔
      ∃ t, cfg.pullTokens.get? inbox = some t ∧ Presents headers t := by
  unfold requirePullAuthForInbox
  cases cfg.pullTokens.get? inbox with
  | none => simp
  | some t => simp [requireBearer_eq_ok]

theorem authorizedInboxForToken_eq_ok {tokens : TokenMap} (hvalues : tokens.values.Nodup)
    {headers : Headers} {detail inbox : String} :
    authorizedInboxForToken tokens headers detail = .ok inbox ↔
      ∃ t, tokens.get? inbox = some t ∧ Presents headers t := by
  unfold authorizedInboxForToken
  constructor
  · intro h
    split at h
    · exact absurd h (by simp)
    · split at h
      · rename_i entry hfind
        simp only [Except.ok.injEq] at h
        subst h
        have hpresents := List.find?_some hfind
        rw [presents_iff] at hpresents
        exact ⟨entry.2, TokenMap.get?_eq_some.mpr (List.mem_of_find?_eq_some hfind), hpresents⟩
      · exact absurd h (by simp)
  · rintro ⟨t, ht, hpresents⟩
    have hmem := TokenMap.get?_eq_some.mp ht
    rw [if_neg (List.ne_nil_of_mem hmem)]
    cases hfind : tokens.entries.find? fun entry =>
        timingSafeEqFixed authHeaderCompareMaxLen headers.auth (bearer entry.2) with
    | none =>
      have hnone := List.find?_eq_none.mp hfind (inbox, t) hmem
      exact absurd (presents_iff.mpr hpresents) hnone
    | some entry =>
      have hentry := List.find?_some hfind
      rw [presents_iff] at hentry
      have hsame : entry = (inbox, t) :=
        List.inj_on_of_nodup_map hvalues (List.mem_of_find?_eq_some hfind) hmem
          (hentry.inj hpresents)
      rw [hsame]

/-! ## 4. Rate limits -/

structure WindowCounter where
  startedAt : Nat
  count : Nat
  deriving DecidableEq

structure FixedWindowLimiter where
  entries : List (String × WindowCounter)
  deriving DecidableEq

def u32Max : Nat := 2 ^ 32 - 1

def FixedWindowLimiter.set (limiter : FixedWindowLimiter) (key : String)
    (counter : WindowCounter) : FixedWindowLimiter :=
  ⟨upsert (·.1 = key) (fun _ => (key, counter)) (key, counter) limiter.entries⟩

/-- `check`: the seconds to wait, if the key is over its limit. -/
def FixedWindowLimiter.check (limiter : FixedWindowLimiter) (key : String)
    (limitPerMin now : Nat) : Option Nat × FixedWindowLimiter :=
  if limitPerMin = 0 ∨ isBlank key then (none, limiter)
  else
    let counter := (limiter.entries.lookup key).getD ⟨now, 0⟩
    let counter := if now - counter.startedAt ≥ 60 then ⟨now, 0⟩ else counter
    if counter.count ≥ limitPerMin then
      (some (60 - min (now - counter.startedAt) 60), limiter.set key counter)
    else
      let limiter := limiter.set key { counter with count := min (counter.count + 1) u32Max }
      if limiter.entries.length > 50000 then
        (none, ⟨limiter.entries.filter fun entry => now - entry.2.startedAt < 120⟩)
      else (none, limiter)

/-! ## 5. The handlers -/

structure AppState where
  db : Db
  byTo : FixedWindowLimiter
  byIp : FixedWindowLimiter
  /-- The inboxes whose waiters were notified, in order. -/
  notified : List String

structure PushRequest where
  envelope : NxmsEnvelope
  ttlSecs : Option Nat

structure PushHttp where
  headers : Headers
  connectIp : Option String
  bodyLen : Nat
  body : Json PushRequest

structure PushResponse where
  ok : Bool
  dedup : Bool
  deriving DecidableEq

structure PullRequest where
  inbox : String
  max : Option Nat
  waitMs : Option Nat

structure AckRequest where
  receipt : String

/-- `parse::<usize>()`. -/
def parseUsize (s : String) : Option Nat :=
  let digits := match chars s with
    | '+' :: digits => digits
    | digits => digits
  if digits = [] ∨ ¬ digits.all Char.isDigit then none
  else
    let n := digits.foldl (fun n c => n * 10 + (c.toNat - 48)) 0
    if n ≤ u64Max then some n else none

def extractSourceIp (connectIp : Option String) (headers : Headers) : String :=
  let forwarded := (headers.xForwardedFor.bind toStr).map fun v =>
    trim (String.ofList ((chars v).takeWhile (· ≠ ',')))
  let real := (headers.xRealIp.bind toStr).map trim
  match forwarded.filter (· ≠ ""), real.filter (· ≠ "") with
  | some ip, _ => ip
  | none, some ip => ip
  | none, none => connectIp.getD "unknown"

def enforcePushRateLimits (cfg : ApiConfig) (nowSecs : Nat) (connectIp : Option String)
    (headers : Headers) (inbox : String) (state : AppState) : Except ApiError Unit × AppState :=
  match state.byTo.check inbox cfg.rateLimitToPerMin nowSecs with
  | (some secs, byTo) =>
    (.error (.withRetryAfter .tooManyRequests "rate limit exceeded for target inbox" secs),
      { state with byTo })
  | (none, byTo) =>
    match state.byIp.check (extractSourceIp connectIp headers) cfg.rateLimitIpPerMin nowSecs with
    | (some secs, byIp) =>
      (.error (.withRetryAfter .tooManyRequests "rate limit exceeded for source ip" secs),
        { state with byTo, byIp })
    | (none, byIp) => (.ok (), { state with byTo, byIp })

def mapPushRejection : PushRejection → ApiError
  | .inboxMessageLimit => .new .insufficientStorage "inbox message quota exceeded"
  | .inboxBytesLimit => .new .insufficientStorage "inbox bytes quota exceeded"
  | .globalRowsLimit => .new .insufficientStorage "global mailbox row quota exceeded"

/-- What `push` does before it knows the recipient. -/
def readPush (cfg : ApiConfig) (request : PushHttp) : Except ApiError PushRequest := do
  requirePushAuth cfg request.headers
  let maxBodyBytes := max cfg.maxBodyBytes 1
  let tooLarge : ApiError :=
    .new .payloadTooLarge s!"request body exceeds {maxBodyBytes} bytes"
  failIf (((request.headers.contentLength.bind toStr).bind parseUsize).any (· > maxBodyBytes))
    tooLarge
  failIf (request.bodyLen > maxBodyBytes) tooLarge
  request.body.fromStr.mapError fun e => .new .badRequest s!"invalid push json: {e}"

/-- The envelope is checked and the time to live is settled. -/
def settleTtl (cfg : ApiConfig) (req : PushRequest) : Except ApiError Nat := do
  req.envelope.validateBasic.mapError (.new .badRequest)
  let ttlSecs := req.ttlSecs.getD cfg.defaultTtlSecs
  failIf (ttlSecs = 0) (.new .badRequest "ttl_secs must be > 0")
  pure (min ttlSecs (max cfg.maxTtlSecs 1))

def push (cfg : ApiConfig) (now : Int) (nowSecs : Nat) (request : PushHttp) (state : AppState) :
    Except ApiError PushResponse × AppState :=
  match readPush cfg request with
  | .error e => (.error e, state)
  | .ok req =>
    match enforcePushRateLimits cfg nowSecs request.connectIp request.headers req.envelope.to_
        state with
    | (.error e, state) => (.error e, state)
    | (.ok (), state) =>
      match settleTtl cfg req with
      | .error e => (.error e, state)
      | .ok ttlSecs =>
        match pushSync now req.envelope ttlSecs cfg.limits state.db with
        | (.error e, db) => (.error (.new .internalServerError e), { state with db })
        | (.ok ⟨_, some rejection⟩, db) => (.error (mapPushRejection rejection), { state with db })
        | (.ok ⟨true, none⟩, db) => (.ok ⟨true, true⟩, { state with db })
        | (.ok ⟨false, none⟩, db) =>
          (.ok ⟨true, false⟩, { state with db, notified := state.notified ++ [req.envelope.to_] })

/-- `random_hex_16`. -/
def randomHex16 (b : Fin 16 → UInt8) : String := hexEncode (List.ofFn b)

def checkPull (cfg : ApiConfig) (headers : Headers) (req : PullRequest) : Except ApiError Unit := do
  (validatePeerId req.inbox).mapError fun e => .new .badRequest s!"invalid to: {e}"
  requirePullAuthForInbox cfg headers req.inbox

def pullLimit (req : PullRequest) : Nat := min (max (req.max.getD 10) 1) 50

/-- `pull`, up to the first look into the table. -/
def pull (cfg : ApiConfig) (now : Int) (draw : Nat → Fin 16 → UInt8) (headers : Headers)
    (req : PullRequest) (state : AppState) : Except ApiError (List LeasedMessage) × AppState :=
  match checkPull cfg headers req with
  | .error e => (.error e, state)
  | .ok () =>
    match pullSync now req.inbox (pullLimit req) cfg.leaseSecs (fun k => randomHex16 (draw k))
        state.db with
    | (messages, db) => (.ok messages, { state with db })

def ack (cfg : ApiConfig) (headers : Headers) (req : AckRequest) (state : AppState) :
    Except ApiError Unit × AppState :=
  match authorizedInboxForToken cfg.ackTokens headers "ack auth is not configured" with
  | .error e => (.error e, state)
  | .ok inbox =>
    let receipt := trim req.receipt
    if receipt = "" then (.error (.new .badRequest "receipt must not be empty"), state)
    else
      match ackSync receipt inbox state.db with
      | (true, db) => (.ok (), { state with db })
      | (false, db) => (.error (.new .notFound "unknown receipt"), { state with db })

end Nexum.Mailbox
