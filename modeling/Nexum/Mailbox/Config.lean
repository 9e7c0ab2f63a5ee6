import Nexum.Mailbox.Api

/-!
# Configuring the mailbox

`Serve` takes its configuration from a TOML file, or from options and environment variables. The
credentials are worth something only if no two of them are equal: a token shared by two inboxes
opens both, and a push token that is also the administrator's gives its holder the statistics.

The two ways are validated by two functions. `MailboxConfig::normalize` reads the file: it resolves
the secrets, wants the same inboxes in both maps and every token once. `require_scoped_tokens`
reads one option: it wants every token once **in that option**, and nobody compares the options
with each other.

The world `Serve` looks at (variables, files, the address parser, the database) is a `Host`.
-/

namespace Nexum.Mailbox

open Nexum.Lib Nexum.Lib.Check

/-! ## 1. Secrets -/

structure MailboxConfig where
  bind : String
  maxBodyBytes : Nat
  defaultTtlSecs : Nat
  maxTtlSecs : Nat
  leaseSecs : Nat
  maxWaitMs : Nat
  pushToken : String
  pullTokens : TokenMap
  ackTokens : TokenMap
  adminToken : String
  cleanupSecs : Nat
  checkpointSecs : Nat
  maxMessagesPerInbox : UInt64
  maxBytesPerInbox : UInt64
  maxRowsGlobal : UInt64
  rateLimitIpPerMin : Nat
  rateLimitToPerMin : Nat
  productionHardening : Bool

structure FileMeta where
  isFile : Bool
  mode : Nat

structure Host where
  var : String → Option String
  metadata : String → Except String FileMeta
  readToString : String → Except String String
  /-- The parser of socket addresses; of an address it matters whether it is a loopback one. -/
  isLoopback : String → Except String Bool
  /-- The TOML file at a path. -/
  readConfig : String → Except String MailboxConfig
  initDb : Except String Unit

def stripPrefix (s pre : String) : Option String :=
  if (chars pre).isPrefixOf (chars s) then some (String.ofList ((chars s).drop (chars pre).length))
  else none

/-- `{:03o}`. -/
def octal3 (n : Nat) : String :=
  let digits := Nat.toDigits 8 n
  String.ofList (List.replicate (3 - digits.length) '0' ++ digits)

def readSecretFile (host : Host) (path label : String) (requireOwnerOnly : Bool) :
    Except String String := do
  let stat ← (host.metadata path).mapError fun e =>
    s!"{label} failed to read metadata for '{path}': {e}"
  failIf (¬ stat.isFile) s!"{label} secret source '{path}' is not a regular file"
  let mode := stat.mode &&& 0o777
  failIf (requireOwnerOnly ∧ mode &&& 0o077 ≠ 0)
    s!"{label} vault file '{path}' must not be group/other accessible (mode {octal3 mode})"
  let value ← (host.readToString path).mapError fun e =>
    s!"{label} failed to read file '{path}': {e}"
  let out := trim value
  failIf (out = "") s!"{label} file '{path}' is empty"
  pure out

def resolveSecretValue (host : Host) (raw label : String) : Except String String := do
  let trimmed := trim raw
  match stripPrefix trimmed "env:" with
  | some varName =>
    let key := trim varName
    failIf (key = "") s!"{label} env: prefix without variable name"
    let value ← okOr (host.var key) s!"{label} env variable '{key}' is missing"
    let out := trim value
    failIf (out = "") s!"{label} env variable '{key}' is empty"
    pure out
  | none =>
    match stripPrefix trimmed "vault:", stripPrefix trimmed "file:" with
    | some pathRaw, _ =>
      failIf (trim pathRaw = "") s!"{label} vault: prefix without path"
      readSecretFile host (trim pathRaw) label true
    | none, some pathRaw =>
      failIf (trim pathRaw = "") s!"{label} file: prefix without path"
      readSecretFile host (trim pathRaw) label false
    | none, none =>
      failIf (trimmed = "") s!"{label} must not be empty"
      pure trimmed

def secretUsesVaultReference (raw : String) : Bool :=
  match stripPrefix (trim raw) "vault:" with
  | some v => trim v ≠ ""
  | none => false

/-! ## 2. The file -/

def normalizeEntries (host : Host) (label : String) :
    List (String × String) → TokenMap → Except String TokenMap
  | [], normalized => .ok normalized
  | (inboxRaw, tokenRaw) :: raw, normalized => do
    let inbox := trim inboxRaw
    failIf (inbox = "") s!"{label} contains empty inbox key"
    let token ← resolveSecretValue host tokenRaw s!"{label}.{inbox}"
    let normalized ← okOr (normalized.insertNew inbox token)
      s!"{label} contains duplicate inbox '{inbox}'"
    normalizeEntries host label raw normalized

def normalizeScopedTokens (host : Host) (tokens : TokenMap) (label : String) :
    Except String TokenMap :=
  normalizeEntries host label tokens.entries .empty

/-- The tokens of a scope are added to those seen so far. -/
def claimTokens (err : String → String) :
    List String → List (String × String) → Except String (List String)
  | seen, [] => .ok seen
  | seen, (owner, token) :: rest =>
    if token ∈ seen then .error (err owner) else claimTokens err (token :: seen) rest

/-- The part of `normalize` that compares the scopes. -/
def checkScopes (pushToken adminToken : String) (pullTokens ackTokens : TokenMap) :
    Except String Unit := do
  failIf (pullTokens.entries = []) "pull_tokens must define at least one inbox scope"
  failIf (ackTokens.entries = []) "ack_tokens must define at least one inbox scope"
  failIf (¬ (pullTokens.keys ⊆ ackTokens.keys ∧ ackTokens.keys ⊆ pullTokens.keys))
    "pull_tokens and ack_tokens must define the same inbox scopes"
  let seen ← claimTokens (fun label => s!"{label} reuses a token already assigned to another scope")
    [] [("push_token", pushToken), ("admin_token", adminToken)]
  let seen ← claimTokens (fun inbox =>
    s!"pull_tokens inbox '{inbox}' reuses a token already assigned to another scope")
    seen pullTokens.entries
  let _ ← claimTokens (fun inbox =>
    s!"ack_tokens inbox '{inbox}' reuses a token already assigned to another scope")
    seen ackTokens.entries
  pure ()

/-- Each token of a map is long enough and came from a vault. The references are looked up under
    the key as the file has it. -/
def checkHardenedTokens (label : String) (raw normalized : TokenMap) : Except String Unit :=
  normalized.entries.forM fun entry => do
    let inbox := entry.1
    failIf (entry.2.utf8ByteSize < 16)
      s!"production_hardening=true requires {label}.{inbox} with min 16 chars"
    failIf (¬ ((raw.get? inbox).map secretUsesVaultReference).getD false)
      s!"production_hardening=true requires {label}.{inbox} to use vault: secret reference"

def checkHardening (raw normalized : MailboxConfig) : Except String Unit := do
  failIf (normalized.pushToken.utf8ByteSize < 16)
    "production_hardening=true requires push_token with min 16 chars"
  failIf (normalized.adminToken.utf8ByteSize < 16)
    "production_hardening=true requires admin_token with min 16 chars"
  failIf (¬ secretUsesVaultReference raw.pushToken)
    "production_hardening=true requires push_token to use vault: secret reference"
  failIf (¬ secretUsesVaultReference raw.adminToken)
    "production_hardening=true requires admin_token to use vault: secret reference"
  checkHardenedTokens "pull_tokens" raw.pullTokens normalized.pullTokens
  checkHardenedTokens "ack_tokens" raw.ackTokens normalized.ackTokens

def MailboxConfig.bindAddr (host : Host) (cfg : MailboxConfig) : Except String Bool :=
  (host.isLoopback cfg.bind).mapError fun e => s!"invalid bind address '{cfg.bind}': {e}"

def MailboxConfig.normalize (host : Host) (cfg : MailboxConfig) : Except String MailboxConfig := do
  let loopback ← cfg.bindAddr host
  failIf (¬ loopback) s!"bind must use loopback address; got '{cfg.bind}'"
  let pushToken ← resolveSecretValue host cfg.pushToken "push_token"
  let adminToken ← resolveSecretValue host cfg.adminToken "admin_token"
  let pullTokens ← normalizeScopedTokens host cfg.pullTokens "pull_tokens"
  let ackTokens ← normalizeScopedTokens host cfg.ackTokens "ack_tokens"
  checkScopes pushToken adminToken pullTokens ackTokens
  let defaultTtlSecs := max cfg.defaultTtlSecs 30
  let normalized : MailboxConfig :=
    { cfg with
      pushToken, adminToken, pullTokens, ackTokens, defaultTtlSecs
      maxBodyBytes := max cfg.maxBodyBytes 1024
      maxTtlSecs := max cfg.maxTtlSecs defaultTtlSecs
      leaseSecs := max cfg.leaseSecs 1
      maxWaitMs := min (max cfg.maxWaitMs 1) 60000
      cleanupSecs := max cfg.cleanupSecs 1
      checkpointSecs := max cfg.checkpointSecs 1
      maxMessagesPerInbox := max cfg.maxMessagesPerInbox 1
      maxBytesPerInbox := max cfg.maxBytesPerInbox 1024
      maxRowsGlobal := max cfg.maxRowsGlobal 1 }
  if cfg.productionHardening then checkHardening cfg normalized
  pure normalized

def MailboxConfig.fromTomlPath (host : Host) (path : String) : Except String MailboxConfig := do
  let cfg ← host.readConfig path
  cfg.normalize host

def MailboxConfig.apiConfig (cfg : MailboxConfig) : ApiConfig where
  pushToken := some cfg.pushToken
  pullTokens := cfg.pullTokens
  ackTokens := cfg.ackTokens
  adminToken := some cfg.adminToken
  maxBodyBytes := cfg.maxBodyBytes
  defaultTtlSecs := cfg.defaultTtlSecs
  maxTtlSecs := cfg.maxTtlSecs
  leaseSecs := cfg.leaseSecs
  maxWaitMs := cfg.maxWaitMs
  limits := ⟨cfg.maxMessagesPerInbox, cfg.maxBytesPerInbox, cfg.maxRowsGlobal⟩
  rateLimitIpPerMin := cfg.rateLimitIpPerMin
  rateLimitToPerMin := cfg.rateLimitToPerMin

/-! ## 3. The options -/

def requireToken (name : String) (value : Option String) : Except String String :=
  okOr (trimmedNonEmpty value) s!"{name} must be set and non-empty"

/-- `split_once('=')`. -/
def splitOnce (entry : String) : Option (String × String) :=
  match (chars entry).span (· ≠ '=') with
  | (inbox, _ :: token) => some (String.ofList inbox, String.ofList token)
  | (_, []) => none

def requireScopedEntries (name : String) :
    List String → TokenMap → List String → Except String TokenMap
  | [], tokens, _ => .ok tokens
  | entry :: entries, tokens, seenTokenValues => do
    let entry := trim entry
    failIf (entry = "") s!"{name} contains an empty entry"
    let halves ← okOr (splitOnce entry) s!"{name} entries must have inbox=token format"
    let inbox := trim halves.1
    let token := trim halves.2
    failIf (inbox = "" ∨ token = "") s!"{name} entries must have non-empty inbox and token"
    let tokens ← okOr (tokens.insertNew inbox token)
      s!"{name} contains duplicate inbox `{inbox}`"
    failIf (token ∈ seenTokenValues) s!"{name} reuses the same token across inbox scopes"
    requireScopedEntries name entries tokens (token :: seenTokenValues)

def requireScopedTokens (name : String) (value : Option String) : Except String TokenMap := do
  let value ← okOr value s!"{name} must be set and non-empty"
  let raw := trim value
  failIf (raw = "") s!"{name} must be set and non-empty"
  let tokens ← requireScopedEntries name (((chars raw).splitOn ',').map String.ofList) .empty []
  failIf (tokens.entries = []) s!"{name} must define at least one inbox token"
  pure tokens

/-- The options of `Serve`. -/
structure ServeArgs where
  config : Option String
  bind : String
  maxBodyBytes : Nat
  defaultTtlSecs : Nat
  maxTtlSecs : Nat
  leaseSecs : Nat
  maxWaitMs : Nat
  pushToken : Option String
  pullTokens : Option String
  ackTokens : Option String
  adminToken : Option String
  cleanupSecs : Nat
  checkpointSecs : Nat
  maxMessagesPerInbox : UInt64
  maxBytesPerInbox : UInt64
  maxRowsGlobal : UInt64
  rateLimitIpPerMin : Nat
  rateLimitToPerMin : Nat

/-- The credentials the options give. -/
structure CliTokens where
  pushToken : String
  pullTokens : TokenMap
  ackTokens : TokenMap
  adminToken : String

def ServeArgs.tokens (args : ServeArgs) : Except String CliTokens := do
  let pushToken ← requireToken "NXMS_MAILBOX_PUSH_TOKEN" args.pushToken
  let pullTokens ← requireScopedTokens "NXMS_MAILBOX_PULL_TOKENS" args.pullTokens
  let ackTokens ← requireScopedTokens "NXMS_MAILBOX_ACK_TOKENS" args.ackTokens
  let adminToken ← requireToken "NXMS_MAILBOX_ADMIN_TOKEN" args.adminToken
  pure ⟨pushToken, pullTokens, ackTokens, adminToken⟩

def ServeArgs.mailboxConfig (args : ServeArgs) (tokens : CliTokens) : MailboxConfig :=
  { tokens, args with productionHardening := false }

def ServeArgs.load (host : Host) (args : ServeArgs) : Except String MailboxConfig :=
  match args.config with
  | some path => MailboxConfig.fromTomlPath host path
  | none => do
    let tokens ← args.tokens
    pure (args.mailboxConfig tokens)

/-- `Command::Serve`, up to the point where it listens. -/
def serve (host : Host) (args : ServeArgs) : Except String ApiConfig := do
  let loaded ← args.load host
  let _ ← loaded.bindAddr host
  host.initDb
  pure loaded.apiConfig

/-! ## 4. What the checks establish -/

theorem claimTokens_eq_ok {err : String → String} {seen seen' : List String}
    {entries : List (String × String)} (hseen : seen.Nodup) :
    claimTokens err seen entries = .ok seen' ↔
      seen' = (entries.map Prod.snd).reverse ++ seen ∧
        ((entries.map Prod.snd).reverse ++ seen).Nodup := by
  induction entries generalizing seen with
  | nil =>
    simp only [claimTokens, Except.ok.injEq, List.map_nil, List.reverse_nil, List.nil_append]
    exact ⟨fun h => ⟨h.symm, hseen⟩, fun h => h.1.symm⟩
  | cons entry entries ih =>
    obtain ⟨owner, token⟩ := entry
    simp only [claimTokens, List.map_cons, List.reverse_cons, List.append_assoc,
      List.singleton_append]
    by_cases hmem : token ∈ seen
    · -- a token that was seen stays in the list, twice
      rw [if_pos hmem]
      simp only [reduceCtorEq, false_iff, not_and]
      intro _ hnodup
      have htail : (token :: seen).Nodup := hnodup.of_append_right
      exact (List.nodup_cons.mp htail).1 hmem
    · rw [if_neg hmem]
      exact ih (List.nodup_cons.mpr ⟨hmem, hseen⟩)

/-- **What `normalize` compares.** -/
theorem checkScopes_eq_ok {pushToken adminToken : String} {pullTokens ackTokens : TokenMap} :
    checkScopes pushToken adminToken pullTokens ackTokens = .ok () ↔
      (pullTokens.entries ≠ [] ∧ ackTokens.entries ≠ []) ∧
        (∀ inbox, inbox ∈ pullTokens.keys ↔ inbox ∈ ackTokens.keys) ∧
        ([pushToken, adminToken] ++ pullTokens.values ++ ackTokens.values).Nodup := by
  have hreverse : ([pushToken, adminToken] ++ pullTokens.values ++ ackTokens.values).Nodup ↔
      (ackTokens.values.reverse
        ++ (pullTokens.values.reverse ++ [adminToken, pushToken])).Nodup := by
    rw [← List.nodup_reverse]
    simp
  rw [hreverse]
  simp only [checkScopes, bind_eq_ok, failIf_eq_ok, exists_unit, pure_eq_ok]
  constructor
  · rintro ⟨hpull, hack, hkeys, seen, hfirst, seen', hsecond, seen'', hthird, -⟩
    rw [claimTokens_eq_ok List.nodup_nil] at hfirst
    obtain ⟨rfl, hfirst⟩ := hfirst
    rw [claimTokens_eq_ok hfirst] at hsecond
    obtain ⟨rfl, hsecond⟩ := hsecond
    rw [claimTokens_eq_ok hsecond] at hthird
    rw [not_not] at hkeys
    exact ⟨⟨hpull, hack⟩, fun inbox => ⟨fun h => hkeys.1 h, fun h => hkeys.2 h⟩, hthird.2⟩
  · rintro ⟨⟨hpull, hack⟩, hkeys, hnodup⟩
    have hsecond : (pullTokens.values.reverse ++ [adminToken, pushToken]).Nodup :=
      hnodup.of_append_right
    have hfirst : [adminToken, pushToken].Nodup := hsecond.of_append_right
    refine ⟨hpull, hack, ?_, _, (claimTokens_eq_ok List.nodup_nil).mpr ⟨rfl, hfirst⟩, _,
      (claimTokens_eq_ok hfirst).mpr ⟨rfl, hsecond⟩, _,
      (claimTokens_eq_ok hsecond).mpr ⟨rfl, hnodup⟩, trivial⟩
    rw [not_not]
    exact ⟨fun inbox h => (hkeys inbox).mp h, fun inbox h => (hkeys inbox).mpr h⟩

theorem requireScopedEntries_values {name : String} {entries : List String}
    {tokens tokens' : TokenMap} {seen : List String}
    (hseen : ∀ token, token ∈ tokens.values → token ∈ seen) (hnodup : tokens.values.Nodup)
    (h : requireScopedEntries name entries tokens seen = .ok tokens') : tokens'.values.Nodup := by
  induction entries generalizing tokens seen with
  | nil =>
    simp only [requireScopedEntries, Except.ok.injEq] at h
    rw [← h]
    exact hnodup
  | cons entry entries ih =>
    simp only [requireScopedEntries, bind_eq_ok, failIf_eq_ok, okOr_eq_ok, exists_unit] at h
    obtain ⟨-, halves, -, -, next, hinsert, hfresh, hrest⟩ := h
    unfold TokenMap.insertNew at hinsert
    split at hinsert
    · exact absurd hinsert (by simp)
    · simp only [Option.some.injEq] at hinsert
      subst hinsert
      refine ih ?_ ?_ hrest
      · intro token htoken
        simp only [TokenMap.values, List.map_append, List.map_cons, List.map_nil,
          List.mem_append, List.mem_singleton] at htoken
        rcases htoken with htoken | rfl
        · exact List.mem_cons_of_mem _ (hseen token htoken)
        · exact List.mem_cons_self
      · simp only [TokenMap.values, List.map_append, List.map_cons, List.map_nil]
        rw [List.nodup_append]
        refine ⟨hnodup, List.nodup_singleton _, ?_⟩
        intro token htoken token' htoken' heq
        obtain rfl := List.mem_singleton.mp htoken'
        exact hfresh (heq ▸ hseen token htoken)

theorem requireScopedTokens_spec {name : String} {value : Option String} {tokens : TokenMap}
    (h : requireScopedTokens name value = .ok tokens) :
    tokens.entries ≠ [] ∧ tokens.values.Nodup := by
  simp only [requireScopedTokens, bind_eq_ok, failIf_eq_ok, okOr_eq_ok, exists_unit,
    pure_eq_ok] at h
  obtain ⟨value', -, -, parsed, hparsed, hne, rfl⟩ := h
  have hempty : TokenMap.empty.values = [] := rfl
  refine ⟨hne, requireScopedEntries_values ?_ ?_ hparsed⟩
  · simp [hempty]
  · simp [hempty]

theorem normalize_scopes {host : Host} {cfg normalized : MailboxConfig}
    (h : cfg.normalize host = .ok normalized) :
    checkScopes normalized.pushToken normalized.adminToken normalized.pullTokens
      normalized.ackTokens = .ok () := by
  simp only [MailboxConfig.normalize, bind_eq_ok, failIf_eq_ok, exists_unit] at h
  obtain ⟨_, -, -, push, -, admin, -, pulls, -, acks, -, hscopes, hrest⟩ := h
  split at hrest
  · rw [bind_eq_ok] at hrest
    obtain ⟨_, -, hrest⟩ := hrest
    simp only [pure_eq_ok] at hrest
    rw [← hrest]
    exact hscopes
  · simp only [pure_eq_ok] at hrest
    rw [← hrest]
    exact hscopes

/-- The tokens of the mailbox that starts: those of the file, compared, or those of the options. -/
theorem serve_tokens {host : Host} {args : ServeArgs} {cfg : ApiConfig}
    (h : serve host args = .ok cfg) :
    (args.config.isSome = true ∧ ∃ pushToken adminToken, cfg.pushToken = some pushToken ∧
      cfg.adminToken = some adminToken ∧
      checkScopes pushToken adminToken cfg.pullTokens cfg.ackTokens = .ok ()) ∨
    (args.config = none ∧ ∃ tokens, args.tokens = .ok tokens ∧
      cfg.pushToken = some tokens.pushToken ∧ cfg.adminToken = some tokens.adminToken ∧
      cfg.pullTokens = tokens.pullTokens ∧ cfg.ackTokens = tokens.ackTokens) := by
  simp only [serve, bind_eq_ok, exists_unit, pure_eq_ok] at h
  obtain ⟨loaded, hloaded, _, -, -, rfl⟩ := h
  unfold ServeArgs.load at hloaded
  cases hconfig : args.config with
  | some path =>
    left
    rw [hconfig] at hloaded
    simp only [MailboxConfig.fromTomlPath, bind_eq_ok] at hloaded
    obtain ⟨raw, -, hnormalized⟩ := hloaded
    exact ⟨rfl, _, _, rfl, rfl, normalize_scopes hnormalized⟩
  | none =>
    right
    rw [hconfig] at hloaded
    simp only [bind_eq_ok, pure_eq_ok] at hloaded
    obtain ⟨tokens, htokens, rfl⟩ := hloaded
    exact ⟨rfl, tokens, htokens, rfl, rfl, rfl, rfl⟩

/-! ## 5. One credential, one operation -/

inductive Scope
  | push
  | admin
  | pull (inbox : String)
  | ack (inbox : String)
  deriving DecidableEq

/-- The request gets past the check of its credential. -/
def Authorises (cfg : ApiConfig) (headers : Headers) : Scope → Prop
  | .push => requirePushAuth cfg headers = .ok ()
  | .admin => requireAdminAuth cfg headers = .ok ()
  | .pull inbox => requirePullAuthForInbox cfg headers inbox = .ok ()
  | .ack inbox =>
    authorizedInboxForToken cfg.ackTokens headers "ack auth is not configured" = .ok inbox

/-- Who is given which token. -/
def ApiConfig.grants (cfg : ApiConfig) : List (Scope × String) :=
  cfg.pushToken.toList.map (.push, ·) ++ cfg.adminToken.toList.map (.admin, ·) ++
    cfg.pullTokens.entries.map (fun entry => (.pull entry.1, entry.2)) ++
    cfg.ackTokens.entries.map (fun entry => (.ack entry.1, entry.2))

theorem authorises_iff {cfg : ApiConfig} (hacks : cfg.ackTokens.values.Nodup) {headers : Headers}
    {scope : Scope} :
    Authorises cfg headers scope ↔
      ∃ token, (scope, token) ∈ cfg.grants ∧ Presents headers token := by
  cases scope with
  | push =>
    simp [Authorises, requirePushAuth, requireBearer_eq_ok, ApiConfig.grants]
  | admin =>
    simp [Authorises, requireAdminAuth, requireBearer_eq_ok, ApiConfig.grants]
  | pull inbox =>
    simp [Authorises, requirePullAuthForInbox_eq_ok, TokenMap.get?_eq_some, ApiConfig.grants]
  | ack inbox =>
    simp [Authorises, authorizedInboxForToken_eq_ok hacks, TokenMap.get?_eq_some,
      ApiConfig.grants]

/-- No token is given twice, both maps are about the same inboxes, and so whoever is let in
    anywhere is let in at one place. -/
structure Scoped (cfg : ApiConfig) : Prop where
  tokens : (cfg.grants.map Prod.snd).Nodup
  inboxes : ∀ inbox, inbox ∈ cfg.pullTokens.keys ↔ inbox ∈ cfg.ackTokens.keys
  exclusive : ∀ headers, (∃ scope, Authorises cfg headers scope) →
    ∃! scope, Authorises cfg headers scope
  honoured : ∀ headers scope token, (scope, token) ∈ cfg.grants → Presents headers token →
    Authorises cfg headers scope

/-- The options pass the comparison that a file has to pass. -/
def OptionsScoped (args : ServeArgs) : Prop :=
  ∃ tokens, args.tokens = .ok tokens ∧
    checkScopes tokens.pushToken tokens.adminToken tokens.pullTokens tokens.ackTokens = .ok ()

theorem scoped_of_nodup {cfg : ApiConfig} (htokens : (cfg.grants.map Prod.snd).Nodup)
    (hinboxes : ∀ inbox, inbox ∈ cfg.pullTokens.keys ↔ inbox ∈ cfg.ackTokens.keys) :
    Scoped cfg := by
  have hacks : cfg.ackTokens.values.Nodup := by
    have hlast : ((cfg.ackTokens.entries.map
        (fun entry => ((.ack entry.1, entry.2) : Scope × String))).map Prod.snd).Nodup := by
      rw [ApiConfig.grants, List.map_append] at htokens
      exact htokens.of_append_right
    rw [List.map_map] at hlast
    exact hlast
  refine ⟨htokens, hinboxes, ?_, ?_⟩
  · rintro headers ⟨scope, hscope⟩
    refine ⟨scope, hscope, ?_⟩
    intro scope' hscope'
    obtain ⟨token, hmem, hpresents⟩ := (authorises_iff hacks).mp hscope
    obtain ⟨token', hmem', hpresents'⟩ := (authorises_iff hacks).mp hscope'
    have hsame : (scope', token') = (scope, token) :=
      List.inj_on_of_nodup_map htokens hmem' hmem (hpresents'.inj hpresents)
    exact congrArg Prod.fst hsame
  · intro headers scope token hmem hpresents
    exact (authorises_iff hacks).mpr ⟨token, hmem, hpresents⟩

theorem map_snd_grants {cfg : ApiConfig} {pushToken adminToken : String}
    (hpush : cfg.pushToken = some pushToken) (hadmin : cfg.adminToken = some adminToken) :
    cfg.grants.map Prod.snd =
      [pushToken, adminToken] ++ cfg.pullTokens.values ++ cfg.ackTokens.values := by
  simp [ApiConfig.grants, hpush, hadmin, TokenMap.values, Function.comp_def]

/-- **Credentials.** The mailbox that starts keeps its credentials apart exactly if it was
    configured by a file, or by options that would pass the comparison of a file. -/
theorem credentials_scoped_iff (host : Host) (args : ServeArgs) (cfg : ApiConfig)
    (h : serve host args = .ok cfg) :
    Scoped cfg ↔ args.config.isSome = true ∨ OptionsScoped args := by
  rcases serve_tokens h with ⟨hfile, push, admin, hpush, hadmin, hscopes⟩ |
    ⟨hnone, tokens, htokens, hpush, hadmin, hpulls, hacks⟩
  · refine ⟨fun _ => .inl hfile, fun _ => ?_⟩
    obtain ⟨-, hinboxes, hnodup⟩ := checkScopes_eq_ok.mp hscopes
    rw [← map_snd_grants hpush hadmin] at hnodup
    exact scoped_of_nodup hnodup hinboxes
  · rw [hnone]
    have htokens' := htokens
    simp only [ServeArgs.tokens, bind_eq_ok, pure_eq_ok] at htokens'
    obtain ⟨_, -, pulls, hpullOk, acks, hackOk, _, -, rfl⟩ := htokens'
    constructor
    · intro hscoped
      refine .inr ⟨_, htokens, checkScopes_eq_ok.mpr ⟨?_, ?_, ?_⟩⟩
      · exact ⟨(requireScopedTokens_spec hpullOk).1, (requireScopedTokens_spec hackOk).1⟩
      · have hinboxes := hscoped.inboxes
        rw [hpulls, hacks] at hinboxes
        exact hinboxes
      · have hnodup := hscoped.tokens
        rw [map_snd_grants hpush hadmin, hpulls, hacks] at hnodup
        exact hnodup
    · rintro (hsome | ⟨tokens, hsame, hscopes⟩)
      · exact absurd hsome (by simp)
      · rw [htokens, Except.ok.injEq] at hsame
        subst hsame
        obtain ⟨-, hinboxes, hnodup⟩ := checkScopes_eq_ok.mp hscopes
        apply scoped_of_nodup
        · rw [map_snd_grants hpush hadmin, hpulls, hacks]
          exact hnodup
        · rw [hpulls, hacks]
          exact hinboxes

/-- A machine without variables or files. -/
def bareHost : Host where
  var _ := none
  metadata _ := .error "No such file or directory (os error 2)"
  readToString _ := .error "No such file or directory (os error 2)"
  isLoopback _ := .ok true
  readConfig path := .error s!"failed to read config file {path}"
  initDb := .ok ()

/-- The defaults of the options, with these credentials. -/
def sampleArgs (pushToken pullTokens ackTokens adminToken : String) : ServeArgs where
  config := none
  bind := "127.0.0.1:4010"
  maxBodyBytes := 16 * 1024 * 1024
  defaultTtlSecs := 24 * 60 * 60
  maxTtlSecs := 7 * 24 * 60 * 60
  leaseSecs := 60
  maxWaitMs := 20000
  pushToken := some pushToken
  pullTokens := some pullTokens
  ackTokens := some ackTokens
  adminToken := some adminToken
  cleanupSecs := 30
  checkpointSecs := 300
  maxMessagesPerInbox := 10000
  maxBytesPerInbox := 64 * 1024 * 1024
  maxRowsGlobal := 1000000
  rateLimitIpPerMin := 300
  rateLimitToPerMin := 600

/-- A request with one header. -/
def withBearer (token : String) : Headers := ⟨some (bearer token), none, none, none⟩

theorem exists_ok_of_any {ε α : Type} {x : Except ε α} {p : α → Bool}
    (h : x.toOption.any p = true) : ∃ a, x = .ok a ∧ p a = true := by
  cases x with
  | ok a => exact ⟨a, rfl, by simpa [Except.toOption] using h⟩
  | error e => exact absurd h (by simp [Except.toOption])

theorem credentials_scoped_iff_sample :
    ∃ cfg, serve bareHost (sampleArgs "push-secret" "bob=pull-bob" "bob=ack-bob" "admin-secret")
      = .ok cfg ∧ Scoped cfg := by
  obtain ⟨cfg, hcfg, -⟩ := exists_ok_of_any (p := fun _ => true)
    (x := serve bareHost (sampleArgs "push-secret" "bob=pull-bob" "bob=ack-bob" "admin-secret"))
    (by decide +kernel)
  obtain ⟨tokens, htokens, hscopes⟩ := exists_ok_of_any
    (x := (sampleArgs "push-secret" "bob=pull-bob" "bob=ack-bob" "admin-secret").tokens)
    (p := fun tokens => checkScopes tokens.pushToken tokens.adminToken tokens.pullTokens
      tokens.ackTokens = .ok ())
    (by decide +kernel)
  refine ⟨cfg, hcfg, (credentials_scoped_iff _ _ cfg hcfg).mpr (.inr ⟨tokens, htokens, ?_⟩)⟩
  simpa using hscopes

/-- Options that give the push token to the administrator as well: the mailbox starts, and the one
    header opens both. -/
theorem push_token_opens_admin :
    ∃ cfg, serve bareHost (sampleArgs "secret" "bob=pull-bob" "bob=ack-bob" "secret") = .ok cfg ∧
      Authorises cfg (withBearer "secret") .push ∧ Authorises cfg (withBearer "secret") .admin := by
  obtain ⟨cfg, hcfg, hboth⟩ := exists_ok_of_any
    (x := serve bareHost (sampleArgs "secret" "bob=pull-bob" "bob=ack-bob" "secret"))
    (p := fun cfg => requirePushAuth cfg (withBearer "secret") = .ok () ∧
      requireAdminAuth cfg (withBearer "secret") = .ok ())
    (by decide +kernel)
  exact ⟨cfg, hcfg, by simpa [Authorises] using hboth⟩

end Nexum.Mailbox
