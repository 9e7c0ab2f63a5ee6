import Nexum.Mailbox.Config
import Nexum.Mailbox.Quota

/-!
# Whatever is accepted can be fetched

An envelope that is pushed and answered with ok should reach whoever holds the tokens of its inbox.
Between the push and the ack the recipient's name is read by everybody in their own way, and the
name that `validate_peer_id` accepts is not the name it looked at: it trims. A recipient with a
blank in front is accepted, charged and stored under the name with the blank, and the token maps
know only names without.

`push_honoured_iff` says this is the only way an accepted envelope is lost, apart from two others
that are visible before the push: another envelope waits under its key (`Occupied`), which the push
then takes for the one it was given, and an inbox has no token to ack with, or one that no request
can present.
-/

namespace Nexum.Mailbox

open Nexum.Lib Nexum.Lib.Check Nexum.Transport

/-! ## 1. Ids -/

/-- Ids are given once, in order. -/
structure Numbered (db : Db) : Prop where
  ordered : db.rows.Pairwise fun row row' => row.id < row'.id
  bound : ∀ row ∈ db.rows, row.id < db.nextId

theorem id_of_content {row row' : Row} (h : row.content = row'.content) : row.id = row'.id := by
  have hid := congrArg Row.id h
  exact hid

theorem numbered_stored (calls : List Call) : Numbered (stored calls) := by
  apply stored_induction calls
  · exact ⟨List.Pairwise.nil, List.forall_mem_nil _⟩
  · intro db rows hrows h
    exact ⟨h.ordered.sublist hrows, fun row hrow => h.bound row (hrows.subset hrow)⟩
  · intro db f hf h
    constructor
    · rw [List.pairwise_map]
      refine h.ordered.imp ?_
      intro row row' hlt
      rw [id_of_content (hf row), id_of_content (hf row')]
      exact hlt
    · intro r hr
      obtain ⟨row, hrow, rfl⟩ := List.mem_map.mp hr
      rw [id_of_content (hf row)]
      exact h.bound row hrow
  · intro db now env ttlSecs limits db' _ h hpushed
    cases hpushed with
    | stored hfree hlength hglobal hsum hinbox hbytes =>
      constructor
      · refine List.pairwise_append.mpr ⟨h.ordered, List.pairwise_singleton .., ?_⟩
        intro row hrow row' hrow'
        obtain rfl := List.mem_singleton.mp hrow'
        exact h.bound row hrow
      · intro row hrow
        rcases List.mem_append.mp hrow with hrow | hrow
        · exact Nat.lt_succ_of_lt (h.bound row hrow)
        · obtain rfl := List.mem_singleton.mp hrow
          exact Nat.lt_succ_self _

/-! ## 2. First in line -/

/-- The row is stored, can be leased, and nothing of its inbox is before it. -/
structure FirstInLine (db : Db) (row : Row) (t : Int) : Prop where
  line : ∃ earlier later, db.rows = earlier ++ row :: later ∧ ∀ r ∈ earlier, r.toId ≠ row.toId
  live : t < row.expiresAtMs
  free : row.leaseUntilMs.all (· < t) = true

theorem FirstInLine.mem {db : Db} {row : Row} {t : Int} (h : FirstInLine db row t) :
    row ∈ db.rows := by
  obtain ⟨earlier, later, hrows, -⟩ := h.line
  rw [hrows]
  exact List.mem_append_right _ List.mem_cons_self

theorem FirstInLine.drawn {db : Db} {row : Row} {t : Int} (h : FirstInLine db row t) {max : Nat}
    (hmax : 1 ≤ max) (draw : Nat → String) :
    ∃ others, (db.prune t).drawn row.toId t max draw = (draw 0, row) :: others := by
  obtain ⟨earlier, later, hrows, hearlier⟩ := h.line
  have hnone : ∀ r ∈ earlier.filter (fun r => t < r.expiresAtMs),
      ¬ r.available row.toId t = true := by
    intro r hr havailable
    simp only [Row.available, Bool.and_eq_true, decide_eq_true_eq] at havailable
    exact hearlier r (List.mem_filter.mp hr).1 havailable.1.1
  have hself : row.available row.toId t = true := by
    simp [Row.available, h.live, h.free]
  have hfilter : (db.prune t).rows.filter (·.available row.toId t) =
      row :: (later.filter fun r => t < r.expiresAtMs).filter (·.available row.toId t) := by
    rw [Db.prune, hrows, List.filter_append, List.filter_append,
      List.filter_eq_nil_iff.mpr hnone, List.filter_cons_of_pos (by simpa using h.live),
      List.filter_cons_of_pos (p := fun r : Row => r.available row.toId t) hself]
    rfl
  obtain ⟨n, rfl⟩ : ∃ n, max = n + 1 := ⟨max - 1, by omega⟩
  rw [Db.drawn, Db.selected, hfilter, List.take_succ_cons, List.mapIdx_cons]
  exact ⟨_, rfl⟩

/-- **Fetched and acknowledged.** After the pull the row is leased under the first receipt, and an
    ack with it leaves no row with that id. -/
theorem FirstInLine.acked {db : Db} {row : Row} {t : Int} (h : FirstInLine db row t)
    (hnumbered : Numbered db) {max : Nat} (hmax : 1 ≤ max) (leaseSecs : Nat)
    (draw : Nat → String) :
    let pulled := (pullSync t row.toId max leaseSecs draw db).2
    (ackSync (draw 0) row.toId pulled).1 = true ∧
      ∀ r ∈ (ackSync (draw 0) row.toId pulled).2.rows, r.id ≠ row.id := by
  obtain ⟨others, hdrawn⟩ := h.drawn hmax draw
  set until_ := satAddI64 t (spanMs leaseSecs) with huntil
  have hpulled : (pullSync t row.toId max leaseSecs draw db).2 =
      { db.prune t with
        rows := (db.prune t).rows.map (Row.leased ((draw 0, row) :: others) until_) } := by
    rw [← hdrawn]
    exact rows_foldl_lease _ _ _
  have hprune : row ∈ (db.prune t).rows :=
    List.mem_filter.mpr ⟨h.mem, by simpa using h.live⟩
  -- the ids of the rows that were drawn differ, so the first receipt stays on the first row
  have hothers : ∀ given ∈ others, given.2.id ≠ row.id := by
    have hsub : (((db.prune t).drawn row.toId t max draw).map Prod.snd).Sublist db.rows := by
      rw [drawn_snd]
      exact ((List.take_sublist _ _).trans List.filter_sublist).trans (prune_sublist db t)
    have hpairs := hnumbered.ordered.sublist hsub
    rw [hdrawn, List.map_cons, List.pairwise_cons] at hpairs
    intro given hgiven
    exact Nat.ne_of_gt (hpairs.1 given.2 (List.mem_map.mpr ⟨given, hgiven, rfl⟩))
  have hlease : (row.leased ((draw 0, row) :: others) until_).leaseId = some (draw 0) := by
    have hpair := congrArg Prod.fst (lease_leased ((draw 0, row) :: others) until_ row)
    have hfilter : ((draw 0, row) :: others).filter (·.2.id = row.id) = [(draw 0, row)] := by
      rw [List.filter_cons_of_pos (by simp), List.filter_eq_nil_iff.mpr]
      intro given hgiven
      simpa using hothers given hgiven
    rw [hfilter] at hpair
    exact hpair
  have hacked : (row.leased ((draw 0, row) :: others) until_).acked (draw 0) row.toId = true := by
    simp [Row.acked, hlease]
  dsimp only
  rw [hpulled]
  constructor
  · exact List.any_eq_true.mpr ⟨_, List.mem_map.mpr ⟨row, hprune, rfl⟩, hacked⟩
  · intro r hr hid
    obtain ⟨hr, hkeep⟩ := List.mem_filter.mp hr
    obtain ⟨old, hold, rfl⟩ := List.mem_map.mp hr
    rw [leased_id] at hid
    have hsame : old = row :=
      eq_of_id hnumbered.ordered ((prune_sublist db t).subset hold) h.mem hid
    rw [hsame] at hkeep
    simp [hacked] at hkeep

/-! ## 3. An accepted push -/

theorem body_of_readPush {cfg : ApiConfig} {request : PushHttp} {req : PushRequest}
    (h : readPush cfg request = .ok req) : request.body = .encoded req := by
  simp only [readPush, bind_eq_ok, failIf_eq_ok, exists_unit, mapError_eq_ok] at h
  obtain ⟨-, -, -, hjson⟩ := h
  cases hsource : request.body with
  | encoded source =>
    rw [hsource] at hjson
    simpa [Json.fromStr] using hjson
  | malformed raw err =>
    rw [hsource] at hjson
    exact absurd hjson (by simp [Json.fromStr])

theorem charged_of_enforce {cfg : ApiConfig} {nowSecs : Nat} {connectIp : Option String}
    {headers : Headers} {inbox : String} {state charged : AppState}
    (h : enforcePushRateLimits cfg nowSecs connectIp headers inbox state = (.ok (), charged)) :
    charged.db = state.db ∧
      charged.byTo = (state.byTo.check inbox cfg.rateLimitToPerMin nowSecs).2 := by
  unfold enforcePushRateLimits at h
  cases hto : state.byTo.check inbox cfg.rateLimitToPerMin nowSecs with
  | mk wait byTo =>
    cases wait with
    | some secs => simp [hto] at h
    | none =>
      cases hip : state.byIp.check (extractSourceIp connectIp headers) cfg.rateLimitIpPerMin
          nowSecs with
      | mk wait byIp =>
        cases wait with
        | some secs => simp [hto, hip] at h
        | none =>
          simp only [hto, hip, Prod.mk.injEq, true_and] at h
          rw [← h]
          exact ⟨rfl, rfl⟩

theorem push_ok {cfg : ApiConfig} {now : Int} {nowSecs : Nat} {request : PushHttp}
    {state after : AppState} {response : PushResponse}
    (h : push cfg now nowSecs request state = (.ok response, after)) :
    ∃ req ttlSecs, request.body = .encoded req ∧ req.envelope.validateBasic = .ok () ∧
      pushSync now req.envelope ttlSecs cfg.limits state.db =
        (.ok ⟨response.dedup, none⟩, after.db) ∧
      after.byTo = (state.byTo.check req.envelope.to_ cfg.rateLimitToPerMin nowSecs).2 := by
  unfold push at h
  cases hread : readPush cfg request with
  | error e => simp [hread] at h
  | ok req =>
    simp only [hread] at h
    cases hlimits : enforcePushRateLimits cfg nowSecs request.connectIp request.headers
        req.envelope.to_ state with
    | mk limited charged =>
      cases limited with
      | error e => simp [hlimits] at h
      | ok _ =>
        obtain ⟨hdb, hbyTo⟩ := charged_of_enforce hlimits
        simp only [hlimits] at h
        cases httl : settleTtl cfg req with
        | error e => simp [httl] at h
        | ok ttlSecs =>
          simp only [httl] at h
          have hvalid : req.envelope.validateBasic = .ok () := by
            simp only [settleTtl, bind_eq_ok, exists_unit, mapError_eq_ok] at httl
            exact httl.1
          refine ⟨req, ttlSecs, body_of_readPush hread, hvalid, ?_⟩
          rw [hdb] at h
          cases hpush : pushSync now req.envelope ttlSecs cfg.limits state.db with
          | mk result db =>
            rw [hpush] at h
            rcases result with e | ⟨_ | _, _ | rejection⟩
            · simp at h
            · simp only [Prod.mk.injEq, Except.ok.injEq] at h
              rw [← h.1, ← h.2]
              exact ⟨rfl, hbyTo⟩
            · simp at h
            · simp only [Prod.mk.injEq, Except.ok.injEq] at h
              rw [← h.1, ← h.2]
              exact ⟨rfl, hbyTo⟩
            · simp at h

theorem inboxRows_of_pushed {now : Int} {env : NxmsEnvelope} {ttlSecs : Nat}
    {limits : MailboxLimits} {db db' : Db} {dedup : Bool}
    (h : Pushed now env ttlSecs limits db (.ok ⟨dedup, none⟩) db') :
    db'.inboxRows env.to_ = (db.prune now).inboxRows env.to_ + if dedup then 0 else 1 := by
  cases h with
  | dedup hlength hrow hkey => simp
  | stored hfree hlength hglobal hsum hinbox hbytes =>
    unfold Db.inboxRows
    rw [List.filter_append, List.length_append, List.filter_singleton]
    simp [rowOf]

/-! ## 4. Tokens a request can present -/

/-- The header with this token has only characters a header value may show, and fits the buffer the
    handlers compare in. -/
def Usable (token : String) : Prop :=
  (toStr (bearer token)).isSome = true ∧
    (bearer token).utf8ByteSize ≤ authHeaderCompareMaxLen

theorem presents_withBearer {token : String} :
    Presents (withBearer token) token ↔ Usable token := by
  have hauth : (withBearer token).auth = bearer token ↔ (toStr (bearer token)).isSome = true := by
    show (toStr (bearer token)).getD "" = bearer token ↔ _
    unfold toStr
    split
    · simp
    · simp [bearer]
  rw [Presents, Usable, hauth]

theorem acks_nodup_of_serve {host : Host} {args : ServeArgs} {cfg : ApiConfig}
    (h : serve host args = .ok cfg) : cfg.ackTokens.values.Nodup := by
  rcases serve_tokens h with ⟨-, push, admin, -, -, hscopes⟩ |
    ⟨-, tokens, htokens, -, -, -, hacks⟩
  · exact (checkScopes_eq_ok.mp hscopes).2.2.of_append_right
  · rw [hacks]
    simp only [ServeArgs.tokens, bind_eq_ok, pure_eq_ok] at htokens
    obtain ⟨_, -, _, -, acks, hackOk, _, -, rfl⟩ := htokens
    exact (requireScopedTokens_spec hackOk).2

/-! ## 5. What is owed for an accepted push -/

/-- In every later table in which the row is first in line, the pull with the inbox's token gives
    its envelope out, and the ack with the inbox's token removes it. -/
def Fetchable (cfg : ApiConfig) (inbox pullToken ackToken : String) (db : Db) (row : Row) : Prop :=
  ∀ later t (state : AppState) row', state.db = mailbox.after db later →
    row'.content = row.content → FirstInLine state.db row' t →
    ∀ draw max waitMs, ∃ messages pulled acked,
      pull cfg t draw (withBearer pullToken) ⟨inbox, max, waitMs⟩ state = (.ok messages, pulled) ∧
        messages.head? = some ⟨randomHex16 (draw 0), row.envelope⟩ ∧
        ack cfg (withBearer ackToken) ⟨randomHex16 (draw 0)⟩ pulled = (.ok (), acked) ∧
        ∀ r ∈ acked.db.rows, r.id ≠ row.id

/-- Another envelope waits for the recipient, from the same sender and about the same escrow, with the
    same number. The column holds numbers up to `i64Max`: from there on they are all the same. -/
def Occupied (now : Int) (env : NxmsEnvelope) (db : Db) : Prop :=
  ∃ row ∈ db.rows, now < row.expiresAtMs ∧ row.envelope ≠ env ∧ row.envelope.to_ = env.to_ ∧
    row.envelope.from_ = env.from_ ∧ row.envelope.escrowIdHex = env.escrowIdHex ∧
    (row.envelope.seq = env.seq ∨ i64Max ≤ row.envelope.seq ∧ i64Max ≤ env.seq)

/-- **A push that is answered keeps its envelope exactly if no other is in its place.** It is kept
    under its own key, and the table has one row for a key. -/
theorem envelope_kept_iff {calls : List Call} {now : Int} {env : NxmsEnvelope} {ttlSecs : Nat}
    {limits : MailboxLimits} {dedup : Bool} {db : Db}
    (h : pushSync now env ttlSecs limits (stored calls) = (.ok ⟨dedup, none⟩, db)) :
    (∃ row ∈ db.rows, row.envelope = env) ↔ ¬ Occupied now env (stored calls) := by
  have hkeyed := keyed_stored calls
  have hspec := pushSync_spec now env ttlSecs limits (stored calls)
  rw [h] at hspec
  have hin : ∀ row, row ∈ ((stored calls).prune now).rows
      ↔ row ∈ (stored calls).rows ∧ now < row.expiresAtMs := by
    intro row
    simp [Db.prune]
  cases hspec with
  | dedup hlength hrow hkey =>
    rename_i row
    obtain ⟨hstored, hlive⟩ := (hin row).mp hrow
    have hplace := hkeyed.key row hstored ▸ hkey
    constructor
    · rintro ⟨own, hown, rfl⟩ ⟨other, hother, -, hne, hto, hfrom, hescrow, hseq⟩
      obtain ⟨hown, -⟩ := (hin own).mp hown
      refine hne (congrArg Row.envelope
        (List.inj_on_of_nodup_map hkeyed.nodup hother hown ?_))
      rw [hkeyed.key other hother, hkeyed.key own hown, envelopeKey_eq_iff]
      exact ⟨hto, hfrom, hescrow, hseq⟩
    · intro hfree
      refine ⟨row, hrow, not_not.mp fun hne => hfree ⟨row, hstored, hlive, hne, ?_⟩⟩
      exact envelopeKey_eq_iff.mp hplace
  | stored hfree hlength hglobal hsum hinbox hbytes =>
    refine iff_of_true ⟨_, List.mem_append_right _ List.mem_cons_self, rfl⟩ ?_
    rintro ⟨other, hother, hlive, -, hto, hfrom, hescrow, hseq⟩
    refine hfree other ((hin other).mpr ⟨hother, hlive⟩) ?_
    rw [hkeyed.key other hother, envelopeKey_eq_iff]
    exact ⟨hto, hfrom, hescrow, hseq⟩

/-- The envelope is stored for the inbox and can be fetched with its tokens; the inbox's quota and
    the inbox's rate limit were charged. -/
structure Honoured (cfg : ApiConfig) (inbox pullToken ackToken : String) (now : Int)
    (nowSecs : Nat) (env : NxmsEnvelope) (dedup : Bool) (before after : AppState) : Prop where
  stored : ∃ row ∈ after.db.rows, row.envelope = env ∧ row.toId = inbox ∧
    Fetchable cfg inbox pullToken ackToken after.db row
  quota : after.db.inboxRows inbox =
    (before.db.prune now).inboxRows inbox + if dedup then 0 else 1
  rate : after.byTo = (before.byTo.check inbox cfg.rateLimitToPerMin nowSecs).2
  pullAuth : Authorises cfg (withBearer pullToken) (.pull inbox)
  ackAuth : Authorises cfg (withBearer ackToken) (.ack inbox)

theorem validatePeerId_trim {id : String} (h : validatePeerId id = .ok ()) :
    validatePeerId (trim id) = .ok () := by
  unfold validatePeerId at h ⊢
  rw [trim_trim]
  exact h

theorem trim_randomHex16 (b : Fin 16 → UInt8) : trim (randomHex16 b) = randomHex16 b :=
  trim_hexEncode _

theorem randomHex16_ne_empty (b : Fin 16 → UInt8) : randomHex16 b ≠ "" := by
  apply hexEncode_ne_empty
  simp [List.ofFn_succ]

section
variable {cfg : ApiConfig} {inbox pullToken ackToken : String}

/-- A row of the inbox can be fetched once the inbox's tokens can be presented. -/
theorem fetchable_of_usable (hacks : cfg.ackTokens.values.Nodup)
    (hpull : cfg.pullTokens.get? inbox = some pullToken)
    (hack : cfg.ackTokens.get? inbox = some ackToken) (hid : validatePeerId inbox = .ok ())
    (hpullUsable : Usable pullToken) (hackUsable : Usable ackToken) (calls : List Call) {row : Row}
    (hrow : row.toId = inbox) : Fetchable cfg inbox pullToken ackToken (stored calls) row := by
  intro later t state row' hstate hcontent hfirst draw max waitMs
  have hnumbered : Numbered state.db := by
    rw [hstate, stored, ← Server.after_append]
    exact numbered_stored (calls ++ later)
  have hinbox : row'.toId = inbox := (toId_of_content hcontent).trans hrow
  have hlimit : 1 ≤ pullLimit ⟨inbox, max, waitMs⟩ := by
    unfold pullLimit
    omega
  obtain ⟨others, hdrawn⟩ := hfirst.drawn hlimit fun k => randomHex16 (draw k)
  obtain ⟨hacked, hgone⟩ := hfirst.acked hnumbered hlimit cfg.leaseSecs
    fun k => randomHex16 (draw k)
  rw [hinbox] at hdrawn hacked hgone
  have hcheck : checkPull cfg (withBearer pullToken) ⟨inbox, max, waitMs⟩ = .ok () := by
    simp only [checkPull, bind_eq_ok, exists_unit, mapError_eq_ok]
    exact ⟨hid, requirePullAuthForInbox_eq_ok.mpr
      ⟨pullToken, hpull, presents_withBearer.mpr hpullUsable⟩⟩
  have hauth : authorizedInboxForToken cfg.ackTokens (withBearer ackToken)
      "ack auth is not configured" = .ok inbox :=
    (authorizedInboxForToken_eq_ok hacks).mpr
      ⟨ackToken, hack, presents_withBearer.mpr hackUsable⟩
  set pulled := pullSync t inbox (pullLimit ⟨inbox, max, waitMs⟩) cfg.leaseSecs
    (fun k => randomHex16 (draw k)) state.db with hpulled
  refine ⟨pulled.1, { state with db := pulled.2 },
    { state with db := (ackSync (randomHex16 (draw 0)) inbox pulled.2).2 }, ?_, ?_, ?_, ?_⟩
  · simp only [pull, hcheck]
    rfl
  · rw [hpulled]
    simp only [pullSync, hdrawn, List.map_cons, List.head?_cons, Option.some.injEq,
      LeasedMessage.mk.injEq, true_and]
    exact envelope_of_content hcontent
  · simp only [ack, hauth, trim_randomHex16, randomHex16_ne_empty, if_false]
    cases hresult : ackSync (randomHex16 (draw 0)) inbox pulled.2 with
    | mk ok db =>
      rw [hresult] at hacked
      simp only at hacked
      rw [hacked]
  · rw [← id_of_content hcontent]
    exact hgone

end

/-- **Accepted is deliverable**, exactly if the recipient is named without blanks around it, the
    pull token of the inbox can be presented, there is an ack token and it can be presented, and no
    other envelope waits in the place of this one. -/
theorem push_honoured_iff (host : Host) (args : ServeArgs) (cfg : ApiConfig)
    (hserve : serve host args = .ok cfg) (calls : List Call) (before after : AppState)
    (hbefore : before.db = stored calls) (now : Int) (nowSecs : Nat) (request : PushHttp)
    (response : PushResponse)
    (hpush : push cfg now nowSecs request before = (.ok response, after)) (req : PushRequest)
    (hbody : request.body = .encoded req) (pullToken : String)
    (hpull : cfg.pullTokens.get? (trim req.envelope.to_) = some pullToken) :
    (∃ ackToken, cfg.ackTokens.get? (trim req.envelope.to_) = some ackToken ∧
        Honoured cfg (trim req.envelope.to_) pullToken ackToken now nowSecs req.envelope
          response.dedup before after) ↔
      req.envelope.to_ = trim req.envelope.to_ ∧ Usable pullToken ∧
        (∃ ackToken, cfg.ackTokens.get? (trim req.envelope.to_) = some ackToken ∧
          Usable ackToken) ∧
        ¬ Occupied now req.envelope before.db := by
  have hacks := acks_nodup_of_serve hserve
  obtain ⟨req', ttlSecs, hbody', hvalid, hanswer, hrate⟩ := push_ok hpush
  obtain rfl : req = req' := by
    rw [hbody] at hbody'
    simpa using hbody'
  rw [hbefore] at hanswer
  have hkept := envelope_kept_iff hanswer
  have hafter : after.db = stored (calls ++ [.push now req.envelope ttlSecs cfg.limits]) := by
    rw [stored_snoc, serve_push, hanswer]
  have hkeyed := keyed_stored (calls ++ [.push now req.envelope ttlSecs cfg.limits])
  rw [← hafter] at hkeyed
  -- the row stands under the recipient's name as the envelope has it
  have htoId : ∀ row ∈ after.db.rows, row.envelope = req.envelope →
      row.toId = req.envelope.to_ := by
    intro row hrow heq
    have hkey := congrArg MessageKey.toId (hkeyed.key row hrow)
    exact Eq.trans hkey (congrArg NxmsEnvelope.to_ heq)
  rw [hbefore]
  constructor
  · rintro ⟨ackToken, hack, hhonoured⟩
    obtain ⟨row, hrow, heq, hinbox, -⟩ := hhonoured.stored
    refine ⟨(htoId row hrow heq).symm.trans hinbox, ?_, ⟨ackToken, hack, ?_⟩,
      hkept.mp ⟨row, hrow, heq⟩⟩
    · obtain ⟨token, htoken, hpresents⟩ :=
        requirePullAuthForInbox_eq_ok.mp hhonoured.pullAuth
      rw [hpull, Option.some.injEq] at htoken
      rw [← htoken] at hpresents
      exact presents_withBearer.mp hpresents
    · obtain ⟨token, htoken, hpresents⟩ :=
        (authorizedInboxForToken_eq_ok hacks).mp hhonoured.ackAuth
      rw [hack, Option.some.injEq] at htoken
      rw [← htoken] at hpresents
      exact presents_withBearer.mp hpresents
  · rintro ⟨htrim, hpullUsable, ⟨ackToken, hack, hackUsable⟩, hfree⟩
    obtain ⟨row, hrow, heq⟩ := hkept.mpr hfree
    have hid : validatePeerId (trim req.envelope.to_) = .ok () := by
      simp only [NxmsEnvelope.validateBasic, bind_eq_ok, exists_unit, mapError_eq_ok] at hvalid
      exact validatePeerId_trim hvalid.2.2.2.2.1
    have hinbox := (htoId row hrow heq).trans htrim
    refine ⟨ackToken, hack, ⟨row, hrow, heq, hinbox, ?_⟩, ?_, ?_, ?_, ?_⟩
    · rw [hafter]
      exact fetchable_of_usable hacks hpull hack hid hpullUsable hackUsable _ hinbox
    · have hspec := pushSync_spec now req.envelope ttlSecs cfg.limits (stored calls)
      rw [hanswer] at hspec
      rw [hbefore, ← htrim]
      exact inboxRows_of_pushed hspec
    · rw [hrate, ← htrim]
    · exact requirePullAuthForInbox_eq_ok.mpr
        ⟨pullToken, hpull, presents_withBearer.mpr hpullUsable⟩
    · exact (authorizedInboxForToken_eq_ok hacks).mpr
        ⟨ackToken, hack, presents_withBearer.mpr hackUsable⟩

/-! ## 6. A recipient with and without a blank -/

def sampleServe : Except String ApiConfig :=
  serve bareHost (sampleArgs "push-secret" "bob=pull-bob" "bob=ack-bob" "admin-secret")

/-- A push of a valid envelope for this recipient. -/
def samplePush (inbox : String) : PushHttp where
  headers := withBearer "push-secret"
  connectIp := none
  bodyLen := 400
  body := .encoded ⟨sampleEnvelope inbox 1, none⟩

def emptyState : AppState := ⟨.empty, ⟨[]⟩, ⟨[]⟩, []⟩

theorem push_honoured_iff_sample :
    ∃ cfg response after, sampleServe = .ok cfg ∧
      push cfg 0 0 (samplePush "bob") emptyState = (.ok response, after) ∧
      ∃ ackToken, cfg.ackTokens.get? (trim "bob") = some ackToken ∧
        Honoured cfg (trim "bob") "pull-bob" ackToken 0 0 (sampleEnvelope "bob" 1) response.dedup
          emptyState after := by
  obtain ⟨cfg, hcfg, hrun⟩ := exists_ok_of_any (x := sampleServe)
    (p := fun cfg => (push cfg 0 0 (samplePush "bob") emptyState).1 = .ok ⟨true, false⟩ ∧
      cfg.pullTokens.get? (trim "bob") = some "pull-bob" ∧
      cfg.ackTokens.get? (trim "bob") = some "ack-bob")
    (by decide +kernel)
  simp only [decide_eq_true_eq] at hrun
  obtain ⟨hpush, hpull, hack⟩ := hrun
  have husable : ∀ token, token = "pull-bob" ∨ token = "ack-bob" → Usable token := by
    rintro token (rfl | rfl)
    · exact ⟨by decide +kernel, by decide +kernel⟩
    · exact ⟨by decide +kernel, by decide +kernel⟩
  refine ⟨cfg, _, _, hcfg, Prod.ext hpush rfl, ?_⟩
  refine (push_honoured_iff _ _ cfg hcfg [] emptyState _ rfl 0 0 (samplePush "bob") _
    (Prod.ext hpush rfl) ⟨sampleEnvelope "bob" 1, none⟩ rfl _ hpull).mpr ?_
  refine ⟨by decide +kernel, husable _ (.inl rfl), ⟨_, hack, husable _ (.inr rfl)⟩, ?_⟩
  rintro ⟨row, hrow, -⟩
  exact absurd hrow List.not_mem_nil

/-- A blank in front of the name: the push is accepted and charged to a name nobody can pull for,
    and the inbox stays empty. -/
theorem blank_recipient_lost :
    ∃ cfg, sampleServe = .ok cfg ∧ trim " bob" = "bob" ∧
      (push cfg 0 0 (samplePush " bob") emptyState).1 = .ok ⟨true, false⟩ ∧
      (push cfg 0 0 (samplePush " bob") emptyState).2.byTo.entries.map Prod.fst = [" bob"] ∧
      (pull cfg 1 (fun _ _ => 0) (withBearer "pull-bob") ⟨"bob", none, none⟩
        (push cfg 0 0 (samplePush " bob") emptyState).2).1 = .ok [] := by
  obtain ⟨cfg, hcfg, hrun⟩ := exists_ok_of_any (x := sampleServe)
    (p := fun cfg => trim " bob" = "bob" ∧
      (push cfg 0 0 (samplePush " bob") emptyState).1 = .ok ⟨true, false⟩ ∧
      (push cfg 0 0 (samplePush " bob") emptyState).2.byTo.entries.map Prod.fst = [" bob"] ∧
      (pull cfg 1 (fun _ _ => 0) (withBearer "pull-bob") ⟨"bob", none, none⟩
        (push cfg 0 0 (samplePush " bob") emptyState).2).1 = .ok [])
    (by decide +kernel)
  simp only [decide_eq_true_eq] at hrun
  exact ⟨cfg, hcfg, hrun⟩

end Nexum.Mailbox
