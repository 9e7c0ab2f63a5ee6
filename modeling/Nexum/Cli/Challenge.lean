import Nexum.Cli.Signed

/-!
# Challenges

A server answers a login or a registration with a challenge: a KEM ciphertext, a masked payload, and
a tag over the rest. The client parses it, checks the tag, unmasks the payload and signs the
transcript.

**The tag.** There are two formats, and the packet itself says which one to use. In the second every
field has its length in front. In the first, nick, KEM and flow are written one after the other with
nothing between them, so a tag is good for every way to split the text again (`resplit`). The two
formats do not get confused with each other, and everything but that split is bound
(`challenge_bound_iff`).

**The request.** The client asks for a nick and a flow, and signs those of the answer. It only fills
in a nick where the answer has none (`signs_requested_iff`, `signed_for_another`).
-/

namespace Nexum.Cli

open Nexum.Lib

/-! ## 1. Parsing -/

/-- What the JSON library hands out, as far as the parser tells it apart. It accepts no string with
    a zero in it. -/
inductive Json
  | str (s : CString)
  | int (n : Int)
  | arr (items : List Json)
  | obj (members : List (String × Json))
  | other

structure AuthPrims where
  b64dec : CString → Option (List UInt8)
  b64uDec : CString → Option (List UInt8)
  kemDecaps : CString → List UInt8 → List UInt8 → Option (List UInt8)
  shake256 : List UInt8 → Bytes 32
  hmacSha512 : Bytes 32 → List UInt8 → Bytes 64
  sha256 : List UInt8 → Bytes 32

/-- The last member of the name. -/
def jsonObjectGet (members : List (String × Json)) (key : String) : Option Json :=
  members.reverse.lookup key

def jsonGetStr2 (src root : List (String × Json)) (key : String) : Option CString :=
  match (jsonObjectGet src key).or (jsonObjectGet root key) with
  | some (.str s) => some s
  | _ => none

def jsonGetI642 (src root : List (String × Json)) (key : String) : Option Int :=
  match (jsonObjectGet src key).or (jsonObjectGet root key) with
  | some (.int n) => some n
  | _ => none

/-- Where the fields are looked up: in the member `pkt` if there is one, and then in the root. -/
def pktSource : Json → Option (List (String × Json) × List (String × Json))
  | .obj root =>
    match jsonObjectGet root "pkt" with
    | none => some (root, root)
    | some (.obj src) => some (src, root)
    | some _ => none
  | _ => none

def limited (s : CString) (max : Nat) : Option CString :=
  if s.data.length ≤ max then some s else none

variable (pr : AuthPrims)

/-- A tag may be missing; one that is there has 32 bytes. -/
def tagField (s : Option CString) : Option (Option (Bytes 32)) :=
  match s with
  | none => some none
  | some s => do
    let raw ← (limited s 512).bind pr.b64dec
    let tag ← Bytes.ofList 32 raw
    pure (some tag)

/-- A nick may be missing. -/
def nickField (s : Option CString) : Option (Option CString) :=
  match s with
  | none => some none
  | some nick => (limited nick 64).map some

/-- What a packet has besides its names. -/
structure PktBody where
  sidRaw : Bytes 16
  ts : UInt64
  ct : List UInt8
  payload : List UInt8
  tag1 : Option (Bytes 32)
  aadVer : Int
  tag2 : Option (Bytes 32)
  ctLen : ct.length ≤ 16384

def parseBody (src root : List (String × Json)) : Option PktBody := do
  let sid ← ((jsonGetStr2 src root "sid").bind (limited · 64)).bind pr.b64uDec
  let sidRaw ← Bytes.ofList 16 sid
  let ts ← jsonGetI642 src root "ts"
  guard (0 ≤ ts)
  let ct ← ((jsonGetStr2 src root "ct_b64").bind (limited · 24000)).bind pr.b64dec
  guard (ct ≠ [])
  let payload ← ((jsonGetStr2 src root "payload_b64").bind (limited · 2048)).bind pr.b64dec
  guard (payload.length ≤ 1024)
  let tag1 ← tagField pr (jsonGetStr2 src root "tag_b64")
  -- a cast to `int`
  let aadVer := ((jsonGetI642 src root "aad_ver").map (Int.bmod · (2 ^ 32))).getD 1
  let tag2 ← tagField pr (jsonGetStr2 src root "tag2_b64")
  if ctLen : ct.length ≤ 16384 then
    some ⟨sidRaw, UInt64.ofNat ts.toNat, ct, payload, tag1, aadVer, tag2, ctLen⟩
  else none

def pktParseJson (response : Json) : Option ChallengePkt := do
  let (src, root) ← pktSource response
  let flow ← jsonGetStr2 src root "flow"
  let nick ← nickField (jsonGetStr2 src root "nick")
  let kemId ← (jsonGetStr2 src root "kem_id").bind (limited · 64)
  let body ← parseBody pr src root
  if flowLen : flow.data.length ≤ ffMaxFlowLen then
    some ⟨flow, nick, kemId, body.sidRaw, body.ts, body.ct, body.payload, body.tag1, body.aadVer,
      body.tag2, flowLen⟩
  else none

/-! ## 2. The tag and the challenge -/

def ctxAadV2 : List UInt8 := utf8 "nexum-aad-v2" ++ [0]

/-- The three names, with nothing between them. -/
def ChallengePkt.names (pkt : ChallengePkt) (nick : CString) : List UInt8 :=
  nick.data ++ (pkt.kemId.data ++ pkt.flow.data)

def aadV1Legacy (pkt : ChallengePkt) (nick : CString) : List UInt8 :=
  pkt.sidRaw.data ++ (u64be pkt.ts ++ (pkt.names nick ++ (pkt.ct ++ pkt.payload)))

def aadV2 (pkt : ChallengePkt) (nick : CString) : List UInt8 :=
  ctxAadV2 ++ (encField pkt.sidRaw.data ++ (encField (u64be pkt.ts) ++ (encField nick.data
    ++ (encField pkt.kemId.data ++ (encField pkt.flow.data ++ (encField pkt.ct
      ++ encField pkt.payload))))))

def ChallengePkt.usesV2 (pkt : ChallengePkt) : Bool := pkt.aadVer = 2 && pkt.tag2.isSome

/-- The tag that is checked, and what it is checked over. -/
def ChallengePkt.tag (pkt : ChallengePkt) : Option (Bytes 32) :=
  if pkt.usesV2 then pkt.tag2 else pkt.tag1

def ChallengePkt.aad (pkt : ChallengePkt) (nick : CString) : List UInt8 :=
  if pkt.usesV2 then aadV2 pkt nick else aadV1Legacy pkt nick

def truncate (mac : Bytes 64) : Bytes 32 := ⟨mac.data.take 32, by simp [mac.len]⟩

/-- `ff_recover_challenge`, with the nick, which it asks for. -/
def recoverChallenge (skKem : List UInt8) (pkt : ChallengePkt) : Option (Bytes 32) := do
  let nick ← pkt.nick
  let payload ← Bytes.ofList 32 pkt.payload
  let ss ← pr.kemDecaps pkt.kemId skKem pkt.ct
  let mask := pr.shake256 (ss ++ (pkt.sidRaw.data ++ utf8 "mask"))
  let kmac := pr.shake256 (ss ++ (pkt.sidRaw.data ++ utf8 "mac"))
  guard (pkt.tag = some (truncate (pr.hmacSha512 kmac (pkt.aad nick))))
  pure ⟨List.zipWith (· ^^^ ·) payload.data mask.data, by simp [Bytes.len]⟩

variable {pr}

theorem ofList_eq_some {n : Nat} {data : List UInt8} {b : Bytes n} :
    Bytes.ofList n data = some b ↔ data = b.data := by
  obtain ⟨bdata, rfl⟩ := b
  unfold Bytes.ofList
  split
  · simp
  · rename_i h
    exact ⟨fun h' => (by cases h'), fun h' => absurd (congrArg List.length h') h⟩

theorem limited_eq_some {s t : CString} {max : Nat} :
    limited s max = some t ↔ s.data.length ≤ max ∧ s = t := by
  unfold limited
  split <;> simp_all

theorem nickField_eq_some {s t : Option CString} :
    nickField s = some t ↔ s = t ∧ ∀ nick, t = some nick → nick.data.length ≤ 64 := by
  cases s with
  | none => simp only [nickField]; grind
  | some nick =>
    simp only [nickField, Option.map_eq_some_iff, limited_eq_some]
    grind

theorem pktParseJson_some {response : Json} {pkt : ChallengePkt}
    (h : pktParseJson pr response = some pkt) :
    ∃ src root, pktSource response = some (src, root)
      ∧ jsonGetStr2 src root "flow" = some pkt.flow ∧ jsonGetStr2 src root "nick" = pkt.nick
      ∧ (∀ nick, pkt.nick = some nick → nick.data.length ≤ 64) ∧ pkt.kemId.data.length ≤ 64
      ∧ pkt.ct.length ≤ 16384 := by
  obtain ⟨⟨src, root⟩, hsrc, h⟩ := Option.bind_eq_some_iff.mp h
  obtain ⟨flow, hflow, h⟩ := Option.bind_eq_some_iff.mp h
  obtain ⟨nick, hnick, h⟩ := Option.bind_eq_some_iff.mp h
  obtain ⟨kemId, hkem, h⟩ := Option.bind_eq_some_iff.mp h
  obtain ⟨body, -, h⟩ := Option.bind_eq_some_iff.mp h
  obtain ⟨_, -, hkem⟩ := Option.bind_eq_some_iff.mp hkem
  obtain ⟨hkemLen, rfl⟩ := limited_eq_some.mp hkem
  split at h
  · cases h
    obtain ⟨hn, hlen⟩ := nickField_eq_some.mp hnick
    exact ⟨src, root, hsrc, hflow, hn, hlen, hkemLen, body.ctLen⟩
  · cases h

theorem recoverChallenge_some {skKem : List UInt8} {pkt : ChallengePkt} {c : Bytes 32}
    (h : recoverChallenge pr skKem pkt = some c) :
    ∃ nick ss, pkt.nick = some nick ∧ pkt.payload.length = 32
      ∧ pr.kemDecaps pkt.kemId skKem pkt.ct = some ss
      ∧ c.data = List.zipWith (· ^^^ ·) pkt.payload
        (pr.shake256 (ss ++ (pkt.sidRaw.data ++ utf8 "mask"))).data := by
  obtain ⟨nick, hnick, h⟩ := Option.bind_eq_some_iff.mp h
  obtain ⟨payload, hpayload, h⟩ := Option.bind_eq_some_iff.mp h
  obtain ⟨ss, hss, h⟩ := Option.bind_eq_some_iff.mp h
  obtain ⟨-, -, h⟩ := Option.bind_eq_some_iff.mp h
  rw [ofList_eq_some.mp hpayload]
  cases h
  exact ⟨nick, ss, hnick, payload.len, hss, rfl⟩

/-! ## 3. What the tag binds -/

section
variable {p p' : ChallengePkt} {nick nick' : CString}

/-- **The first format**: session, time and payload are bound, and of the names their text. -/
theorem aadV1Legacy_inj (hct : p.ct = p'.ct) (hpayload : p.payload.length = p'.payload.length)
    (h : aadV1Legacy p nick = aadV1Legacy p' nick') :
    p.ts = p'.ts ∧ p.names nick = p'.names nick' ∧ p.payload = p'.payload := by
  obtain ⟨-, h⟩ := Bytes.append_inj h
  obtain ⟨hts, h⟩ := List.append_inj h rfl
  obtain ⟨hnames, h⟩ := List.append_inj' h (by rw [List.length_append, hct, hpayload,
    List.length_append])
  rw [hct] at h
  exact ⟨u64be_injective hts, hnames, List.append_cancel_left h⟩

/-- **The second format**: every field has its length in front. -/
theorem aadV2_inj (hn : nick.data.length ≤ 64) (hn' : nick'.data.length ≤ 64)
    (hk : p.kemId.data.length ≤ 64) (hk' : p'.kemId.data.length ≤ 64) (hct : p.ct = p'.ct)
    (hpayload : p.payload.length = p'.payload.length) (h : aadV2 p nick = aadV2 p' nick') :
    p.ts = p'.ts ∧ nick = nick' ∧ p.kemId = p'.kemId ∧ p.flow = p'.flow
      ∧ p.payload = p'.payload := by
  have hshort : ∀ {n : Nat}, n ≤ 64 → n < 2 ^ 32 := fun h => h.trans_lt (by decide)
  have hflow : ∀ q : ChallengePkt, q.flow.data.length < 2 ^ 32 :=
    fun q => q.flowLen.trans_lt (by decide)
  obtain ⟨-, h⟩ := encField_bytes_inj (List.append_cancel_left h)
  obtain ⟨hts, h⟩ := encField_inj (by simp) (by simp) h
  obtain ⟨hnick, h⟩ := encField_inj (hshort hn) (hshort hn') h
  obtain ⟨hkem, h⟩ := encField_inj (hshort hk) (hshort hk') h
  obtain ⟨hfl, h⟩ := encField_inj (hflow p) (hflow p') h
  rw [hct, encField, encField, hpayload] at h
  exact ⟨u64be_injective hts, CString.eq_of_data hnick, CString.eq_of_data hkem,
    CString.eq_of_data hfl, List.append_cancel_left (List.append_cancel_left h)⟩

/-- **The formats stay apart.** The first starts with the session, where the second has its label;
    a session that fits has a zero where the second repeats it, and there the first has a name. -/
theorem aadV2_ne_aadV1Legacy (hsid : p.sidRaw = p'.sidRaw) (hct : p.ct = p'.ct)
    (hpayload : p.payload.length = p'.payload.length) :
    aadV2 p nick ≠ aadV1Legacy p' nick' := by
  intro h
  have hctx : ctxAadV2.length = 13 := by decide
  have hlen := congrArg List.length h
  simp only [aadV2, aadV1Legacy, encField, List.length_append, length_u32be, Bytes.len,
    length_u64be, hct, hpayload, hctx] at hlen
  -- the thirteenth byte of the session is the end of the label
  have hzero : p'.sidRaw.data[12]? = some 0 := by
    have hbyte := congrArg (·[12]?) h
    simp only [aadV2, aadV1Legacy] at hbyte
    rw [List.getElem?_append_left (by decide),
      List.getElem?_append_left (by rw [p'.sidRaw.len]; decide)] at hbyte
    rw [← hbyte]
    decide
  have hbyte := congrArg (·[29]?) h
  simp only [aadV2, aadV1Legacy, encField, List.append_assoc, hsid] at hbyte
  rw [List.getElem?_append_right (by simp [hctx]), List.getElem?_append_right (by simp [hctx]),
    List.getElem?_append_left (by simp [Bytes.len, hctx]),
    List.getElem?_append_right (by simp [Bytes.len]),
    List.getElem?_append_right (by simp [Bytes.len]),
    List.getElem?_append_left (by simp [Bytes.len]; omega)] at hbyte
  simp only [Bytes.len, length_u32be, length_u64be, hctx] at hbyte
  have hmem := List.mem_of_getElem? (hbyte.symm.trans hzero)
  simp only [ChallengePkt.names, List.mem_append] at hmem
  rcases hmem with hmem | hmem | hmem
  · exact nick'.noNul hmem
  · exact p'.kemId.noNul hmem
  · exact p'.flow.noNul hmem

/-- The packets say the same. -/
structure Agree (p p' : ChallengePkt) : Prop where
  ts : p.ts = p'.ts
  nick : p.nick = p'.nick
  kemId : p.kemId = p'.kemId
  flow : p.flow = p'.flow
  payload : p.payload = p'.payload

def textLen (s : Option CString) : Nat := (s.map (·.data.length)).getD 0

end

/-- Base64 that is the text itself, a KEM that knows one name, and a tag made of the first bytes of
    the text it is for, none of them zero. -/
def samplePrims : AuthPrims where
  b64dec s := some s.data
  b64uDec s := some s.data
  kemDecaps alg sk ct := if alg = .lit "ntru-hrss701" then some (sk ++ ct) else none
  shake256 _ := ⟨List.replicate 32 5, rfl⟩
  hmacSha512 _ m := ⟨((m.map (· ||| 1)) ++ List.replicate 64 1).take 64, by simp⟩
  sha256 _ := ⟨List.replicate 32 7, rfl⟩

/-- The packet of a flow and a nick in the first format, with its tag. -/
def samplePkt (flow nick : CString) (h : flow.data.length ≤ ffMaxFlowLen) : ChallengePkt :=
  let pkt : ChallengePkt := ⟨flow, some nick, .lit "ntru-hrss701", ⟨List.replicate 16 1, rfl⟩, 5,
    [2], List.replicate 32 3, none, 1, none, h⟩
  { pkt with tag1 := some (truncate (samplePrims.hmacSha512 ⟨List.replicate 32 5, rfl⟩
    (aadV1Legacy pkt nick))) }

/-- A text of an answer. -/
def sampleText (data : List UInt8) : Json := .str ⟨data.filter (· ≠ 0), by simp⟩

/-- The same as an answer of the server. -/
def sampleAnswer (flow nick : CString) (h : flow.data.length ≤ ffMaxFlowLen := by decide) : Json :=
  let pkt := samplePkt flow nick h
  .obj [("flow", .str flow), ("nick", .str nick), ("kem_id", .str pkt.kemId),
    ("sid", sampleText pkt.sidRaw.data), ("ts", .int 5), ("ct_b64", sampleText pkt.ct),
    ("payload_b64", sampleText pkt.payload),
    ("tag_b64", sampleText ((pkt.tag1.map Bytes.data).getD []))]

structure Vault where
  nick : CString
  kemAlg : CString
  kemSk : List UInt8
  falconPk : List UInt8
  kemPk : List UInt8

/-- The bytes that escaping a byte for JSON takes. -/
def unitLen (c : UInt8) : Nat :=
  if c ∈ [0x22, 0x5C, 0x08, 0x0C, 0x0A, 0x0D, 0x09] then 2 else if c < 0x20 then 6 else 1

/-- The bytes of a text once it is escaped for JSON. -/
def escapedLen (s : CString) : Nat := (s.data.map unitLen).sum

/-- A nick that is missing or empty is that of the request. -/
def fillNick (pkt : ChallengePkt) (nick : CString) : ChallengePkt :=
  match pkt.nick with
  | some n => if n.data = [] then { pkt with nick := some nick } else pkt
  | none => { pkt with nick := some nick }

section
variable (pr : AuthPrims)

/-- From the answer of the server to what is signed. -/
def answerChallenge (v : Vault) (nick : CString) (response : Json) : Option SignInput := do
  let pkt ← pktParseJson pr response
  let pkt := fillNick pkt nick
  guard (v.kemAlg.data = [] ∨ pkt.kemId = v.kemAlg)
  let challenge ← recoverChallenge pr v.kemSk pkt
  let _ ← buildTranscript pr.sha256 pkt challenge
  pure (.transcript pkt challenge)

/-- `cmd_login`, up to the signature. The request has to fit a buffer of 512 bytes. -/
def cmdLogin (v : Vault) (nick : CString) (response : Json) : Option SignInput := do
  guard (11 + escapedLen nick < 512)
  answerChallenge pr v nick response

/-- `cmd_register`, from the answer to `register/finish` up to the signature. -/
def cmdRegister (v : Vault) (nick : CString) (response : Json) : Option SignInput := do
  guard (v.falconPk ≠ [] ∧ v.kemPk ≠ [])
  answerChallenge pr v nick response

variable {pr}

/-- A text of the answer. -/
def answerStr (response : Json) (key : String) : Option CString :=
  (pktSource response).bind fun (src, root) => jsonGetStr2 src root key

theorem fillNick_flow (pkt : ChallengePkt) (nick : CString) :
    (fillNick pkt nick).flow = pkt.flow := by
  unfold fillNick
  split
  · split <;> rfl
  · rfl

theorem fillNick_nick_iff (pkt : ChallengePkt) (nick : CString) :
    (fillNick pkt nick).nick = some nick
      ↔ ∀ n, pkt.nick = some n → n.data = [] ∨ n = nick := by
  unfold fillNick
  cases hn : pkt.nick with
  | none => simp
  | some n =>
    dsimp only
    split
    · rename_i hempty
      simp [hempty]
    · rename_i hfull
      simp [hn, hfull]

/-- **The request and the answer.** What a login or a registration for `nick` signs is for that nick
    and for the flow `flow` exactly if the answer of the server names that flow, and the nick or
    none. -/
theorem signs_requested_iff (pr : AuthPrims) (v : Vault) (nick flow : CString) (response : Json)
    (input : SignInput)
    (h : cmdLogin pr v nick response = some input ∨ cmdRegister pr v nick response = some input) :
    (∃ ts sid kemId ctHash challenge, input.meaning pr.sha256
        = some (.transcript flow nick ts sid kemId ctHash challenge))
      ↔ answerStr response "flow" = some flow
        ∧ ∀ n, answerStr response "nick" = some n → n.data = [] ∨ n = nick := by
  have hanswer : answerChallenge pr v nick response = some input := by
    rcases h with h | h
    · obtain ⟨-, -, h⟩ := Option.bind_eq_some_iff.mp h
      exact h
    · obtain ⟨-, -, h⟩ := Option.bind_eq_some_iff.mp h
      exact h
  obtain ⟨pkt, hpkt, h⟩ := Option.bind_eq_some_iff.mp hanswer
  obtain ⟨-, -, h⟩ := Option.bind_eq_some_iff.mp h
  obtain ⟨challenge, -, h⟩ := Option.bind_eq_some_iff.mp h
  obtain ⟨-, -, h⟩ := Option.bind_eq_some_iff.mp h
  cases h
  obtain ⟨src, root, hsrc, hflow, hnick, -⟩ := pktParseJson_some hpkt
  have hanswerStr : ∀ key, answerStr response key = jsonGetStr2 src root key := by
    intro key
    rw [answerStr, hsrc, Option.bind_some]
  rw [hanswerStr, hanswerStr, hflow, hnick, ← fillNick_nick_iff]
  simp only [SignInput.meaning, Option.map_eq_some_iff, Meaning.transcript.injEq, fillNick_flow,
    Option.some.injEq]
  constructor
  · rintro ⟨_, _, _, _, _, n, hn, rfl, rfl, -⟩
    exact ⟨rfl, hn⟩
  · rintro ⟨rfl, hn⟩
    exact ⟨_, _, _, _, _, nick, hn, rfl, rfl, rfl, rfl, rfl, rfl, rfl⟩

end

/-! ### Samples -/

def sampleVault : Vault := ⟨.lit "alice", .lit "ntru-hrss701", [], [1], [1]⟩

theorem signs_requested_iff_sample :
    ∃ input, cmdLogin samplePrims sampleVault (.lit "alice")
        (sampleAnswer (.lit "login") (.lit "alice")) = some input
      ∧ ∃ ts sid kemId ctHash challenge, input.meaning samplePrims.sha256
        = some (.transcript (.lit "login") (.lit "alice") ts sid kemId ctHash challenge) := by
  have hlogin : cmdLogin samplePrims sampleVault (.lit "alice")
      (sampleAnswer (.lit "login") (.lit "alice"))
      = some (.transcript (samplePkt (.lit "login") (.lit "alice") (by decide))
        ⟨List.replicate 32 6, rfl⟩) := by
    decide +kernel
  refine ⟨_, hlogin, (signs_requested_iff _ _ _ _ _ _ (.inl hlogin)).mpr ⟨rfl, ?_⟩⟩
  intro n hn
  exact .inr (Option.some.inj hn).symm

/-- **Signed for another.** A login for `alice` is answered with a registration of `mallory`, and
    that is signed. -/
theorem signed_for_another :
    ∃ input, cmdLogin samplePrims sampleVault (.lit "alice")
        (sampleAnswer (.lit "register") (.lit "mallory")) = some input
      ∧ input.meaning samplePrims.sha256 = some (.transcript (.lit "register") (.lit "mallory") 5
        ⟨List.replicate 16 1, rfl⟩ (.lit "ntru-hrss701") ⟨List.replicate 32 7, rfl⟩
        ⟨List.replicate 32 6, rfl⟩) :=
  ⟨.transcript (samplePkt (.lit "register") (.lit "mallory") (by decide))
    ⟨List.replicate 32 6, rfl⟩, by decide +kernel⟩

end Nexum.Cli
