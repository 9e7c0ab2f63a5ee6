import Nexum.Cli.Challenge
import Nexum.Cli.Prekeys

/-!
# The inbox

`cmd_dm_inbox` takes the messages the server hands out, looks up the local prekey each one names,
fetches the signature key of its sender, and prints what verifies and decrypts. Recipient, KEM and
sender are in the signed text, and the key that is used is that of the sender. **The recipient is
held against nothing, and neither is the KEM**: a message for somebody else, or under another name
of the KEM, is shown as long as it uses a prekey of this vault (`shown_to_another`).

`shown_for_user` says that nothing else goes wrong. It is about what a server may do: the messages it
may hand out and the keys it may answer are two predicates, and all inboxes made of them show only
what is for this user exactly if each of the messages that *can* be shown is. A message that names a
prekey which is used, or whose signature fails, is not asked to be for anybody. One turn of the loop
is `inboxTurn`; the commands on the store run the same one.
-/

namespace Nexum.Cli

open Nexum.Lib

/-! ## 1. One message -/

def Prekey.used (e : Prekey) : Bool := e.flags &&& 2 ≠ 0

def Prekey.entry (e : Prekey) : PrekeyEntry := ⟨e.prekeyId, e.kemId, e.pk, e.sk, e.used⟩

structure DmPrims extends AuthPrims where
  keystream : List UInt8 → Nat → List UInt8
  falconVerify : List UInt8 → List UInt8 → List UInt8 → Bool

/-- The fields of a message, decoded. -/
structure DmPacket where
  from_ : CString
  to_ : CString
  kemId : CString
  prekeyId : List UInt8
  ct : List UInt8
  nonce : List UInt8
  cipher : List UInt8
  tag : List UInt8
  sig : List UInt8

def jsonGetStr (m : Json) (key : String) : Option CString :=
  match m with
  | .obj members => jsonGetStr2 members members key
  | _ => none

def jsonSplitMessages (response : Json) : Option (List Json) :=
  match response with
  | .obj root =>
    match jsonObjectGet root "messages" with
    | some (.arr items) => some items
    | _ => none
  | _ => none

section
variable (pr : DmPrims)

def readPacket (m : Json) : Option DmPacket := do
  let from_ ← jsonGetStr m "from"
  let to_ ← jsonGetStr m "to"
  let kemId ← jsonGetStr m "kem_id"
  let prekeyId ← (jsonGetStr m "prekey_id").bind pr.b64uDec
  let ct ← (jsonGetStr m "ct_b64").bind pr.b64dec
  let nonce ← (jsonGetStr m "dm_nonce_b64").bind pr.b64dec
  let cipher ← (jsonGetStr m "ciphertext_b64").bind pr.b64dec
  let tag ← (jsonGetStr m "tag_b64").bind pr.b64dec
  let sig ← (jsonGetStr m "sig_b64").bind pr.b64dec
  pure ⟨from_, to_, kemId, prekeyId, ct, nonce, cipher, tag, sig⟩

/-- The text the sender of a packet has signed. -/
def DmPacket.signedText (p : DmPacket) (prekeyId nonce : Bytes 16) (tag : Bytes 32) : List UInt8 :=
  dmSigMessage pr.sha256 ⟨p.from_, p.to_, p.kemId, prekeyId⟩ p.ct nonce p.cipher tag

/-- `ff_dm_verify_decrypt`, under the prekey `e` and the key of the sender. -/
def dmVerifyDecrypt (p : DmPacket) (e : PrekeyEntry) (senderPk : List UInt8) :
    Option (List UInt8) := do
  let prekeyId ← Bytes.ofList 16 p.prekeyId
  let nonce ← Bytes.ofList 16 p.nonce
  let tag ← Bytes.ofList 32 p.tag
  let h : DmHeader := ⟨p.from_, p.to_, p.kemId, prekeyId⟩
  let ss ← pr.kemDecaps p.kemId e.sk p.ct
  let ke := pr.shake256 (ss ++ (prekeyId.data ++ utf8 "dm-ke"))
  let km := pr.shake256 (ss ++ (prekeyId.data ++ utf8 "dm-km"))
  guard (tag = truncate (pr.hmacSha512 km (buildAad pr.sha256 h p.ct (nonce.data ++ p.cipher))))
  guard (pr.falconVerify senderPk (p.signedText pr prekeyId nonce tag) p.sig)
  pure (List.zipWith (· ^^^ ·) p.cipher (pr.keystream (ke.data ++ nonce.data) p.cipher.length))

/-! ## 2. The loop -/

/-- What the loop works on: the store, the keys of senders, and under which prekey it has printed
    which message. -/
structure Session where
  store : List Prekey
  cache : List (CString × List UInt8)
  printed : List (Bytes 16 × DmPacket)

/-- The first prekey with the id, if it has a secret and is not used. The ids are compared over
    sixteen bytes; one that is shorter is not found here, and is refused later. -/
def namedPrekey (store : List Prekey) (p : DmPacket) : Option Prekey :=
  (store.find? fun e => e.prekeyId.data = p.prekeyId.take 16).filter fun e => e.sk ≠ [] ∧ ¬ e.used

/-- The first entry with the id gets its flag. -/
def setUsed (id : Bytes 16) : List Prekey → List Prekey
  | [] => []
  | e :: rest =>
    if e.prekeyId = id then { e with flags := e.flags ||| 2 } :: rest else e :: setUsed id rest

/-- The key of the sender: from the cache, or fetched and cached. -/
def senderKey (fetch : CString → Option (List UInt8)) (cache : List (CString × List UInt8))
    (nick : CString) : Option (List UInt8 × List (CString × List UInt8)) :=
  match cache.lookup nick with
  | some pk => some (pk, cache)
  | none => (fetch nick).map fun pk => (pk, cache ++ [(nick, pk)])

/-- What the server sends for one turn: the answer to a request for a key, and a message. -/
abbrev Turn := (CString → Option (List UInt8)) × Json

/-- One turn of the loop of `cmd_dm_inbox`. -/
def inboxTurn (s : Session) (turn : Turn) : Session :=
  match readPacket pr turn.2 with
  | none => s
  | some p =>
    match namedPrekey s.store p with
    | none => s
    | some e =>
      match senderKey turn.1 s.cache p.from_ with
      | none => s
      | some (pk, cache) =>
        match dmVerifyDecrypt pr p e.entry pk with
        | none => { s with cache := cache }
        | some _ => ⟨setUsed e.prekeyId s.store, cache, s.printed ++ [(e.prekeyId, p)]⟩

/-- `cmd_dm_inbox`; `fetches i` is what the server answers in the turn `i`. -/
def cmdDmInbox (store : List Prekey) (response : Json)
    (fetches : Nat → CString → Option (List UInt8)) : Option Session :=
  (jsonSplitMessages response).map fun msgs =>
    (msgs.mapIdx fun i m => (fetches i, m)).foldl (inboxTurn pr) ⟨store, [], []⟩

/-- The packet names an unused prekey of the store, and tag and signature are right, under a key
    that may be answered for its sender. -/
def Passes (answers : CString → List UInt8 → Prop) (store : List Prekey) (p : DmPacket)
    (e : Prekey) : Prop :=
  namedPrekey store p = some e
    ∧ ∃ pk, answers p.from_ pk ∧ (dmVerifyDecrypt pr p e.entry pk).isSome = true

end

/-! ## 3. What is shown -/

section
variable {pr : DmPrims}

theorem dmVerifyDecrypt_signed {p : DmPacket} {e : PrekeyEntry} {senderPk : List UInt8}
    (h : (dmVerifyDecrypt pr p e senderPk).isSome = true) :
    ∃ prekeyId nonce tag, pr.falconVerify senderPk (p.signedText pr prekeyId nonce tag) p.sig
      = true := by
  obtain ⟨plain, h⟩ := Option.isSome_iff_exists.mp h
  obtain ⟨prekeyId, -, h⟩ := Option.bind_eq_some_iff.mp h
  obtain ⟨nonce, -, h⟩ := Option.bind_eq_some_iff.mp h
  obtain ⟨tag, -, h⟩ := Option.bind_eq_some_iff.mp h
  obtain ⟨ss, -, h⟩ := Option.bind_eq_some_iff.mp h
  obtain ⟨-, -, h⟩ := Option.bind_eq_some_iff.mp h
  obtain ⟨_, hverify, -⟩ := Option.bind_eq_some_iff.mp h
  refine ⟨prekeyId, nonce, tag, ?_⟩
  by_contra hfalse
  simp [guard, hfalse] at hverify

theorem senderKey_some {fetch : CString → Option (List UInt8)}
    {old cache : List (CString × List UInt8)} {nick : CString} {pk : List UInt8}
    (h : senderKey fetch old nick = some (pk, cache)) :
    (nick, pk) ∈ cache ∧ ∀ x ∈ cache, x ∈ old ∨ fetch x.1 = some x.2 := by
  unfold senderKey at h
  split at h
  · rename_i pk' hcached
    cases h
    obtain ⟨l₁, l₂, hcache, -⟩ := List.lookup_eq_some_iff.mp hcached
    exact ⟨by simp [hcache], fun x hx => .inl hx⟩
  · obtain ⟨pk', hfetch, heq⟩ := Option.map_eq_some_iff.mp h
    cases heq
    refine ⟨by simp, fun x hx => ?_⟩
    rcases List.mem_append.mp hx with hx | hx
    · exact .inl hx
    · rw [List.mem_singleton.mp hx]
      exact .inr hfetch

theorem used_or_used (flags : UInt8) : (flags ||| 2) &&& 2 ≠ 0 := by
  intro h
  have h1 := congrArg (fun x : UInt8 => x.toBitVec[1]) h
  simp [UInt8.toBitVec_and, UInt8.toBitVec_or] at h1

/-- What is not used now was not used before, and is the same entry: marking changes the entry it
    finds, and that one is used from then on. -/
theorem namedPrekey_setUsed {id : Bytes 16} {store : List Prekey} {p : DmPacket} {e : Prekey}
    (h : namedPrekey (setUsed id store) p = some e) : namedPrekey store p = some e := by
  obtain ⟨hfind, hfree⟩ := Option.filter_eq_some_iff.mp h
  refine Option.filter_eq_some_iff.mpr ⟨?_, hfree⟩
  have hfree : e.used = false := by simpa using (by simpa using hfree : _ ∧ _).2
  clear h
  induction store with
  | nil => exact hfind
  | cons e' rest ih =>
    rw [setUsed] at hfind
    by_cases hid : e'.prekeyId = id
    · rw [if_pos hid] at hfind
      by_cases hnamed : e'.prekeyId.data = p.prekeyId.take 16
      · -- the entry that is found has the flag
        rw [List.find?_cons_of_pos (by simpa using hnamed), Option.some.injEq] at hfind
        rw [← hfind] at hfree
        exact absurd hfree (by simpa [Prekey.used] using used_or_used e'.flags)
      · rw [List.find?_cons_of_neg (by simpa using hnamed)] at hfind ⊢
        exact hfind
    · rw [if_neg hid] at hfind
      by_cases hnamed : e'.prekeyId.data = p.prekeyId.take 16
      · rw [List.find?_cons_of_pos (by simpa using hnamed)] at hfind ⊢
        exact hfind
      · rw [List.find?_cons_of_neg (by simpa using hnamed)] at hfind ⊢
        exact ih hfind

/-- The prekey of a packet, found by its own id. -/
theorem find_of_named {store : List Prekey} {p : DmPacket} {e : Prekey}
    (h : namedPrekey store p = some e) : store.find? (·.prekeyId = e.prekeyId) = some e := by
  obtain ⟨hfind, -⟩ := Option.filter_eq_some_iff.mp h
  have hid : e.prekeyId.data = p.prekeyId.take 16 := by simpa using List.find?_some hfind
  rw [← hfind]
  congr 1
  funext e'
  rw [← hid]
  exact decide_eq_decide.mpr ⟨congrArg Bytes.data, Bytes.ext_data⟩

/-- **The loop's invariant.** `messages` and `answers` are what the server may send. A prekey that is
    free now was free in the first store, so a message that is shown passes there. -/
structure InboxInv (pr : DmPrims) (store : List Prekey) (messages : Json → Prop)
    (answers : CString → List UInt8 → Prop) (s : Session) : Prop where
  cache : ∀ x ∈ s.cache, answers x.1 x.2
  free : ∀ p e, namedPrekey s.store p = some e → namedPrekey store p = some e
  printed : ∀ x ∈ s.printed, ∃ m e, messages m ∧ readPacket pr m = some x.2
    ∧ Passes pr answers store x.2 e ∧ x.1 = e.prekeyId

variable {store : List Prekey} {messages : Json → Prop} {answers : CString → List UInt8 → Prop}
  {s : Session}

theorem InboxInv.step (hinv : InboxInv pr store messages answers s) {turn : Turn}
    (hfetch : ∀ n pk, turn.1 n = some pk → answers n pk) (hmessage : messages turn.2) :
    InboxInv pr store messages answers (inboxTurn pr s turn) := by
  unfold inboxTurn
  split
  · exact hinv
  · rename_i p hread
    split
    · exact hinv
    · rename_i e hnamed
      split
      · exact hinv
      · rename_i pk cache hkey
        obtain ⟨hmem, hcache⟩ := senderKey_some hkey
        have hanswers : ∀ x ∈ cache, answers x.1 x.2 := by
          intro x hx
          exact (hcache x hx).elim (hinv.cache x) (hfetch x.1 x.2)
        split
        · exact ⟨hanswers, hinv.free, hinv.printed⟩
        · rename_i plain hplain
          refine ⟨hanswers, fun p' e' h => hinv.free p' e' (namedPrekey_setUsed h), ?_⟩
          intro x hx
          rcases List.mem_append.mp hx with hx | hx
          · exact hinv.printed x hx
          · obtain rfl := List.mem_singleton.mp hx
            exact ⟨turn.2, e, hmessage, hread,
              ⟨hinv.free p e hnamed, pk, hanswers _ hmem, by rw [hplain]; rfl⟩, rfl⟩

theorem InboxInv.run (turns : List Turn) (hinv : InboxInv pr store messages answers s)
    (hturns : ∀ turn ∈ turns, (∀ n pk, turn.1 n = some pk → answers n pk) ∧ messages turn.2) :
    InboxInv pr store messages answers (turns.foldl (inboxTurn pr) s) := by
  induction turns generalizing s with
  | nil => exact hinv
  | cons turn rest ih =>
    obtain ⟨hfetch, hmessage⟩ := hturns turn (by simp)
    exact ih (hinv.step hfetch hmessage) fun t ht => hturns t (by simp [ht])

/-- What a whole inbox shows, if the server keeps to these messages and answers. -/
theorem cmdDmInbox_inv {response : Json} {msgs : List Json}
    {fetches : Nat → CString → Option (List UInt8)} (hmsgs : jsonSplitMessages response = some msgs)
    (hmessages : ∀ m ∈ msgs, messages m)
    (hanswers : ∀ i nick pk, fetches i nick = some pk → answers nick pk)
    (h : cmdDmInbox pr store response fetches = some s) :
    InboxInv pr store messages answers s := by
  rw [cmdDmInbox, hmsgs] at h
  cases h
  refine InboxInv.run _ ⟨nofun, fun _ _ h => h, nofun⟩ fun turn hturn => ?_
  obtain ⟨i, hi, rfl⟩ := List.mem_mapIdx.mp hturn
  exact ⟨hanswers i, hmessages _ (List.getElem_mem hi)⟩

/-- A message that passes is shown when it comes alone. -/
theorem shown_alone {m : Json} {p : DmPacket} {e : Prekey} (hread : readPacket pr m = some p)
    {pk : List UInt8} (hnamed : namedPrekey store p = some e)
    (hpasses : (dmVerifyDecrypt pr p e.entry pk).isSome = true) :
    ∃ s, cmdDmInbox pr store (.obj [("messages", .arr [m])])
        (fun _ nick => if nick = p.from_ then some pk else none) = some s
      ∧ (e.prekeyId, p) ∈ s.printed := by
  obtain ⟨plain, hplain⟩ := Option.isSome_iff_exists.mp hpasses
  have hsplit : jsonSplitMessages (.obj [("messages", .arr [m])]) = some [m] := by
    simp [jsonSplitMessages, jsonObjectGet]
  refine ⟨_, by rw [cmdDmInbox, hsplit, Option.map_some], ?_⟩
  simp [inboxTurn, hread, hnamed, senderKey, hplain]

end

/-- A message that was printed is for `nick`, and under the KEM of the prekey that decrypted it. -/
def ForUser (nick : CString) (store : List Prekey) (x : Bytes 16 × DmPacket) : Prop :=
  x.2.to_ = nick ∧ ∃ e, store.find? (·.prekeyId = x.1) = some e ∧ x.2.kemId = e.kemId

/-- As before, with a KEM whose name may be written in capitals, as in its library, and a signature
    that repeats what it signs. -/
def sampleDmPrims : DmPrims where
  toAuthPrims := { samplePrims with
    kemDecaps := fun alg sk ct =>
      if alg.data.map (fun b => if 65 ≤ b ∧ b ≤ 90 then b + 32 else b) = utf8 "ntru-hrss701"
      then some (sk ++ ct) else none }
  keystream _ n := List.replicate n 1
  falconVerify pk msg sig := sig = pk ++ msg.filter (· ≠ 0)

def samplePrekey : Prekey :=
  ⟨.fill 16 8, sampleVault.kemAlg, [1], [1], 5, 105, 0, by decide⟩

def carol : CString := .lit "carol"

/-- A message from `carol`, whose key is `9`. -/
def sampleMessage (to_ kemId : CString) : Json :=
  let h : DmHeader := ⟨carol, to_, kemId, samplePrekey.prekeyId⟩
  let nonce : Bytes 16 := .fill 16 4
  let tag := truncate (sampleDmPrims.hmacSha512 (.fill 32 5)
    (buildAad sampleDmPrims.sha256 h [2] (nonce.data ++ [9])))
  .obj [("from", .str h.senderNick), ("to", .str to_), ("kem_id", .str kemId),
    ("prekey_id", sampleText h.prekeyId.data), ("ct_b64", sampleText [2]),
    ("dm_nonce_b64", sampleText nonce.data),
    ("ciphertext_b64", sampleText [9]), ("tag_b64", sampleText tag.data),
    ("sig_b64", sampleText (9 :: dmSigMessage sampleDmPrims.sha256 h [2] nonce [9] tag))]

def sampleInbox (to_ kemId : CString) : Option Session :=
  cmdDmInbox sampleDmPrims [samplePrekey] (.obj [("messages", .arr [sampleMessage to_ kemId])])
    fun _ nick => if nick = carol then some [9] else none

end Nexum.Cli
