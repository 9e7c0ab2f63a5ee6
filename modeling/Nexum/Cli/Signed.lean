import Nexum.Lib.Bytes
import Nexum.Lib.Text

/-!
# What the client signs

`nexum-cli` signs four kinds of byte strings with one Falcon key: the transcript of a login or a
registration, the list of prekeys it uploads, direct messages, and the manifest of its vault. They
are built by hand and each in its own way: fields with their length in front, names that end at a
zero byte, blocks of fixed length, and text.

A signature is for one purpose, and for one content (`signed_string_determines`): the fourth byte
tells the kinds apart, and within a kind the string has one reading. The one field whose end only
its length tells is the flow, which the parser of a packet keeps short; every other name is followed
by a zero byte, in the length of the field after it if nowhere else.
-/

namespace Nexum.Cli

open Nexum.Lib

/-! ## 1. The four kinds -/

/-- A C string. -/
structure CString where
  data : List UInt8
  noNul : (0 : UInt8) ∉ data
  deriving DecidableEq

def CString.lit (s : String) (h : (0 : UInt8) ∉ utf8 s := by decide) : CString := ⟨utf8 s, h⟩

def ffMaxFlowLen : Nat := 32

/-- A parsed challenge. The parser checks the lengths that are fixed here. -/
structure ChallengePkt where
  flow : CString
  nick : Option CString
  kemId : CString
  sidRaw : Bytes 16
  ts : UInt64
  ct : List UInt8
  payload : List UInt8
  tag1 : Option (Bytes 32)
  aadVer : Int
  tag2 : Option (Bytes 32)
  flowLen : flow.data.length ≤ ffMaxFlowLen
  deriving DecidableEq

/-- A field with its length in front. -/
def encField (field : List UInt8) : List UInt8 := u32be field.length ++ field

def ctxAuthV1 : List UInt8 := utf8 "FF-AUTH-v1"
def prekeysSigPrefix : List UInt8 := utf8 "FF-PREKEYS-v1"
def dmAadPrefix : List UInt8 := utf8 "FF-DM-v1"
def dmSigPrefix : List UInt8 := utf8 "FF-DM-SIG-v1"

structure PrekeyEntry where
  prekeyId : Bytes 16
  kemId : CString
  pk : List UInt8
  sk : List UInt8
  used : Bool
  deriving DecidableEq

section
variable (sha256 : List UInt8 → Bytes 32)

/-- `ff_build_transcript`; it needs a nick. -/
def buildTranscript (pkt : ChallengePkt) (challenge : Bytes 32) : Option (List UInt8) :=
  pkt.nick.map fun nick =>
    ctxAuthV1 ++ (encField pkt.flow.data ++ (encField nick.data ++ (encField (u64be pkt.ts)
      ++ (encField pkt.sidRaw.data ++ (encField pkt.kemId.data
        ++ (encField (sha256 pkt.ct).data ++ encField challenge.data))))))

def buildPrekeysSigMsg (nick kemId : CString) (entries : List PrekeyEntry) : List UInt8 :=
  prekeysSigPrefix ++ 0 :: (nick.data ++ 0 :: (kemId.data ++ 0 :: (u32be entries.length
    ++ entries.flatMap fun e => e.prekeyId.data ++ (sha256 e.pk).data)))

/-- What a direct message says about itself. -/
structure DmHeader where
  senderNick : CString
  toNick : CString
  kemId : CString
  prekeyId : Bytes 16
  deriving DecidableEq

/-- The associated data, in front of what follows it. -/
def buildAad (h : DmHeader) (ct rest : List UInt8) : List UInt8 :=
  dmAadPrefix ++ 0 :: (h.senderNick.data ++ 0 :: (h.toNick.data ++ 0 :: (h.prekeyId.data
    ++ 0 :: (h.kemId.data ++ 0 :: ((sha256 ct).data ++ rest)))))

def dmSigMessage (h : DmHeader) (ct : List UInt8) (nonce : Bytes 16) (ciphertext : List UInt8)
    (tag : Bytes 32) : List UInt8 :=
  dmSigPrefix ++ 0 :: buildAad sha256 h ct (0 :: (nonce.data ++ 0 :: (ciphertext ++ 0 :: tag.data)))

/-- The manifest, cut to the buffer it is printed into. -/
def vaultManifest (nick kemAlg : CString) : List UInt8 :=
  (utf8 "\x7b\"v\":1,\"nick\":\"" ++ (nick.data
    ++ (utf8 "\",\"sig_alg\":\"free_falconb_sign\",\"kem_alg\":\""
      ++ ((if kemAlg.data = [] then utf8 "ntru-hrss701" else kemAlg.data)
        ++ utf8 "\"\x7d")))).take 511

/-- Something to sign. -/
inductive SignInput
  | transcript (pkt : ChallengePkt) (challenge : Bytes 32)
  | prekeys (nick kemId : CString) (entries : List PrekeyEntry)
  | message (h : DmHeader) (ct : List UInt8) (nonce : Bytes 16) (ciphertext : List UInt8)
    (tag : Bytes 32)
  | manifest (nick kemAlg : CString)
  deriving DecidableEq

/-- The string that is signed. -/
def SignInput.bytes : SignInput → Option (List UInt8)
  | .transcript pkt challenge => buildTranscript sha256 pkt challenge
  | .prekeys nick kemId entries => some (buildPrekeysSigMsg sha256 nick kemId entries)
  | .message h ct nonce ciphertext tag => some (dmSigMessage sha256 h ct nonce ciphertext tag)
  | .manifest nick kemAlg => some (vaultManifest nick kemAlg)

/-- What a signature is for: the kind, and the fields of it. -/
inductive Meaning
  | transcript (flow nick : CString) (ts : UInt64) (sid : Bytes 16) (kemId : CString)
    (ctHash challenge : Bytes 32)
  | prekeys (nick kemId : CString) (keys : List (Bytes 16 × Bytes 32))
  | message (h : DmHeader) (ctHash : Bytes 32) (nonce : Bytes 16) (ciphertext : List UInt8)
    (tag : Bytes 32)
  | manifest
  deriving DecidableEq

def SignInput.meaning : SignInput → Option Meaning
  | .transcript pkt challenge => pkt.nick.map fun nick =>
    .transcript pkt.flow nick pkt.ts pkt.sidRaw pkt.kemId (sha256 pkt.ct) challenge
  | .prekeys nick kemId entries =>
    some (.prekeys nick kemId (entries.map fun e => (e.prekeyId, sha256 e.pk)))
  | .message h ct nonce ciphertext tag => some (.message h (sha256 ct) nonce ciphertext tag)
  | .manifest _ _ => some .manifest

end

/-! ## 2. One reading -/

variable {sha256 : List UInt8 → Bytes 32}

theorem CString.eq_of_data {a b : CString} (h : a.data = b.data) : a = b := by
  cases a
  cases b
  cases h
  rfl

theorem CString.append_inj {a b : CString} {s t : List UInt8}
    (h : a.data ++ 0 :: s = b.data ++ 0 :: t) : a = b ∧ s = t := by
  obtain ⟨hdata, hrest⟩ := (append_sep_inj a.noNul b.noNul).mp h
  exact ⟨CString.eq_of_data hdata, hrest⟩

theorem encField_inj {f g s t : List UInt8} (hf : f.length < 2 ^ 32) (hg : g.length < 2 ^ 32)
    (h : encField f ++ s = encField g ++ t) : f = g ∧ s = t := by
  simp only [encField, List.append_assoc] at h
  obtain ⟨hlen, h⟩ := List.append_inj h (by simp)
  exact List.append_inj h (u32be_inj hf hg hlen)

theorem encField_bytes_inj {n : Nat} {f g : Bytes n} {s t : List UInt8}
    (h : encField f.data ++ s = encField g.data ++ t) : f = g ∧ s = t := by
  simp only [encField, List.append_assoc, f.len, g.len] at h
  exact Bytes.append_inj (List.append_cancel_left h)

/-- A name and a short field: the length of the field starts with a zero byte, where the name ends,
    so the length of the name is not needed. -/
theorem encField_cstring_inj {f g : CString} {n : Nat} {x y : Bytes n} {s t : List UInt8}
    (hn : u32be n = 0 :: (u32be n).tail)
    (h : encField f.data ++ (encField x.data ++ s) = encField g.data ++ (encField y.data ++ t)) :
    f = g ∧ x = y ∧ s = t := by
  simp only [encField, List.append_assoc, x.len, y.len] at h
  rw [hn, List.cons_append, List.cons_append] at h
  obtain ⟨hname, hrest⟩ := CString.append_inj (List.append_inj h (by simp)).2
  exact ⟨hname, Bytes.append_inj (List.append_cancel_left hrest)⟩

theorem transcript_inj {pkt pkt' : ChallengePkt} {challenge challenge' : Bytes 32} {m : List UInt8}
    (h : buildTranscript sha256 pkt challenge = some m)
    (h' : buildTranscript sha256 pkt' challenge' = some m) :
    (SignInput.transcript pkt challenge).meaning sha256
      = (SignInput.transcript pkt' challenge').meaning sha256 := by
  obtain ⟨nick, hnick, rfl⟩ := Option.map_eq_some_iff.mp h
  obtain ⟨nick', hnick', heq⟩ := Option.map_eq_some_iff.mp h'
  -- the flow is short, so its length tells where it ends
  obtain ⟨hflow, heq⟩ := encField_inj (pkt'.flowLen.trans_lt (by decide))
    (pkt.flowLen.trans_lt (by decide)) (List.append_cancel_left heq)
  let word (ts : UInt64) : Bytes 8 := ⟨u64be ts, length_u64be ts⟩
  obtain ⟨hn, hts, heq⟩ := encField_cstring_inj (x := word pkt'.ts) (y := word pkt.ts) rfl heq
  obtain ⟨hsid, heq⟩ := encField_bytes_inj heq
  obtain ⟨hkem, hhash, heq⟩ := encField_cstring_inj rfl heq
  obtain ⟨hch, -⟩ := encField_bytes_inj (s := []) (t := []) (by simpa using heq)
  simp only [SignInput.meaning, hnick, hnick', Option.map_some, hn, hkem, hhash, hch, hsid,
    CString.eq_of_data hflow, u64be_injective (congrArg Bytes.data hts)]

theorem entries_inj {entries entries' : List PrekeyEntry}
    (hlen : entries.length = entries'.length)
    (h : (entries.flatMap fun e => e.prekeyId.data ++ (sha256 e.pk).data)
      = entries'.flatMap fun e => e.prekeyId.data ++ (sha256 e.pk).data) :
    (entries.map fun e => (e.prekeyId, sha256 e.pk))
      = entries'.map fun e => (e.prekeyId, sha256 e.pk) := by
  induction entries generalizing entries' with
  | nil => rw [List.length_eq_zero_iff.mp hlen.symm]
  | cons e rest ih =>
    cases entries' with
    | nil => cases hlen
    | cons e' rest' =>
      simp only [List.flatMap_cons, List.append_assoc] at h
      obtain ⟨hid, h⟩ := Bytes.append_inj h
      obtain ⟨hhash, h⟩ := Bytes.append_inj h
      rw [List.map_cons, List.map_cons, ih (Nat.succ.inj hlen) h, hid, hhash]

/-- The blocks have one length, so the length of the string tells their number. -/
theorem prekeys_inj {nick nick' kemId kemId' : CString} {entries entries' : List PrekeyEntry}
    (h : buildPrekeysSigMsg sha256 nick kemId entries
      = buildPrekeysSigMsg sha256 nick' kemId' entries') :
    nick = nick' ∧ kemId = kemId' ∧ (entries.map fun e => (e.prekeyId, sha256 e.pk))
      = entries'.map fun e => (e.prekeyId, sha256 e.pk) := by
  obtain ⟨-, h⟩ := List.cons.inj (List.append_cancel_left h)
  obtain ⟨hnick, h⟩ := CString.append_inj h
  obtain ⟨hkem, h⟩ := CString.append_inj h
  obtain ⟨-, h⟩ := List.append_inj h (by simp)
  have hblocks : ∀ l : List PrekeyEntry,
      (l.flatMap fun e => e.prekeyId.data ++ (sha256 e.pk).data).length = l.length * 48 := by
    intro l
    induction l with
    | nil => rfl
    | cons e rest ih =>
      simp only [List.flatMap_cons, List.length_append, Bytes.len, ih, List.length_cons]
      omega
  have hlen := congrArg List.length h
  rw [hblocks, hblocks] at hlen
  exact ⟨hnick, hkem, entries_inj (by omega) h⟩

theorem dmHeader_inj {h h' : DmHeader} {ct ct' s t : List UInt8}
    (heq : buildAad sha256 h ct s = buildAad sha256 h' ct' t) :
    h = h' ∧ sha256 ct = sha256 ct' ∧ s = t := by
  obtain ⟨-, heq⟩ := List.cons.inj (List.append_cancel_left heq)
  obtain ⟨hsender, heq⟩ := CString.append_inj heq
  obtain ⟨hto, heq⟩ := CString.append_inj heq
  obtain ⟨hprekey, heq⟩ := Bytes.append_inj heq
  obtain ⟨hkem, heq⟩ := CString.append_inj (List.cons.inj heq).2
  obtain ⟨hhash, heq⟩ := Bytes.append_inj heq
  refine ⟨?_, hhash, heq⟩
  cases h
  cases h'
  simp_all

theorem dmSigMessage_inj {h h' : DmHeader} {ct ct' ciphertext ciphertext' : List UInt8}
    {nonce nonce' : Bytes 16} {tag tag' : Bytes 32}
    (heq : dmSigMessage sha256 h ct nonce ciphertext tag
      = dmSigMessage sha256 h' ct' nonce' ciphertext' tag') :
    h = h' ∧ sha256 ct = sha256 ct' ∧ nonce = nonce' ∧ ciphertext = ciphertext' ∧ tag = tag' := by
  obtain ⟨-, heq⟩ := List.cons.inj (List.append_cancel_left heq)
  obtain ⟨hh, hhash, heq⟩ := dmHeader_inj heq
  obtain ⟨hnonce, heq⟩ := Bytes.append_inj (List.cons.inj heq).2
  -- from the right: the tag
  obtain ⟨hct, heq⟩ := List.append_inj' (List.cons.inj heq).2 (by simp [Bytes.len])
  exact ⟨hh, hhash, hnonce, hct, Bytes.ext_data (List.cons.inj heq).2⟩

/-! ## 3. One kind -/

/-- The byte that tells the kinds apart: `A`, `P`, `D`, or the quote after `v`. -/
def SignInput.mark : SignInput → UInt8
  | .transcript .. => 65
  | .prekeys .. => 80
  | .message .. => 68
  | .manifest .. => 34

theorem mark_of_bytes {a : SignInput} {m : List UInt8} (h : a.bytes sha256 = some m) :
    m[3]? = some a.mark := by
  have hhead : ∀ {p rest : List UInt8} {b : UInt8}, p[3]? = some b → (p ++ rest)[3]? = some b := by
    intro p rest b hb
    obtain ⟨hlt, -⟩ := List.getElem?_eq_some_iff.mp hb
    rw [List.getElem?_append_left hlt, hb]
  cases a with
  | transcript pkt challenge =>
    obtain ⟨nick, -, rfl⟩ := Option.map_eq_some_iff.mp h
    exact hhead rfl
  | prekeys nick kemId entries =>
    cases h
    exact hhead rfl
  | message h ct nonce ciphertext tag =>
    cases h
    exact hhead rfl
  | manifest nick kemAlg =>
    cases h
    rw [vaultManifest, List.getElem?_take_of_lt (by decide)]
    exact hhead rfl

/-- **One key, separate uses.** A string that is signed has one meaning: if two inputs are signed as
    the same string, they are of one kind and have the same fields. -/
theorem signed_string_determines (sha256 : List UInt8 → Bytes 32) (a b : SignInput)
    (m : List UInt8) (ha : a.bytes sha256 = some m) (hb : b.bytes sha256 = some m) :
    a.meaning sha256 = b.meaning sha256 ∧ (a.meaning sha256).isSome := by
  have hmark : a.mark = b.mark :=
    Option.some.inj ((mark_of_bytes ha).symm.trans (mark_of_bytes hb))
  cases a with
  | transcript pkt challenge =>
    cases b with
    | transcript pkt' challenge' =>
      obtain ⟨nick, hnick, -⟩ := Option.map_eq_some_iff.mp ha
      exact ⟨transcript_inj ha hb, by simp [SignInput.meaning, hnick]⟩
    | _ => exact absurd hmark (by simp [SignInput.mark])
  | prekeys nick kemId entries =>
    cases b with
    | prekeys nick' kemId' entries' =>
      obtain ⟨rfl, rfl, hkeys⟩ := prekeys_inj ((Option.some.inj ha).trans (Option.some.inj hb).symm)
      exact ⟨by simp only [SignInput.meaning, hkeys], rfl⟩
    | _ => exact absurd hmark (by simp [SignInput.mark])
  | message h ct nonce ciphertext tag =>
    cases b with
    | message h' ct' nonce' ciphertext' tag' =>
      obtain ⟨rfl, hhash, rfl, rfl, rfl⟩ :=
        dmSigMessage_inj ((Option.some.inj ha).trans (Option.some.inj hb).symm)
      exact ⟨by simp only [SignInput.meaning, hhash], rfl⟩
    | _ => exact absurd hmark (by simp [SignInput.mark])
  | manifest nick kemAlg =>
    cases b with
    | manifest nick' kemAlg' => exact ⟨rfl, rfl⟩
    | _ => exact absurd hmark (by simp [SignInput.mark])

/-- An upload of two prekeys with one byte each. -/
def twoPrekeys (a b : UInt8) : SignInput :=
  .prekeys (.lit "dave") (.lit "hrss701")
    [⟨.fill 16 1, .lit "hrss701", [a], [a], false⟩,
      ⟨.fill 16 2, .lit "hrss701", [b], [b], false⟩]

/-- Two uploads that are signed alike mean the same, and two that do not are signed differently: the
    first hash looks at the length only, the second at the first byte. -/
theorem signed_string_determines_sample :
    let ofLength : List UInt8 → Bytes 32 := fun m => .fill 32 (UInt8.ofNat m.length)
    let ofHead : List UInt8 → Bytes 32 := fun m => .fill 32 (m.headD 0)
    twoPrekeys 1 2 ≠ twoPrekeys 3 4
      ∧ (twoPrekeys 1 2).meaning ofLength = (twoPrekeys 3 4).meaning ofLength
      ∧ (twoPrekeys 1 2).bytes ofHead ≠ (twoPrekeys 1 3).bytes ofHead := by
  intro ofLength ofHead
  refine ⟨by decide, (signed_string_determines ofLength _ _ _ rfl rfl).1, fun h => ?_⟩
  have hmeaning := (signed_string_determines ofHead (twoPrekeys 1 2) (twoPrekeys 1 3) _ rfl h.symm).1
  exact absurd hmeaning (by decide)

end Nexum.Cli
