import Nexum.Lib.Bytes
import Nexum.Lib.Text

/-!
# Sealed packets

`nxms_ms_encrypt_packet` and `nxms_ms_verify_decrypt`: a payload is encrypted under a key agreed
through a KEM, tagged, and signed together with a header that both sides know from elsewhere. The
header itself does not travel in the packet; the receiver rebuilds the signed bytes from the header
it expects.

The signed bytes are a concatenation of names that end at a zero byte and of parts of fixed length,
with one part of variable length, the ciphertext, before a tag of fixed length. No length is
written down anywhere, and none is needed: **the string has one reading** (`sigMessage_inj`). So a
signature that verifies is for one header, one KEM ciphertext (up to its hash), one nonce,
ciphertext and tag.

The primitives are parameters. SHAKE256 is an endless stream of bytes for each input; the KEM and
the signature are functions that take their randomness as an argument and may fail. Failing
allocations are left out.
-/

namespace Nexum.MsTransport

open Nexum.Lib

/-! ## 1. Limits -/

def nxmsEscrowIdLen : Nat := 16
def nxmsNonceLen : Nat := 24
def nxmsTagLen : Nat := 32
def nxmsMaxPayload : Nat := 16 * 1024 * 1024
def nxmsMaxIdLen : Nat := 128
def nxmsMinKemBytes : Nat := 64
def nxmsMaxKemPkLen : Nat := 32768
def nxmsMaxKemCtLen : Nat := 32768
def nxmsMaxKemSkLen : Nat := 65536
def nxmsMaxSigSkLen : Nat := 65536
def nxmsMaxSigPkLen : Nat := 65536
def ffFalconSigMax : Nat := 4096

def nxmsKemId : List UInt8 := utf8 "FrodoKEM-640-SHAKE"
def nxmsSigId : List UInt8 := utf8 "Falcon-1024-CT"
def aadPrefixBytes : List UInt8 := utf8 "NXMS-AAD-v1"
def sigPrefixBytes : List UInt8 := utf8 "NXMS-SIG-v1"
def ctHashPrefixBytes : List UInt8 := utf8 "NXMS-CTHASH-v1"
def kdfPrefixBytes : List UInt8 := utf8 "NXMS-KDF-v1"
def tagPrefixBytes : List UInt8 := utf8 "NXMS-TAG-v1"

/-! ## 2. Primitives -/

/-- The primitives; `ρ` is the randomness of one call. `falconSignCt` is given a buffer of
    `ffFalconSigMax` bytes. -/
structure Primitives (ρ : Type) where
  shake : List UInt8 → Nat → UInt8
  kemEncaps : List UInt8 → ρ → Option (List UInt8 × List UInt8)
  kemDecaps : List UInt8 → List UInt8 → Option (List UInt8)
  falconSignCt : List UInt8 → ρ → List UInt8 → Option (List UInt8)
  falconVerify : List UInt8 → List UInt8 → List UInt8 → Bool

/-- The randomness of one packet; the nonce is missing when the system's source fails. -/
structure Coins (ρ : Type) where
  kem : ρ
  nonce : Option (Bytes nxmsNonceLen)
  sig : ρ

/-- The header. The names are C strings: they are read up to a zero byte. -/
structure Header where
  senderId : List UInt8
  toId : List UInt8
  msgType : List UInt8
  escrowIdRaw : Bytes nxmsEscrowIdLen
  seq : UInt64
  deriving DecidableEq

structure Packet where
  kemCt : List UInt8
  nonce : List UInt8
  ciphertext : List UInt8
  tag : List UInt8
  sig : List UInt8
  deriving DecidableEq

section
variable {ρ : Type} (pr : Primitives ρ)

/-- The first `n` bytes that SHAKE256 makes of the input. -/
def extract (input : List UInt8) (n : Nat) : List UInt8 :=
  (List.range n).map (pr.shake input)

@[simp] theorem length_extract (input : List UInt8) (n : Nat) :
    (extract pr input n).length = n := by
  simp [extract]

/-! ## 3. The parts -/

/-- The length of a C string, as far as `max`. -/
def nxmsStrnlen : List UInt8 → (max : Nat) → Nat
  | [], _ => 0
  | _ :: _, 0 => 0
  | b :: s, max + 1 => if b = 0 then 0 else nxmsStrnlen s max + 1

/-- A C string of a length the code accepts. -/
def cstr (s : List UInt8) : Option (List UInt8) :=
  let len := nxmsStrnlen s (nxmsMaxIdLen + 1)
  if len = 0 ∨ len > nxmsMaxIdLen then none else some (s.take len)

/-- The payload combined with the key stream of `ke` and the nonce, in blocks of 4096 bytes. -/
def xorShakeKeystream (buf ke nonce : List UInt8) : List UInt8 :=
  xorBlocks (pr.shake (ke ++ nonce)) 4096 buf.length 0 buf

def shakeHash32 (ct : List UInt8) : List UInt8 :=
  extract pr (ctHashPrefixBytes ++ ct) 32

def buildAad (h : Header) (ct : List UInt8) : Option (List UInt8) := do
  guard (nxmsMinKemBytes ≤ ct.length ∧ ct.length ≤ nxmsMaxKemCtLen)
  let senderId ← cstr h.senderId
  let toId ← cstr h.toId
  let msgType ← cstr h.msgType
  pure (aadPrefixBytes ++ 0 :: senderId ++ 0 :: toId ++ 0 :: nxmsKemId ++ 0 :: nxmsSigId
    ++ 0 :: msgType ++ 0 :: h.escrowIdRaw.data ++ 0 :: u64be h.seq ++ 0 :: shakeHash32 pr ct)

def ffShake256Kdf (input ctx : List UInt8) (n : Nat) : List UInt8 :=
  extract pr (ctx ++ input) n

/-- The encryption key and the tag key. -/
def deriveKeys (ss : List UInt8) (escrowIdRaw : Bytes nxmsEscrowIdLen) :
    List UInt8 × List UInt8 :=
  (ffShake256Kdf pr (ss ++ escrowIdRaw.data ++ utf8 "ms-ke") kdfPrefixBytes 32,
    ffShake256Kdf pr (ss ++ escrowIdRaw.data ++ utf8 "ms-km") kdfPrefixBytes 32)

def computeTag (km aad nonce ciphertext : List UInt8) : List UInt8 :=
  extract pr (tagPrefixBytes ++ km ++ 0 :: aad ++ 0 :: nonce ++ 0 :: ciphertext) nxmsTagLen

def buildSigMessage (aad nonce ciphertext tag : List UInt8) : List UInt8 :=
  sigPrefixBytes ++ 0 :: aad ++ 0 :: nonce ++ 0 :: ciphertext ++ 0 :: tag

/-! ## 4. Sealing and opening -/

def encryptPacket (h : Header) (recipientPkKem senderSkSig payload : List UInt8)
    (coins : Coins ρ) : Option Packet := do
  guard (h.seq ≠ 0)
  guard (payload.length ≤ nxmsMaxPayload)
  guard (nxmsMinKemBytes ≤ recipientPkKem.length ∧ recipientPkKem.length ≤ nxmsMaxKemPkLen)
  guard (0 < senderSkSig.length ∧ senderSkSig.length ≤ nxmsMaxSigSkLen)
  let _ ← cstr h.senderId
  let _ ← cstr h.toId
  let _ ← cstr h.msgType
  let (kemCt, ss) ← pr.kemEncaps recipientPkKem coins.kem
  guard (nxmsMinKemBytes ≤ kemCt.length ∧ kemCt.length ≤ nxmsMaxKemCtLen)
  guard (0 < ss.length)
  let keys := deriveKeys pr ss h.escrowIdRaw
  let nonce ← coins.nonce
  let ciphertext := xorShakeKeystream pr payload keys.1 nonce.data
  let aad ← buildAad pr h kemCt
  let tag := computeTag pr keys.2 aad nonce.data ciphertext
  let sig ← pr.falconSignCt senderSkSig coins.sig (buildSigMessage aad nonce.data ciphertext tag)
  pure ⟨kemCt, nonce.data, ciphertext, tag, sig⟩

def verifyDecrypt (h : Header) (p : Packet) (recipientSkKem senderPkSig : List UInt8) :
    Option (List UInt8) := do
  guard (h.seq ≠ 0)
  guard (p.nonce.length = nxmsNonceLen)
  guard (p.tag.length = nxmsTagLen)
  guard (p.ciphertext.length ≤ nxmsMaxPayload)
  guard (nxmsMinKemBytes ≤ p.kemCt.length ∧ p.kemCt.length ≤ nxmsMaxKemCtLen)
  guard (0 < p.sig.length ∧ p.sig.length ≤ ffFalconSigMax)
  guard (nxmsMinKemBytes ≤ recipientSkKem.length ∧ recipientSkKem.length ≤ nxmsMaxKemSkLen)
  guard (0 < senderPkSig.length ∧ senderPkSig.length ≤ nxmsMaxSigPkLen)
  let _ ← cstr h.senderId
  let _ ← cstr h.toId
  let _ ← cstr h.msgType
  let ss ← pr.kemDecaps recipientSkKem p.kemCt
  guard (0 < ss.length)
  let keys := deriveKeys pr ss h.escrowIdRaw
  let aad ← buildAad pr h p.kemCt
  guard (computeTag pr keys.2 aad p.nonce p.ciphertext = p.tag)
  guard (pr.falconVerify senderPkSig (buildSigMessage aad p.nonce p.ciphertext p.tag) p.sig = true)
  pure (xorShakeKeystream pr p.ciphertext keys.1 p.nonce)

end

/-! ## 5. What the parts do -/

section
variable {ρ : Type} {pr : Primitives ρ}

/-- A name the code takes as it is: no zero byte in it, and a length within the limits. -/
def IsName (s : List UInt8) : Prop :=
  (0 : UInt8) ∉ s ∧ 0 < s.length ∧ s.length ≤ nxmsMaxIdLen

theorem nxmsStrnlen_eq {s : List UInt8} {max : Nat} (h : (0 : UInt8) ∉ s) :
    nxmsStrnlen s max = min s.length max := by
  induction s generalizing max with
  | nil => simp [nxmsStrnlen]
  | cons b s ih =>
    obtain ⟨hb, hs⟩ := not_or.mp (mt List.mem_cons.mpr h)
    cases max with
    | zero => simp [nxmsStrnlen]
    | succ max =>
      have hb : ¬ b = 0 := fun heq => hb heq.symm
      simp only [nxmsStrnlen, if_neg hb, ih hs, List.length_cons]
      omega

theorem cstr_eq {s : List UInt8} (h : IsName s) : cstr s = some s := by
  obtain ⟨hzero, hpos, hmax⟩ := h
  unfold cstr
  dsimp only
  rw [nxmsStrnlen_eq hzero, Nat.min_eq_left (by omega), if_neg (by omega), List.take_length]

theorem isName_of_cstr {s x : List UInt8} (hzero : (0 : UInt8) ∉ s) (h : cstr s = some x) :
    IsName s := by
  unfold cstr at h
  dsimp only at h
  rw [nxmsStrnlen_eq hzero] at h
  obtain ⟨hlen, -⟩ := Option.ite_none_left_eq_some.mp h
  exact ⟨hzero, by omega, by omega⟩

/-- **The cipher is its own inverse.** -/
theorem xorShakeKeystream_twice (buf ke nonce : List UInt8) :
    xorShakeKeystream pr (xorShakeKeystream pr buf ke nonce) ke nonce = buf := by
  have heq : ∀ buf, xorShakeKeystream pr buf ke nonce = xorStream (pr.shake (ke ++ nonce)) 0 buf :=
    fun buf => xorBlocks_eq (by decide) (Nat.le_refl _)
  rw [heq, heq, xorStream_twice]

theorem length_xorShakeKeystream (buf ke nonce : List UInt8) :
    (xorShakeKeystream pr buf ke nonce).length = buf.length := by
  unfold xorShakeKeystream
  rw [xorBlocks_eq (by decide) (Nat.le_refl _), length_xorStream]

/-- A header whose names are taken as they are. -/
structure Header.Clean (h : Header) : Prop where
  senderId : IsName h.senderId
  toId : IsName h.toId
  msgType : IsName h.msgType

/-- The bytes that are tagged along, for a clean header. -/
def aadBytes (pr : Primitives ρ) (h : Header) (ct : List UInt8) : List UInt8 :=
  aadPrefixBytes ++ 0 :: h.senderId ++ 0 :: h.toId ++ 0 :: nxmsKemId ++ 0 :: nxmsSigId
    ++ 0 :: h.msgType ++ 0 :: h.escrowIdRaw.data ++ 0 :: u64be h.seq ++ 0 :: shakeHash32 pr ct

theorem buildAad_eq {h : Header} {ct : List UInt8} (hclean : h.Clean)
    (hct : nxmsMinKemBytes ≤ ct.length ∧ ct.length ≤ nxmsMaxKemCtLen) :
    buildAad pr h ct = some (aadBytes pr h ct) := by
  simp only [buildAad, cstr_eq hclean.senderId, cstr_eq hclean.toId, cstr_eq hclean.msgType,
    guard, if_pos hct]
  rfl

/-- The signed bytes of a packet under a clean header. -/
def signedBytes (pr : Primitives ρ) (h : Header) (p : Packet) : List UInt8 :=
  buildSigMessage (aadBytes pr h p.kemCt) p.nonce p.ciphertext p.tag

/-- The packet made of these parts. -/
def sealedWith (pr : Primitives ρ) (h : Header) (payload kemCt ss : List UInt8)
    (nonce : Bytes nxmsNonceLen) (sig : List UInt8) : Packet :=
  let keys := deriveKeys pr ss h.escrowIdRaw
  let ciphertext := xorShakeKeystream pr payload keys.1 nonce.data
  ⟨kemCt, nonce.data, ciphertext, computeTag pr keys.2 (aadBytes pr h kemCt) nonce.data ciphertext,
    sig⟩

theorem guard_eq_some {c : Prop} [Decidable c] {u : Unit} :
    (guard c : Option Unit) = some u ↔ c := by
  by_cases hc : c
  · simp [guard, hc]
  · simp [guard, hc]

/-- **How a packet was made.** -/
theorem encryptPacket_some {h : Header} (hclean : h.Clean) {pkKem skSig payload : List UInt8}
    {coins : Coins ρ} {p : Packet} (hp : encryptPacket pr h pkKem skSig payload coins = some p) :
    h.seq ≠ 0 ∧ payload.length ≤ nxmsMaxPayload
      ∧ (nxmsMinKemBytes ≤ p.kemCt.length ∧ p.kemCt.length ≤ nxmsMaxKemCtLen)
      ∧ ∃ ss nonce, pr.kemEncaps pkKem coins.kem = some (p.kemCt, ss) ∧ 0 < ss.length
        ∧ p = sealedWith pr h payload p.kemCt ss nonce p.sig
        ∧ pr.falconSignCt skSig coins.sig (signedBytes pr h p) = some p.sig := by
  simp only [encryptPacket, cstr_eq hclean.senderId, cstr_eq hclean.toId, cstr_eq hclean.msgType,
    Option.bind_eq_bind, Option.bind_some, Option.bind_eq_some_iff, Prod.exists, guard_eq_some,
    exists_const, Option.pure_def, Option.some.injEq] at hp
  obtain ⟨hseq, hmax, -, -, kemCt, ss, hkem, hct, hss, nonce, -, aad, haad, sig, hsig, rfl⟩ := hp
  rw [buildAad_eq hclean hct, Option.some.injEq] at haad
  subst haad
  exact ⟨hseq, hmax, hct, ss, nonce, hkem, hss, rfl, hsig⟩

/-- A packet is made when the KEM, the source of nonces and the signature work. -/
theorem encryptPacket_eq {h : Header} (hclean : h.Clean) {pkKem skSig payload kemCt ss : List UInt8}
    {coins : Coins ρ} {nonce : Bytes nxmsNonceLen} {sig : List UInt8} (hseq : h.seq ≠ 0)
    (hmax : payload.length ≤ nxmsMaxPayload)
    (hpk : nxmsMinKemBytes ≤ pkKem.length ∧ pkKem.length ≤ nxmsMaxKemPkLen)
    (hsk : 0 < skSig.length ∧ skSig.length ≤ nxmsMaxSigSkLen)
    (hkem : pr.kemEncaps pkKem coins.kem = some (kemCt, ss))
    (hct : nxmsMinKemBytes ≤ kemCt.length ∧ kemCt.length ≤ nxmsMaxKemCtLen) (hss : 0 < ss.length)
    (hnonce : coins.nonce = some nonce)
    (hsig : pr.falconSignCt skSig coins.sig
      (signedBytes pr h (sealedWith pr h payload kemCt ss nonce [])) = some sig) :
    encryptPacket pr h pkKem skSig payload coins
      = some (sealedWith pr h payload kemCt ss nonce sig) := by
  simp only [encryptPacket, cstr_eq hclean.senderId, cstr_eq hclean.toId, cstr_eq hclean.msgType,
    Option.bind_eq_bind, Option.bind_some, Option.bind_eq_some_iff, Prod.exists, guard_eq_some,
    exists_const, Option.pure_def, Option.some.injEq]
  exact ⟨hseq, hmax, hpk, hsk, kemCt, ss, hkem, hct, hss, nonce, hnonce, _,
    buildAad_eq hclean hct, sig, hsig, rfl⟩

/-- **When a packet is opened.** -/
theorem verifyDecrypt_iff {h : Header} (hclean : h.Clean) {p : Packet}
    {skKem pkSig payload : List UInt8} :
    verifyDecrypt pr h p skKem pkSig = some payload ↔
      h.seq ≠ 0 ∧ p.nonce.length = nxmsNonceLen ∧ p.tag.length = nxmsTagLen
        ∧ p.ciphertext.length ≤ nxmsMaxPayload
        ∧ (nxmsMinKemBytes ≤ p.kemCt.length ∧ p.kemCt.length ≤ nxmsMaxKemCtLen)
        ∧ (0 < p.sig.length ∧ p.sig.length ≤ ffFalconSigMax)
        ∧ (nxmsMinKemBytes ≤ skKem.length ∧ skKem.length ≤ nxmsMaxKemSkLen)
        ∧ (0 < pkSig.length ∧ pkSig.length ≤ nxmsMaxSigPkLen)
        ∧ ∃ ss, pr.kemDecaps skKem p.kemCt = some ss ∧ 0 < ss.length
          ∧ computeTag pr (deriveKeys pr ss h.escrowIdRaw).2 (aadBytes pr h p.kemCt) p.nonce
            p.ciphertext = p.tag
          ∧ pr.falconVerify pkSig (signedBytes pr h p) p.sig = true
          ∧ xorShakeKeystream pr p.ciphertext (deriveKeys pr ss h.escrowIdRaw).1 p.nonce
            = payload := by
  simp only [verifyDecrypt, cstr_eq hclean.senderId, cstr_eq hclean.toId, cstr_eq hclean.msgType,
    Option.bind_eq_bind, Option.bind_some, Option.bind_eq_some_iff, guard_eq_some,
    exists_const, Option.pure_def, Option.some.injEq]
  constructor
  · rintro ⟨hseq, hnonce, htag, hmax, hct, hsig, hsk, hpk, ss, hkem, hss, aad, haad, hrest⟩
    rw [buildAad_eq hclean hct, Option.some.injEq] at haad
    subst haad
    exact ⟨hseq, hnonce, htag, hmax, hct, hsig, hsk, hpk, ss, hkem, hss, hrest⟩
  · rintro ⟨hseq, hnonce, htag, hmax, hct, hsig, hsk, hpk, ss, hkem, hss, hrest⟩
    exact ⟨hseq, hnonce, htag, hmax, hct, hsig, hsk, hpk, ss, hkem, hss, _,
      buildAad_eq hclean hct, hrest⟩

/-! ## 6. The signed bytes have one reading -/

/-- **The string determines its parts.** From the left: names up to a zero byte, parts of fixed
    length; the ciphertext is what is left before the tag. -/
theorem sigMessage_inj {h h' : Header} (hclean : h.Clean) (hclean' : h'.Clean) {p p' : Packet}
    (hnonce : p.nonce.length = p'.nonce.length) (htag : p.tag.length = p'.tag.length)
    (heq : signedBytes pr h p = signedBytes pr h' p') :
    h = h' ∧ shakeHash32 pr p.kemCt = shakeHash32 pr p'.kemCt ∧ p.nonce = p'.nonce
      ∧ p.ciphertext = p'.ciphertext ∧ p.tag = p'.tag := by
  simp only [signedBytes, buildSigMessage, aadBytes, List.append_assoc, List.cons_append] at heq
  -- the label of the string and the label of the header
  obtain ⟨-, heq⟩ := List.cons.inj (List.append_cancel_left heq)
  obtain ⟨-, heq⟩ := List.cons.inj (List.append_cancel_left heq)
  -- the names; between them the two suite names, which are the same
  obtain ⟨hsender, heq⟩ := (append_sep_inj hclean.senderId.1 hclean'.senderId.1).mp heq
  obtain ⟨hto, heq⟩ := (append_sep_inj hclean.toId.1 hclean'.toId.1).mp heq
  obtain ⟨-, heq⟩ := List.cons.inj (List.append_cancel_left heq)
  obtain ⟨-, heq⟩ := List.cons.inj (List.append_cancel_left heq)
  obtain ⟨hmsg, heq⟩ := (append_sep_inj hclean.msgType.1 hclean'.msgType.1).mp heq
  -- the parts of fixed length
  obtain ⟨hescrow, heq⟩ := Bytes.append_inj heq
  obtain ⟨hseq, heq⟩ := List.append_inj (List.cons.inj heq).2 rfl
  obtain ⟨hhash, heq⟩ := List.append_inj (List.cons.inj heq).2 (by simp [shakeHash32])
  obtain ⟨hnonce, heq⟩ := List.append_inj (List.cons.inj heq).2 hnonce
  -- from the right: the tag
  obtain ⟨hct, heq⟩ := List.append_inj' (List.cons.inj heq).2 (congrArg (· + 1) htag)
  refine ⟨?_, hhash, hnonce, hct, (List.cons.inj heq).2⟩
  cases h
  cases h'
  obtain rfl := hsender
  obtain rfl := hto
  obtain rfl := hmsg
  obtain rfl := hescrow
  obtain rfl := u64be_injective hseq
  rfl

theorem length_signedBytes (h : Header) (p : Packet) : 32 < (signedBytes pr h p).length := by
  simp only [signedBytes, buildSigMessage, aadBytes, List.length_append, List.length_cons,
    shakeHash32, length_extract, length_u64be]
  omega

/-! ## 7. Keys, and what was signed with them -/

/-- A KEM key pair that works: what is encapsulated for the one is what the other makes of it, and
    everything has a size the code accepts. -/
structure KemPair (pr : Primitives ρ) (pk sk : List UInt8) : Prop where
  pkLen : nxmsMinKemBytes ≤ pk.length ∧ pk.length ≤ nxmsMaxKemPkLen
  skLen : nxmsMinKemBytes ≤ sk.length ∧ sk.length ≤ nxmsMaxKemSkLen
  decaps : ∀ r ct ss, pr.kemEncaps pk r = some (ct, ss) → pr.kemDecaps sk ct = some ss
  sizes : ∀ r ct ss, pr.kemEncaps pk r = some (ct, ss) →
    (nxmsMinKemBytes ≤ ct.length ∧ ct.length ≤ nxmsMaxKemCtLen) ∧ 0 < ss.length

/-- A Falcon key pair that works: what is signed verifies, and the signature fits its buffer. -/
structure FalconPair (pr : Primitives ρ) (pk sk : List UInt8) : Prop where
  pkLen : 0 < pk.length ∧ pk.length ≤ nxmsMaxSigPkLen
  skLen : 0 < sk.length ∧ sk.length ≤ nxmsMaxSigSkLen
  verifies : ∀ r m sig, pr.falconSignCt sk r m = some sig → pr.falconVerify pk m sig = true
  sizes : ∀ r m sig, pr.falconSignCt sk r m = some sig →
    0 < sig.length ∧ sig.length ≤ ffFalconSigMax

/-- One packet, and everything it was made from. -/
structure Sealing (ρ : Type) where
  header : Header
  recipientPkKem : List UInt8
  payload : List UInt8
  coins : Coins ρ
  packet : Packet

/-- **What the holder of a secret key has signed with it**: packets, and the hashes of contract
    snapshots, trust bundles and admission artifacts. -/
structure Signed (pr : Primitives ρ) (sk : List UInt8) where
  packets : List (Sealing ρ)
  hashes : List (Bytes 32)
  made : ∀ e ∈ packets, e.header.Clean
    ∧ encryptPacket pr e.header e.recipientPkKem sk e.payload e.coins = some e.packet

/-- The byte string is among what was signed. -/
def Signed.Has {sk : List UInt8} (signed : Signed pr sk) (m : List UInt8) : Prop :=
  (∃ e ∈ signed.packets, signedBytes pr e.header e.packet = m) ∨ ∃ x ∈ signed.hashes, x.data = m

variable {pkKem skKem pkSig skSig : List UInt8} {h : Header}

theorem verifyDecrypt_encryptPacket (hkem : KemPair pr pkKem skKem)
    (hsig : FalconPair pr pkSig skSig) (hclean : h.Clean) {payload : List UInt8} {coins : Coins ρ}
    {p : Packet} (hp : encryptPacket pr h pkKem skSig payload coins = some p) :
    verifyDecrypt pr h p skKem pkSig = some payload := by
  obtain ⟨hseq, hmax, hct, ss, nonce, hencaps, hss, hparts, hsigned⟩ :=
    encryptPacket_some hclean hp
  obtain ⟨kemCt, _, _, _, sig⟩ := p
  obtain ⟨rfl, rfl, rfl⟩ : _ ∧ _ ∧ _ := by simpa [sealedWith] using hparts
  refine (verifyDecrypt_iff hclean).mpr ⟨hseq, nonce.len, ?_, ?_, hct, hsig.sizes _ _ _ hsigned,
    hkem.skLen, hsig.pkLen, ss, hkem.decaps _ _ _ hencaps, hss, rfl, hsig.verifies _ _ _ hsigned,
    ?_⟩
  · exact length_extract ..
  · exact (length_xorShakeKeystream ..).symm ▸ hmax
  · exact xorShakeKeystream_twice ..

theorem Signed.lengths {signed : Signed pr skSig} {e : Sealing ρ} (he : e ∈ signed.packets) :
    e.packet.nonce.length = nxmsNonceLen ∧ e.packet.tag.length = nxmsTagLen := by
  obtain ⟨hclean, hmade⟩ := signed.made e he
  obtain ⟨-, -, -, ss, nonce, -, -, hparts, -⟩ := encryptPacket_some hclean hmade
  rw [hparts]
  exact ⟨nonce.len, length_extract ..⟩

theorem verifyDecrypt_authentic (hclean : h.Clean) (signed : Signed pr skSig) {p : Packet}
    {payload : List UInt8} (hp : verifyDecrypt pr h p skKem pkSig = some payload)
    (hunforgeable : ∀ m, pr.falconVerify pkSig m p.sig = true → signed.Has m)
    (hcollision : ∀ e ∈ signed.packets,
      shakeHash32 pr e.packet.kemCt = shakeHash32 pr p.kemCt → e.packet.kemCt = p.kemCt) :
    ∃ e ∈ signed.packets, e.header = h ∧ e.packet.kemCt = p.kemCt ∧ e.packet.nonce = p.nonce
      ∧ e.packet.ciphertext = p.ciphertext ∧ e.packet.tag = p.tag := by
  obtain ⟨-, hnonce, htag, -, -, -, -, -, ss, -, -, -, hverify, -⟩ :=
    (verifyDecrypt_iff hclean).mp hp
  rcases hunforgeable _ hverify with ⟨e, he, heq⟩ | ⟨x, -, heq⟩
  · obtain ⟨hnonce', htag'⟩ := Signed.lengths he
    obtain ⟨hheader, hhash, hrest⟩ := sigMessage_inj (signed.made e he).1 hclean
      (hnonce'.trans hnonce.symm) (htag'.trans htag.symm) heq
    exact ⟨e, he, hheader, hcollision e he hhash, hrest⟩
  · -- a hash is too short to be the signed bytes of a packet
    have hlen : 32 < (signedBytes pr h p).length := length_signedBytes h p
    rw [← heq, x.len] at hlen
    exact absurd hlen (by decide)

end

/-- **Round trip and authenticity.** For key pairs that work and a header with clean names and a
    number above zero:

    * what was sealed opens to the payload;
    * a payload within the limit is sealed, unless the KEM, the source of nonces or the signature
      fails;
    * a packet that opens was sealed by the holder of the sender's secret key, under exactly this
      header and with this KEM ciphertext, nonce, ciphertext and tag. Unforgeability is asked of
      the packet's signature (it verifies only what the holder has signed), and the KEM ciphertext
      must not collide with one of the holder's. -/
theorem packet_authentic {ρ : Type} (pr : Primitives ρ) {pkKem skKem pkSig skSig : List UInt8}
    (hkem : KemPair pr pkKem skKem) (hsig : FalconPair pr pkSig skSig) {h : Header}
    (hclean : h.Clean) (hseq : h.seq ≠ 0) :
    (∀ payload coins p, encryptPacket pr h pkKem skSig payload coins = some p →
      verifyDecrypt pr h p skKem pkSig = some payload)
    ∧ (∀ payload coins, payload.length ≤ nxmsMaxPayload →
      (pr.kemEncaps pkKem coins.kem).isSome → coins.nonce.isSome →
      (∀ m, (pr.falconSignCt skSig coins.sig m).isSome) →
      ∃ p, encryptPacket pr h pkKem skSig payload coins = some p)
    ∧ ∀ (signed : Signed pr skSig) p payload, verifyDecrypt pr h p skKem pkSig = some payload →
      (∀ m, pr.falconVerify pkSig m p.sig = true → signed.Has m) →
      (∀ e ∈ signed.packets,
        shakeHash32 pr e.packet.kemCt = shakeHash32 pr p.kemCt → e.packet.kemCt = p.kemCt) →
      ∃ e ∈ signed.packets, e.header = h ∧ e.packet.kemCt = p.kemCt ∧ e.packet.nonce = p.nonce
        ∧ e.packet.ciphertext = p.ciphertext ∧ e.packet.tag = p.tag := by
  refine ⟨?_, ?_, ?_⟩
  · intro payload coins p hp
    exact verifyDecrypt_encryptPacket hkem hsig hclean hp
  · intro payload coins hmax hencaps hnonce hsign
    obtain ⟨⟨kemCt, ss⟩, hencaps⟩ := Option.isSome_iff_exists.mp hencaps
    obtain ⟨nonce, hnonce⟩ := Option.isSome_iff_exists.mp hnonce
    obtain ⟨sig, hsigned⟩ := Option.isSome_iff_exists.mp (hsign _)
    obtain ⟨hct, hss⟩ := hkem.sizes _ _ _ hencaps
    exact ⟨_, encryptPacket_eq hclean hseq hmax hkem.pkLen hsig.skLen hencaps hct hss hnonce
      hsigned⟩
  · intro signed p payload hp hunforgeable hcollision
    exact verifyDecrypt_authentic hclean signed hp hunforgeable hcollision

/-! ### One packet -/

/-- Primitives to try it with: a stream that depends on the length of its input, a KEM that hands
    out the public key, and a signature that is the signed string itself. -/
def plainPrimitives : Primitives Unit where
  shake input i := UInt8.ofNat (input.length + i)
  kemEncaps pk _ := some (pk, [1])
  kemDecaps _ _ := some [1]
  falconSignCt _ _ m := if 0 < m.length ∧ m.length ≤ ffFalconSigMax then some m else none
  falconVerify _ m sig := m == sig

def plainKey : List UInt8 := List.replicate 64 7

def plainHeader : Header :=
  ⟨utf8 "alice", utf8 "bob", utf8 "tx_sign_req", .fill 16 0, 1⟩

def plainCoins : Coins Unit := ⟨(), some (.fill 24 9), ()⟩

def plainPayload : List UInt8 := utf8 "hello"

theorem plainHeader_clean : plainHeader.Clean := by
  refine ⟨?_, ?_, ?_⟩ <;> exact ⟨by decide +kernel, by decide +kernel, by decide +kernel⟩

theorem plainKem : KemPair plainPrimitives plainKey plainKey where
  pkLen := by decide
  skLen := by decide
  decaps := by
    rintro r ct ss ⟨⟩
    rfl
  sizes := by
    rintro r ct ss ⟨⟩
    decide

theorem plainFalcon : FalconPair plainPrimitives plainKey plainKey where
  pkLen := by decide
  skLen := by decide
  verifies := by
    intro r m sig hsig
    obtain ⟨-, hm⟩ := Option.ite_none_right_eq_some.mp hsig
    cases hm
    exact beq_self_eq_true m
  sizes := by
    intro r m sig hsig
    obtain ⟨hlen, hm⟩ := Option.ite_none_right_eq_some.mp hsig
    cases hm
    exact hlen

theorem packet_authentic_plain :
    ∃ p, encryptPacket plainPrimitives plainHeader plainKey plainKey plainPayload plainCoins
        = some p
      ∧ verifyDecrypt plainPrimitives plainHeader p plainKey plainKey = some plainPayload
      ∧ ∃ signed : Signed plainPrimitives plainKey, ∃ e ∈ signed.packets,
        e.header = plainHeader ∧ e.packet.ciphertext = p.ciphertext := by
  obtain ⟨hopens, -, hauthentic⟩ := packet_authentic plainPrimitives plainKem plainFalcon
    plainHeader_clean (by decide)
  obtain ⟨p, hp⟩ : ∃ p, encryptPacket plainPrimitives plainHeader plainKey plainKey plainPayload
      plainCoins = some p :=
    Option.isSome_iff_exists.mp (by decide +kernel)
  have hopened := hopens plainPayload plainCoins p hp
  have hmade : ∀ e ∈ [(⟨plainHeader, plainKey, plainPayload, plainCoins, p⟩ : Sealing Unit)],
      e.header.Clean ∧ encryptPacket plainPrimitives e.header e.recipientPkKem plainKey e.payload
        e.coins = some e.packet := by
    intro e he
    obtain rfl := List.mem_singleton.mp he
    exact ⟨plainHeader_clean, hp⟩
  let signed : Signed plainPrimitives plainKey := ⟨_, [], hmade⟩
  -- the signature is the string it is for, and that is the one string that was signed
  have hunforgeable : ∀ m, plainPrimitives.falconVerify plainKey m p.sig = true →
      signed.Has m := by
    intro m hm
    obtain rfl : m = p.sig := eq_of_beq hm
    obtain ⟨-, -, -, ss, nonce, -, -, -, hsigned⟩ := encryptPacket_some plainHeader_clean hp
    obtain ⟨-, hsig⟩ := Option.ite_none_right_eq_some.mp hsigned
    exact .inl ⟨_, List.mem_singleton.mpr rfl, Option.some.inj hsig⟩
  have hcollision : ∀ e ∈ signed.packets, shakeHash32 plainPrimitives e.packet.kemCt
      = shakeHash32 plainPrimitives p.kemCt → e.packet.kemCt = p.kemCt := by
    intro e he _
    obtain rfl := List.mem_singleton.mp he
    rfl
  obtain ⟨e, he, hheader, -, -, hct, -⟩ :=
    hauthentic signed p plainPayload hopened hunforgeable hcollision
  exact ⟨p, hp, hopened, signed, e, he, hheader, hct⟩

end Nexum.MsTransport
