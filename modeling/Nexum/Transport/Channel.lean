import Nexum.Lib.Sequence
import Nexum.Transport.Packet

/-!
# Secure channels

A `SecureChannel` numbers what it sends and expects the next number on what it receives. Both sides
use the same fixed names and a zero escrow id, and both counters start at one in every channel. A
packet is therefore bound to the keys of its sender and its receiver, to its type and to its
number, **but not to the session it was sent in**: a frame of one session is accepted in another
as soon as the counters agree (`replayed_into_next_session`).

Within a session the numbers do their work. As long as every frame is delivered to the session it
was sent in, however late, out of order or often, what is accepted is a prefix of what was sent,
and nothing is accepted twice (`delivered_in_order`).

That the packets are authentic is an assumption here, `Authentic`: what was sealed opens for the
other party only, under the header it was sealed with. It follows from signatures that are bound to
their key and their message (`authentic_of_bound`).
-/

namespace Nexum.MsTransport

open Nexum.Lib

/-! ## 1. One end of a channel -/

section
variable {ρ : Type} (pr : Primitives ρ)

/-- The names of a header as C strings: none has a zero byte in it. -/
def Header.noNul (h : Header) : Prop :=
  (0 : UInt8) ∉ h.senderId ∧ (0 : UInt8) ∉ h.toId ∧ (0 : UInt8) ∉ h.msgType

instance (h : Header) : Decidable h.noNul :=
  inferInstanceAs (Decidable (_ ∧ _))

def encrypt (h : Header) (recipientKemPk senderSigSk plaintext : List UInt8) (coins : Coins ρ) :
    Option Packet := do
  guard (plaintext.length ≤ nxmsMaxPayload)
  guard (h.seq ≠ 0)
  guard h.noNul
  encryptPacket pr h recipientKemPk senderSigSk plaintext coins

/-- The lengths that are checked here are checked once more when the packet is opened. -/
def decrypt (h : Header) (sealed : Packet) (recipientKemSk senderSigPk : List UInt8) :
    Option (List UInt8) := do
  guard (h.seq ≠ 0)
  guard h.noNul
  guard (nxmsMinKemBytes ≤ sealed.kemCt.length ∧ sealed.kemCt.length ≤ nxmsMaxKemCtLen)
  guard (sealed.nonce.length = nxmsNonceLen)
  guard (sealed.tag.length = nxmsTagLen)
  guard (sealed.ciphertext.length ≤ nxmsMaxPayload)
  guard (0 < sealed.sig.length ∧ sealed.sig.length ≤ ffFalconSigMax)
  verifyDecrypt pr h sealed recipientKemSk senderSigPk

structure Keys where
  kemPk : List UInt8
  kemSk : List UInt8
  sigPk : List UInt8
  sigSk : List UInt8

structure SecureChannel where
  keys : Keys
  peerKemPk : List UInt8
  peerSigPk : List UInt8
  sendSeq : UInt64
  recvSeq : UInt64

namespace SecureChannel

def new (keys : Keys) (peerKemPk peerSigPk : List UInt8) : SecureChannel where
  keys := keys
  peerKemPk := peerKemPk
  peerSigPk := peerSigPk
  sendSeq := 1
  recvSeq := 1

def ourId : List UInt8 := utf8 "local"
def peerId : List UInt8 := utf8 "peer"
def escrowId : Bytes nxmsEscrowIdLen := .fill 16 0

/-- The header of a message, the same whether it is sent or received. -/
def header (msgType : List UInt8) (seq : UInt64) : Header :=
  ⟨ourId, peerId, msgType, escrowId, seq⟩

/-- The message is counted once it is sealed; when writing the frame fails, it is lost. Past the
    last number the counter is zero, and nothing is sealed any more. -/
def send (c : SecureChannel) (msgType payload : List UInt8) (coins : Coins ρ) :
    Option (Packet × SecureChannel) := do
  let sealed ← encrypt pr (header msgType c.sendSeq) c.peerKemPk c.keys.sigSk payload coins
  pure (sealed, { c with sendSeq := c.sendSeq + 1 })

/-- A frame that does not open is gone, and is not counted. -/
def recv (c : SecureChannel) (msgType : List UInt8) (sealed : Packet) :
    Option (List UInt8 × SecureChannel) := do
  let plaintext ← decrypt pr (header msgType c.recvSeq) sealed c.keys.kemSk c.peerSigPk
  pure (plaintext, { c with recvSeq := c.recvSeq + 1 })

end SecureChannel

/-! ## 2. Sessions and the network -/

inductive Party
  | alice | bob
  deriving DecidableEq

def Party.other : Party → Party
  | alice => bob
  | bob => alice

@[simp] theorem Party.other_other (p : Party) : p.other.other = p := by
  cases p <;> rfl

/-- A sealed message on its way. Only `sealed` is seen on the network; the rest says where it comes
    from. -/
structure Frame where
  session : Nat
  sender : Party
  header : Header
  payload : List UInt8
  sealed : Packet
  deriving DecidableEq

/-- A payload that was accepted, where, and from which frame. -/
structure Receipt where
  session : Nat
  receiver : Party
  frame : Frame
  payload : List UInt8

/-- The channels of all sessions, and, newest first, everything that was sent and accepted. -/
structure Network where
  channels : Nat → Party → SecureChannel
  wire : List Frame
  accepted : List Receipt

/-- Between two parties with fixed keys. A session is one channel of each. -/
def Network.start (keys : Party → Keys) : Network where
  channels _ p := .new (keys p) (keys p.other).kemPk (keys p.other).sigPk
  wire := []
  accepted := []

def Network.setChannel (n : Network) (session : Nat) (p : Party) (c : SecureChannel) : Network :=
  { n with channels := fun s q => if s = session ∧ q = p then c else n.channels s q }

def Network.sent (n : Network) (f : Frame) : Network := { n with wire := f :: n.wire }

def Network.took (n : Network) (r : Receipt) : Network := { n with accepted := r :: n.accepted }

inductive Move (ρ : Type)
  | send (session : Nat) (sender : Party) (msgType payload : List UInt8) (coins : Coins ρ)
  | deliver (session : Nat) (receiver : Party) (msgType : List UInt8) (f : Frame)

/-- One move. The network delivers any frame that was ever sent to any session, or never; the
    receiver asks for the type it expects. -/
def Network.step (n : Network) : Move ρ → Network
  | .send session sender msgType payload coins =>
    let c := n.channels session sender
    match c.send pr msgType payload coins with
    | some (sealed, c') =>
      (n.setChannel session sender c').sent
        ⟨session, sender, SecureChannel.header msgType c.sendSeq, payload, sealed⟩
    | none => n
  | .deliver session receiver msgType f =>
    if f ∈ n.wire then
      match (n.channels session receiver).recv pr msgType f.sealed with
      | some (payload, c') =>
        (n.setChannel session receiver c').took ⟨session, receiver, f, payload⟩
      | none => n
    else n

def Network.run (keys : Party → Keys) (moves : List (Move ρ)) : Network :=
  moves.foldl (Network.step pr) (.start keys)

end

/-- What a party sent in a session. -/
def sentIn (wire : List Frame) (session : Nat) (p : Party) : List Frame :=
  wire.filter fun f => f.session = session ∧ f.sender = p

/-- What a party accepted in a session. -/
def acceptedIn (accepted : List Receipt) (session : Nat) (p : Party) : List Receipt :=
  accepted.filter fun r => r.session = session ∧ r.receiver = p

/-- The payloads a party sent in a session, in the order in which it sent them. -/
def Network.sentPayloads (n : Network) (session : Nat) (p : Party) : List (List UInt8) :=
  ((sentIn n.wire session p).map Frame.payload).reverse

/-- The payloads a party accepted in a session, in the order in which it accepted them. -/
def Network.acceptedPayloads (n : Network) (session : Nat) (p : Party) : List (List UInt8) :=
  ((acceptedIn n.accepted session p).map Receipt.payload).reverse

/-- A frame is delivered to the session it was sent in. -/
def Move.Within {ρ : Type} : Move ρ → Prop
  | .deliver session _ _ f => f.session = session
  | .send _ _ _ _ _ => True

/-! ## 3. Authentic packets -/

section
variable {ρ : Type} {pr : Primitives ρ} {keys : Party → Keys}

/-- **The packet layer is authentic between the two**: what one has sealed for the other opens for
    the other only, under the header it was sealed with, and to the payload. -/
def Authentic (pr : Primitives ρ) (keys : Party → Keys) : Prop :=
  ∀ (sender receiver : Party) (h h' : Header) (payload payload' : List UInt8) (coins : Coins ρ)
    (p : Packet),
    encrypt pr h (keys sender.other).kemPk (keys sender).sigSk payload coins = some p →
    decrypt pr h' p (keys receiver).kemSk (keys receiver.other).sigPk = some payload' →
    sender = receiver.other ∧ h' = h ∧ payload' = payload

theorem encrypt_some {h : Header} {pkKem skSig payload : List UInt8} {coins : Coins ρ} {p : Packet}
    (hp : encrypt pr h pkKem skSig payload coins = some p) :
    h.seq ≠ 0 ∧ h.Clean ∧ encryptPacket pr h pkKem skSig payload coins = some p := by
  simp only [encrypt, Option.bind_eq_bind, Option.bind_eq_some_iff, guard_eq_some,
    exists_const] at hp
  obtain ⟨-, hseq, ⟨hsender, hto, hmsg⟩, hp⟩ := hp
  refine ⟨hseq, ?_, hp⟩
  simp only [encryptPacket, Option.bind_eq_bind, Option.bind_eq_some_iff, guard_eq_some,
    exists_const] at hp
  obtain ⟨-, -, -, -, _, hsender', _, hto', _, hmsg', -⟩ := hp
  exact ⟨isName_of_cstr hsender hsender', isName_of_cstr hto hto', isName_of_cstr hmsg hmsg'⟩

theorem decrypt_some {h : Header} {p : Packet} {skKem pkSig payload : List UInt8}
    (hp : decrypt pr h p skKem pkSig = some payload) :
    h.seq ≠ 0 ∧ h.Clean ∧ verifyDecrypt pr h p skKem pkSig = some payload := by
  simp only [decrypt, Option.bind_eq_bind, Option.bind_eq_some_iff, guard_eq_some,
    exists_const] at hp
  obtain ⟨hseq, ⟨hsender, hto, hmsg⟩, -, -, -, -, -, hp⟩ := hp
  refine ⟨hseq, ?_, hp⟩
  simp only [verifyDecrypt, Option.bind_eq_bind, Option.bind_eq_some_iff, guard_eq_some,
    exists_const] at hp
  obtain ⟨-, -, -, -, -, -, -, -, _, hsender', _, hto', _, hmsg', -⟩ := hp
  exact ⟨isName_of_cstr hsender hsender', isName_of_cstr hto hto', isName_of_cstr hmsg hmsg'⟩

/-- Signatures are bound: one that a party made verifies under its key only, and only for the
    message it was made for. -/
def Bound (pr : Primitives ρ) (keys : Party → Keys) : Prop :=
  ∀ (p q : Party) (r : ρ) (m m' sig : List UInt8),
    pr.falconSignCt (keys p).sigSk r m = some sig →
    pr.falconVerify (keys q).sigPk m' sig = true → p = q ∧ m' = m

/-- **Bound signatures make the packets authentic.** -/
theorem authentic_of_bound (hkem : ∀ p, KemPair pr (keys p).kemPk (keys p).kemSk)
    (hfalcon : ∀ p, FalconPair pr (keys p).sigPk (keys p).sigSk) (hbound : Bound pr keys) :
    Authentic pr keys := by
  intro sender receiver h h' payload payload' coins p hsealed hopened
  obtain ⟨-, hclean, hsealed⟩ := encrypt_some hsealed
  obtain ⟨-, hclean', hopened⟩ := decrypt_some hopened
  obtain ⟨-, -, -, _, _, -, -, -, hsigned⟩ := encryptPacket_some hclean hsealed
  obtain ⟨-, -, -, -, -, -, -, -, _, -, -, -, hverify, -⟩ := (verifyDecrypt_iff hclean').mp hopened
  obtain ⟨rfl, hbytes⟩ := hbound _ _ _ _ _ _ hsigned hverify
  obtain ⟨rfl, -⟩ := sigMessage_inj hclean' hclean rfl rfl hbytes
  -- under the same header, opening it gives what sealing it was given
  have hpayload := verifyDecrypt_encryptPacket (hkem _) (hfalcon _) hclean hsealed
  rw [Party.other_other, hopened] at hpayload
  exact ⟨rfl, rfl, Option.some.inj hpayload⟩

/-! ## 4. What a move does -/

/-- **A move changes nothing, or sends one frame, or accepts one.** -/
theorem step_cases (pr : Primitives ρ) (n : Network) (m : Move ρ) :
    n.step pr m = n
    ∨ (∃ s p msgType payload coins sealed, m = .send s p msgType payload coins
        ∧ encrypt pr (SecureChannel.header msgType (n.channels s p).sendSeq)
          (n.channels s p).peerKemPk (n.channels s p).keys.sigSk payload coins = some sealed
        ∧ n.step pr m = (n.setChannel s p
            { n.channels s p with sendSeq := (n.channels s p).sendSeq + 1 }).sent
          ⟨s, p, SecureChannel.header msgType (n.channels s p).sendSeq, payload, sealed⟩)
    ∨ ∃ s p msgType f payload, m = .deliver s p msgType f ∧ f ∈ n.wire
        ∧ decrypt pr (SecureChannel.header msgType (n.channels s p).recvSeq) f.sealed
          (n.channels s p).keys.kemSk (n.channels s p).peerSigPk = some payload
        ∧ n.step pr m = (n.setChannel s p
            { n.channels s p with recvSeq := (n.channels s p).recvSeq + 1 }).took
          ⟨s, p, f, payload⟩ := by
  cases m with
  | send s p msgType payload coins =>
    simp only [Network.step, SecureChannel.send]
    cases hp : encrypt pr (SecureChannel.header msgType (n.channels s p).sendSeq)
      (n.channels s p).peerKemPk (n.channels s p).keys.sigSk payload coins with
    | none => exact .inl rfl
    | some sealed => exact .inr (.inl ⟨s, p, msgType, payload, coins, sealed, rfl, hp, rfl⟩)
  | deliver s p msgType f =>
    by_cases hmem : f ∈ n.wire
    · simp only [Network.step, if_pos hmem, SecureChannel.recv]
      cases hp : decrypt pr (SecureChannel.header msgType (n.channels s p).recvSeq) f.sealed
        (n.channels s p).keys.kemSk (n.channels s p).peerSigPk with
      | none => exact .inl rfl
      | some payload => exact .inr (.inr ⟨s, p, msgType, f, payload, rfl, hmem, hp, rfl⟩)
    · exact .inl (if_neg hmem)

theorem sentIn_cons (f : Frame) (wire : List Frame) (s : Nat) (p : Party) :
    sentIn (f :: wire) s p
      = if s = f.session ∧ p = f.sender then f :: sentIn wire s p else sentIn wire s p := by
  simp only [sentIn, List.filter_cons, decide_eq_true_eq, @eq_comm _ s, @eq_comm _ p]

theorem acceptedIn_cons (r : Receipt) (accepted : List Receipt) (s : Nat) (p : Party) :
    acceptedIn (r :: accepted) s p
      = if s = r.session ∧ p = r.receiver then r :: acceptedIn accepted s p
        else acceptedIn accepted s p := by
  simp only [acceptedIn, List.filter_cons, decide_eq_true_eq, @eq_comm _ s, @eq_comm _ p]

theorem setChannel_cases (P : Nat → Party → SecureChannel → Prop) {n : Network} {s : Nat}
    {p : Party} {c : SecureChannel} (hself : P s p c)
    (hother : ∀ s' p', ¬ (s' = s ∧ p' = p) → P s' p' (n.channels s' p')) (s' : Nat) (p' : Party) :
    P s' p' ((n.setChannel s p c).channels s' p') := by
  by_cases h : s' = s ∧ p' = p
  · obtain ⟨rfl, rfl⟩ := h
    simpa [Network.setChannel] using hself
  · simpa [Network.setChannel, if_neg h] using hother s' p' h

/-- A counter stands at the number after what was done; from the last number it goes over to zero,
    where nothing more is done. -/
structure Counts (counter : UInt64) (done : Nat) : Prop where
  stands : counter.toNat = (done + 1) % 2 ^ 64
  bound : done < 2 ^ 64

theorem Counts.next {counter : UInt64} {done : Nat} (h : Counts counter done)
    (hne : counter ≠ 0) : counter.toNat = done + 1 ∧ Counts (counter + 1) (done + 1) := by
  have hpos : counter.toNat ≠ 0 := fun hzero => hne (UInt64.toNat_inj.mp hzero)
  obtain ⟨hstands, hbound⟩ := h
  have hlt : done + 1 < 2 ^ 64 := by
    by_contra hge
    obtain heq : done + 1 = 2 ^ 64 := by omega
    rw [heq, Nat.mod_self] at hstands
    exact hpos hstands
  rw [Nat.mod_eq_of_lt hlt] at hstands
  refine ⟨hstands, ?_, hlt⟩
  rw [UInt64.toNat_add, hstands]
  rfl

/-! ## 5. What is kept along a run -/

/-- The number of a frame. -/
def Frame.seq (f : Frame) : Nat := f.header.seq.toNat

/-- **Keys, numbers and sessions fit.** -/
structure Tidy (pr : Primitives ρ) (keys : Party → Keys) (n : Network) : Prop where
  keyed : ∀ s p, (n.channels s p).keys = keys p
    ∧ (n.channels s p).peerKemPk = (keys p.other).kemPk
    ∧ (n.channels s p).peerSigPk = (keys p.other).sigPk
  made : ∀ f ∈ n.wire, ∃ coins, encrypt pr f.header (keys f.sender.other).kemPk
    (keys f.sender).sigSk f.payload coins = some f.sealed
  numbered : ∀ s p, Numbered Frame.seq (sentIn n.wire s p)
  sends : ∀ s p, Counts (n.channels s p).sendSeq (sentIn n.wire s p).length
  inOrder : ∀ s p, (acceptedIn n.accepted s p).map Receipt.frame <:+ sentIn n.wire s p.other
  receives : ∀ s p, Counts (n.channels s p).recvSeq (acceptedIn n.accepted s p).length
  own : ∀ r ∈ n.accepted, r.frame.session = r.session ∧ r.frame.sender = r.receiver.other
    ∧ r.payload = r.frame.payload
  once : (n.accepted.map Receipt.frame).Nodup

theorem Tidy.start (keys : Party → Keys) : Tidy pr keys (.start keys) where
  keyed _ _ := ⟨rfl, rfl, rfl⟩
  made _ hf := absurd hf List.not_mem_nil
  numbered _ _ := trivial
  sends _ _ := ⟨rfl, Nat.two_pow_pos 64⟩
  inOrder _ _ := List.suffix_refl _
  receives _ _ := ⟨rfl, Nat.two_pow_pos 64⟩
  own _ hr := absurd hr List.not_mem_nil
  once := List.nodup_nil

variable {n : Network} {s : Nat} {p : Party} {msgType payload : List UInt8}

theorem Tidy.sent (h : Tidy pr keys n) {coins : Coins ρ} {sealed : Packet}
    (hsealed : encrypt pr (SecureChannel.header msgType (n.channels s p).sendSeq)
      (n.channels s p).peerKemPk (n.channels s p).keys.sigSk payload coins = some sealed) :
    Tidy pr keys ((n.setChannel s p
        { n.channels s p with sendSeq := (n.channels s p).sendSeq + 1 }).sent
      ⟨s, p, SecureChannel.header msgType (n.channels s p).sendSeq, payload, sealed⟩) := by
  obtain ⟨hkeys, hpeer, -⟩ := h.keyed s p
  obtain ⟨hnum, hcounts⟩ := (h.sends s p).next (encrypt_some hsealed).1
  rw [hkeys, hpeer] at hsealed
  refine ⟨?_, ?_, ?_, ?_, ?_, ?_, h.own, h.once⟩
  · exact setChannel_cases (fun _ p c => c.keys = keys p ∧ c.peerKemPk = (keys p.other).kemPk
      ∧ c.peerSigPk = (keys p.other).sigPk) (h.keyed s p) fun s' p' _ => h.keyed s' p'
  · intro f hf
    rcases List.mem_cons.mp hf with rfl | hf
    · exact ⟨coins, hsealed⟩
    · exact h.made f hf
  · intro s' p'
    simp only [Network.sent, sentIn_cons]
    split
    · rename_i hself
      obtain ⟨rfl, rfl⟩ := hself
      exact ⟨hnum, h.numbered s' p'⟩
    · exact h.numbered s' p'
  · refine setChannel_cases (fun s p c => Counts c.sendSeq (sentIn (_ :: n.wire) s p).length) ?_ ?_
    · simpa only [sentIn_cons, and_self, if_true, List.length_cons] using hcounts
    · intro s' p' hother
      simpa only [sentIn_cons, if_neg hother] using h.sends s' p'
  · intro s' p'
    simp only [Network.sent, sentIn_cons]
    split
    · exact (h.inOrder s' p').trans (List.suffix_cons _ _)
    · exact h.inOrder s' p'
  · exact setChannel_cases (fun s p c => Counts c.recvSeq (acceptedIn n.accepted s p).length)
      (h.receives s p) fun s' p' _ => h.receives s' p'

/-- What is accepted in the session it was sent in is what was due there, and was not accepted
    before. -/
theorem Tidy.due (h : Tidy pr keys n) {f : Frame} (hmem : f ∈ n.wire) (hsession : f.session = s)
    (hsender : f.sender = p.other) (hseq : f.seq = (acceptedIn n.accepted s p).length + 1) :
    f :: (acceptedIn n.accepted s p).map Receipt.frame <:+ sentIn n.wire s p.other
      ∧ f ∉ n.accepted.map Receipt.frame := by
  have hsent : f ∈ sentIn n.wire s p.other :=
    List.mem_filter.mpr ⟨hmem, decide_eq_true ⟨hsession, hsender⟩⟩
  refine ⟨(h.numbered s p.other).next (h.inOrder s p) hsent (by rw [hseq, List.length_map]), ?_⟩
  intro hagain
  obtain ⟨r, hr, rfl⟩ := List.mem_map.mp hagain
  obtain ⟨hsession', hsender', -⟩ := h.own r hr
  have hreceiver : r.receiver = p := by
    rw [← Party.other_other r.receiver, ← hsender', hsender, Party.other_other]
  -- it would be one of the receipts of this very session, which have lower numbers
  have hin : r ∈ acceptedIn n.accepted s p :=
    List.mem_filter.mpr ⟨hr, decide_eq_true ⟨hsession'.symm.trans hsession, hreceiver⟩⟩
  have hle := ((h.numbered s p.other).suffix (h.inOrder s p)).le
    (List.mem_map_of_mem (f := Receipt.frame) hin)
  rw [hseq, List.length_map] at hle
  omega

theorem Tidy.took (hauth : Authentic pr keys) (h : Tidy pr keys n) {f : Frame} (hmem : f ∈ n.wire)
    (hsession : f.session = s)
    (hopened : decrypt pr (SecureChannel.header msgType (n.channels s p).recvSeq) f.sealed
      (n.channels s p).keys.kemSk (n.channels s p).peerSigPk = some payload) :
    Tidy pr keys ((n.setChannel s p
        { n.channels s p with recvSeq := (n.channels s p).recvSeq + 1 }).took
      ⟨s, p, f, payload⟩) := by
  obtain ⟨hnum, hcounts⟩ := (h.receives s p).next (decrypt_some hopened).1
  obtain ⟨hkeys, -, hpeer⟩ := h.keyed s p
  rw [hkeys, hpeer] at hopened
  obtain ⟨coins, hsealed⟩ := h.made f hmem
  obtain ⟨hsender, hheader, hpayload⟩ := hauth _ _ _ _ _ _ _ _ hsealed hopened
  have hseq : f.seq = (acceptedIn n.accepted s p).length + 1 := by
    rw [Frame.seq, ← hheader]
    exact hnum
  obtain ⟨hdue, hfresh⟩ := h.due hmem hsession hsender hseq
  refine ⟨?_, h.made, h.numbered, ?_, ?_, ?_, ?_, ?_⟩
  · exact setChannel_cases (fun _ p c => c.keys = keys p ∧ c.peerKemPk = (keys p.other).kemPk
      ∧ c.peerSigPk = (keys p.other).sigPk) (h.keyed s p) fun s' p' _ => h.keyed s' p'
  · exact setChannel_cases (fun s p c => Counts c.sendSeq (sentIn n.wire s p).length)
      (h.sends s p) fun s' p' _ => h.sends s' p'
  · intro s' p'
    simp only [Network.took, acceptedIn_cons]
    split
    · rename_i hself
      obtain ⟨rfl, rfl⟩ := hself
      exact hdue
    · exact h.inOrder s' p'
  · refine setChannel_cases
      (fun s p c => Counts c.recvSeq (acceptedIn (_ :: n.accepted) s p).length) ?_ ?_
    · simpa only [acceptedIn_cons, and_self, if_true, List.length_cons] using hcounts
    · intro s' p' hother
      simpa only [acceptedIn_cons, if_neg hother] using h.receives s' p'
  · intro r hr
    rcases List.mem_cons.mp hr with rfl | hr
    · exact ⟨hsession, hsender, hpayload⟩
    · exact h.own r hr
  · exact List.nodup_cons.mpr ⟨hfresh, h.once⟩

theorem Tidy.step (hauth : Authentic pr keys) (h : Tidy pr keys n) {m : Move ρ}
    (hm : m.Within) : Tidy pr keys (n.step pr m) := by
  rcases step_cases pr n m with heq | hsend | htake
  · rw [heq]
    exact h
  · obtain ⟨s, p, msgType, payload, coins, sealed, rfl, hsealed, heq⟩ := hsend
    rw [heq]
    exact h.sent hsealed
  · obtain ⟨s, p, msgType, f, payload, rfl, hmem, hopened, heq⟩ := htake
    rw [heq]
    exact h.took hauth hmem hm hopened

theorem Tidy.steps (hauth : Authentic pr keys) {moves : List (Move ρ)}
    (hwithin : ∀ m ∈ moves, m.Within) (h : Tidy pr keys n) :
    Tidy pr keys (moves.foldl (Network.step pr) n) := by
  induction moves generalizing n with
  | nil => exact h
  | cons m moves ih =>
    apply ih
    · intro m' hm'
      exact hwithin m' (List.mem_cons_of_mem m hm')
    · exact h.step hauth (hwithin m List.mem_cons_self)

theorem Tidy.payloads (h : Tidy pr keys n) (s : Nat) (p : Party) :
    n.acceptedPayloads s p <+: n.sentPayloads s p.other := by
  have hpayload : (acceptedIn n.accepted s p).map Receipt.payload
      = ((acceptedIn n.accepted s p).map Receipt.frame).map Frame.payload := by
    rw [List.map_map]
    apply List.map_congr_left
    intro r hr
    exact (h.own r (List.mem_filter.mp hr).1).2.2
  unfold Network.acceptedPayloads Network.sentPayloads
  rw [hpayload]
  exact List.reverse_prefix.mpr ((h.inOrder s p).map Frame.payload)

end

/-- **Delivery in order, and once.** Between two parties whose packets are authentic, over any
    number of sessions and any schedule of sending and delivering: if every frame is delivered to
    the session it was sent in, what a party accepts in a session is a prefix of what the other
    sent in it, and no frame is accepted twice, in whichever session. -/
theorem delivered_in_order {ρ : Type} (pr : Primitives ρ) (keys : Party → Keys)
    (hauth : Authentic pr keys) (moves : List (Move ρ)) (hwithin : ∀ m ∈ moves, m.Within) :
    (∀ s p, (Network.run pr keys moves).acceptedPayloads s p
      <+: (Network.run pr keys moves).sentPayloads s p.other)
    ∧ ((Network.run pr keys moves).accepted.map Receipt.frame).Nodup := by
  have htidy : Tidy pr keys (Network.run pr keys moves) := (Tidy.start keys).steps hauth hwithin
  exact ⟨htidy.payloads, htidy.once⟩

/-! ### Two sessions -/

/-- Primitives as `plainPrimitives`, with signatures that name their key. -/
def namedPrimitives : Primitives Unit where
  shake input i := UInt8.ofNat (input.length + i)
  kemEncaps pk _ := some (pk, [1])
  kemDecaps _ _ := some [1]
  falconSignCt sk _ m := if m.length < 1000 then some (sk ++ m) else none
  falconVerify pk m sig := sig == pk ++ m

def namedKeys (p : Party) : Keys :=
  let name := [if p = .alice then 1 else 2]
  ⟨plainKey, plainKey, name, name⟩

theorem namedKeys_authentic : Authentic namedPrimitives namedKeys := by
  apply authentic_of_bound
  · intro p
    exact ⟨plainKem.pkLen, plainKem.skLen, plainKem.decaps, plainKem.sizes⟩
  · intro p
    have hname : 0 < 1 ∧ 1 ≤ nxmsMaxSigPkLen := by decide
    refine ⟨hname, hname, ?_, ?_⟩
    · intro r m sig hsig
      obtain ⟨-, hm⟩ := Option.ite_none_right_eq_some.mp hsig
      cases hm
      exact beq_self_eq_true _
    · intro r m sig hsig
      obtain ⟨hlen, hm⟩ := Option.ite_none_right_eq_some.mp hsig
      cases hm
      simp only [namedKeys, List.singleton_append, List.length_cons, ffFalconSigMax]
      omega
  · intro p q r m m' sig hsig hverify
    obtain ⟨-, hm⟩ := Option.ite_none_right_eq_some.mp hsig
    cases hm
    obtain ⟨hname, hm⟩ := List.cons.inj (eq_of_beq hverify)
    refine ⟨?_, hm.symm⟩
    revert hname
    cases p <;> cases q <;> decide

def pongType : List UInt8 := utf8 "PONG"
def pongPayload : List UInt8 := utf8 "\x7b\"msg\":\"PONG\",\"nonce\":\"1\"\x7d"

/-- The first answer of a session, sealed. -/
def pongSealed : Packet :=
  (encrypt namedPrimitives (SecureChannel.header pongType 1) plainKey [2] pongPayload
    plainCoins).get (by decide +kernel)

def pongFrame (session : Nat) : Frame :=
  ⟨session, .bob, SecureChannel.header pongType 1, pongPayload, pongSealed⟩

/-- In each of two sessions an answer is sent, delivered twice, and accepted once. -/
theorem delivered_in_order_twice :
    let moves : List (Move Unit) := [.send 0 .bob pongType pongPayload plainCoins,
      .deliver 0 .alice pongType (pongFrame 0), .deliver 0 .alice pongType (pongFrame 0),
      .send 1 .bob pongType pongPayload plainCoins, .deliver 1 .alice pongType (pongFrame 1)]
    (∀ m ∈ moves, m.Within)
    ∧ (Network.run namedPrimitives namedKeys moves).acceptedPayloads 0 .alice = [pongPayload]
    ∧ (Network.run namedPrimitives namedKeys moves).acceptedPayloads 1 .alice = [pongPayload]
    ∧ ((Network.run namedPrimitives namedKeys moves).accepted.map Receipt.frame).Nodup := by
  intro moves
  have hwithin : ∀ m ∈ moves, m.Within := by
    simp [moves, Move.Within, pongFrame]
  exact ⟨hwithin, by decide +kernel, by decide +kernel,
    (delivered_in_order namedPrimitives namedKeys namedKeys_authentic moves hwithin).2⟩

/-- **Replay into the next session.** The answer of one session is delivered to the next, in which
    nothing was sent. It is accepted there, and for the second time. -/
theorem replayed_into_next_session :
    Authentic namedPrimitives namedKeys
    ∧ let n := Network.run namedPrimitives namedKeys
        [.send 0 .bob pongType pongPayload plainCoins, .deliver 0 .alice pongType (pongFrame 0),
          .deliver 1 .alice pongType (pongFrame 0)]
      n.sentPayloads 1 .bob = [] ∧ n.acceptedPayloads 1 .alice = [pongPayload]
        ∧ n.accepted.map Receipt.frame = [pongFrame 0, pongFrame 0] := by
  refine ⟨namedKeys_authentic, ?_⟩
  decide +kernel

end Nexum.MsTransport
