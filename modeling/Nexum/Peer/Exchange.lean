import Nexum.Lib.Books
import Nexum.Peer.SignReq

/-!
# Peers and a signer over one mailbox

Any number of `sign_req` calls of one peer, at once or one after the other, share its state file
and its inbox; each may stop at any point. On the other side the signer answers requests: every
request at most once, at any time after it was pushed.

The inbox is in nobody's control. A pull may return anything, in any order and as often as it
likes, with one exception: an envelope that opens under the signer's key is one the signer has
made.
-/

namespace Nexum.Peer

open Nexum.Lib Nexum.Lib.Prog
open Nexum.Transport
open Nexum.Signer (Peer PulledMessage SealedPacket envelopeOf)

/-! ## 1. The mailbox and the state file -/

/-- What has gone over the mailbox. -/
inductive Exchange
  | asked (request : NxmsEnvelope)
  | answered (reply request : NxmsEnvelope)
  deriving DecidableEq

/-- The numbers in the state file, and the requests and answers so far, newest first. -/
structure World where
  seqState : SeqState
  history : List Exchange

/-- The signer has made the envelope, as an answer to some request. -/
def World.answered (w : World) (reply : NxmsEnvelope) : Bool :=
  w.history.any fun
    | .answered env _ => env == reply
    | .asked _ => false

theorem World.answered_iff {w : World} {reply : NxmsEnvelope} :
    w.answered reply = true ↔ ∃ request, .answered reply request ∈ w.history := by
  unfold World.answered
  rw [List.any_eq_true]
  constructor
  · rintro ⟨x, hx, heq⟩
    cases x with
    | asked _ => cases heq
    | answered env request =>
      obtain rfl := eq_of_beq heq
      exact ⟨request, hx⟩
  · rintro ⟨request, hx⟩
    exact ⟨_, hx, beq_self_eq_true reply⟩

/-- The request was pushed and has not been answered. -/
def World.isOpen (w : World) (request : NxmsEnvelope) : Bool :=
  w.history.contains (.asked request) && w.history.all fun
    | .answered _ env => env != request
    | .asked _ => true

theorem World.isOpen_iff {w : World} {request : NxmsEnvelope} :
    w.isOpen request = true ↔
      .asked request ∈ w.history ∧ ∀ reply, .answered reply request ∉ w.history := by
  unfold World.isOpen
  rw [Bool.and_eq_true, List.contains_iff_mem, List.all_eq_true]
  refine and_congr_right fun _ => ⟨?_, ?_⟩
  · intro h reply hmem
    simpa using h _ hmem
  · intro h x hx
    cases x with
    | asked _ => rfl
    | answered reply env =>
      refine bne_iff_ne.mpr ?_
      rintro rfl
      exact h reply hx

/-- The envelope opens, under this signer's key. -/
def opens (host : PeerHost) (signer : Peer) (env : NxmsEnvelope) : Bool :=
  (openSignerBody host.crypto signer env).isOk

/-- What opens in a batch was made by the signer. -/
def Genuine (host : PeerHost) (signer : Peer) (w : World) (messages : List PulledMessage) : Prop :=
  ∀ msg ∈ messages, opens host signer msg.envelope = true → w.answered msg.envelope = true

/-- The reply goes back to where the request came from, for the same escrow. -/
def Replies (reply request : NxmsEnvelope) : Prop :=
  reply.from_ = request.to_ ∧ reply.to_ = request.from_
    ∧ reply.escrowIdHex = request.escrowIdHex

instance (reply request : NxmsEnvelope) : Decidable (Replies reply request) :=
  inferInstanceAs (Decidable (_ ∧ _))

def World.ask (w : World) (request : NxmsEnvelope) : World :=
  { w with history := .asked request :: w.history }

/-- How a call may be answered. A failed write or push may have taken effect all the same: the
    file is replaced before its permissions are set, and a push may be reported lost after the
    mailbox has stored it. -/
def exec (host : PeerHost) (signer : Peer) : Services Call Call.Out String World
  | w, .readSeqState _, .ok state, w' => state = w.seqState ∧ w' = w
  | w, .writeSeqState state, .ok _, w' => w' = { w with seqState := state }
  | w, .writeSeqState state, .error _, w' => w' = w ∨ w' = { w with seqState := state }
  | w, .push env _, .ok _, w' => w' = w.ask env
  | w, .push env _, .error _, w' => w' = w ∨ w' = w.ask env
  | w, .pull _ _ _, .ok messages, w' => w' = w ∧ Genuine host signer w messages
  | w, .answer request reply, .ok _, w' => w.isOpen request = true ∧ Replies reply request
      ∧ w' = { w with history := .answered reply request :: w.history }
  | w, _, _, w' => w' = w

/-! ## 2. The flows -/

/-- What runs: a call of the peer, or the signer answering a request. -/
inductive Task
  | signReq (fuel : Nat) (cfg : SignReqConfig)
  | answer (request reply : NxmsEnvelope)

def Task.prog (host : PeerHost) : Task → Flow (Option SignReqOutcome)
  | .signReq fuel cfg => Peer.signReq host fuel cfg
  | .answer request reply => do
    let _ ← ask (.answer request reply)
    pure none

abbrev Event : Type := Entry Task Call Call.Out String (Option SignReqOutcome)

def trading (host : PeerHost) (signer : Peer) :
    System World Task Call Call.Out String (Option SignReqOutcome) where
  prog := Task.prog host
  exec := exec host signer
  ext w w' := w' = w

/-! ## 3. What a call does -/

section
variable {host : PeerHost} {signer : Peer} {w w' : World}

/-- The calls that change nothing. -/
def Call.idle : Call → Bool
  | .writeSeqState _ | .push _ _ | .answer _ _ => false
  | _ => true

theorem exec_idle {c : Call} {r : Except String c.Out} (h : exec host signer w c r w')
    (hc : c.idle = true) : w' = w := by
  cases c with
  | readSeqState _ =>
    cases r with
    | ok _ => exact h.2
    | error _ => exact h
  | pull _ _ _ =>
    cases r with
    | ok _ => exact h.1
    | error _ => exact h
  | encrypt _ _ => cases r <;> exact h
  | ack _ _ => cases r <;> exact h
  | now => cases r <;> exact h
  | writeSeqState _ => cases hc
  | push _ _ => cases hc
  | answer _ _ => cases hc

theorem exec_reads {escrow : String} {state : SeqState}
    (h : exec host signer w (.readSeqState escrow) (.ok state) w') : state = w.seqState ∧ w' = w :=
  h

theorem exec_writes {state : SeqState} {r : Except String Unit}
    (h : exec host signer w (.writeSeqState state) r w') :
    w'.history = w.history ∧ (w'.seqState = w.seqState ∨ w'.seqState = state)
      ∧ (r = .ok () → w'.seqState = state) := by
  cases r with
  | ok _ =>
    obtain rfl : w' = _ := h
    exact ⟨rfl, .inr rfl, fun _ => rfl⟩
  | error e =>
    rcases h with rfl | rfl
    · exact ⟨rfl, .inl rfl, by simp⟩
    · exact ⟨rfl, .inr rfl, by simp⟩

theorem exec_pushes {env : NxmsEnvelope} {ttlSecs : Nat} {r : Except String Unit}
    (h : exec host signer w (.push env ttlSecs) r w') :
    w'.seqState = w.seqState ∧ (w'.history = w.history ∨ w'.history = .asked env :: w.history)
      ∧ (r = .ok () → w'.history = .asked env :: w.history) := by
  cases r with
  | ok _ =>
    obtain rfl : w' = _ := h
    exact ⟨rfl, .inr rfl, fun _ => rfl⟩
  | error e =>
    rcases h with rfl | rfl
    · exact ⟨rfl, .inl rfl, by simp⟩
    · exact ⟨rfl, .inr rfl, by simp⟩

theorem exec_answers {request reply : NxmsEnvelope} {r : Except String Unit}
    (h : exec host signer w (.answer request reply) r w') :
    w' = w ∨ w.isOpen request = true ∧ Replies reply request
      ∧ w'.seqState = w.seqState ∧ w'.history = .answered reply request :: w.history := by
  cases r with
  | ok _ =>
    obtain ⟨hopen, hreplies, rfl⟩ := h
    exact .inr ⟨hopen, hreplies, rfl, rfl⟩
  | error e => exact .inl h

end

/-! ## 4. Playing it -/

/-- How a call is answered in a run that is played. -/
inductive Reply
  | works
  | fails
  | at_ (time : Nat)
  | delivers (messages : List PulledMessage)

/-- A packet that holds the texts an envelope needs. -/
def plainPacket : SealedPacket := ⟨"ct", "nonce", "text", "tag", "sig"⟩

def play (m : Reply) (w : World) : (c : Call) → Except String c.Out × World
  | .readSeqState _ => (.ok w.seqState, w)
  | .writeSeqState state => (.ok (), { w with seqState := state })
  | .encrypt _ _ => (.ok plainPacket, w)
  | .push env _ =>
    match m with
    | .fails => (.error "mailbox push failed", w)
    | _ => (.ok (), w.ask env)
  | .pull _ _ _ =>
    match m with
    | .delivers messages =>
      if messages.all fun msg => w.answered msg.envelope then (.ok messages, w)
      else (.error "mailbox pull failed", w)
    | _ => (.ok [], w)
  | .ack _ _ => (.ok (), w)
  | .now =>
    match m with
    | .at_ time => (.ok time, w)
    | _ => (.ok (0 : Nat), w)
  | .answer request reply =>
    if w.isOpen request = true ∧ Replies reply request then
      (.ok (), { w with history := .answered reply request :: w.history })
    else (.error "request not open", w)

def player (host : PeerHost) (signer : Peer) : Player (trading host signer).exec Reply where
  answer := play
  sound m w c := by
    cases c with
    | readSeqState escrow => exact ⟨rfl, rfl⟩
    | writeSeqState state => exact rfl
    | encrypt signer payload => exact rfl
    | push env ttlSecs =>
      cases m with
      | fails => exact .inl rfl
      | _ => exact rfl
    | pull recipient max waitMs =>
      cases m with
      | delivers messages =>
        simp only [play]
        split
        · rename_i hall
          exact ⟨rfl, fun msg hmsg _ => List.all_eq_true.mp hall msg hmsg⟩
        · exact rfl
      | _ => exact ⟨rfl, fun msg hmsg => absurd hmsg List.not_mem_nil⟩
    | ack receipt env => exact rfl
    | now => cases m <;> exact rfl
    | answer request reply =>
      simp only [play]
      split
      · rename_i h
        exact ⟨h.1, h.2, rfl⟩
      · exact rfl

/-! A peer and a signer to play with: every response opens, and approves. -/

def sampleSigner : Peer := ⟨"signer", "kem", "sig"⟩

def sampleEscrow : String := "0123456789abcdef0123456789abcdef"

def sampleConfig : SignReqConfig where
  to_ := "signer"
  escrowIdHex := sampleEscrow
  action := .release
  multisigTxsetHex := "ab"
  snapshotHashHex := "0123456789abcdef0123456789abcdef0123456789abcdef0123456789abcdef"
  escrowAdmissionArtifact := none
  humanHint := none
  ttlSecs := 600
  waitMs := 1000
  timeoutSecs := 60

def sampleHost : PeerHost where
  crypto := {
    openEnvelope := fun _ env =>
      if env.msgType = .txSignResp then
        .ok ⟨escrowAppProtoV1, env.msgType, env.escrowIdHex, env.from_, env.to_, env.seq,
          "approved"⟩
      else .error "not a response"
    parseBody := fun _ => .ok (.txSignResp ⟨sampleEscrow, true, some "cd", [], none⟩)
    renderBody := fun _ => "request" }
  localId := .ok "peer"
  peers := .ok [sampleSigner]
  peersPath := "peers.json"
  client := .ok ()

/-- The request with the number `n`. -/
def sampleRequest (n : Nat) : NxmsEnvelope :=
  envelopeOf .txSignReq
    ⟨escrowAppProtoV1, .txSignReq, sampleEscrow, "peer", "signer", n, "request"⟩ plainPacket

/-- The signer's response with its number `n`. -/
def sampleResponse (n : Nat) : NxmsEnvelope :=
  envelopeOf .txSignResp
    ⟨escrowAppProtoV1, .txSignResp, sampleEscrow, "signer", "peer", n, "approved"⟩ plainPacket

/-- What a call returns on such a response. -/
def sampleOutcome (seq : Nat) : SignReqOutcome :=
  ⟨.approved, sampleEscrow, "signer", seq, true, some "cd", [], none⟩

/-- The request of the configuration, as it was checked. -/
def sampleChecked : Request :=
  ⟨"peer", "signer", sampleSigner, sampleEscrow, .txSignReq
    ⟨sampleEscrow, .release, "ab", sampleConfig.snapshotHashHex, none, none⟩⟩

theorem checkRequest_sample : checkRequest sampleHost sampleConfig = .ok sampleChecked := by
  decide +kernel

end Nexum.Peer
