import Nexum.Lib.Play
import Nexum.Signer.Pending

/-!
# The peer's round trip

`sign_req` is the requesting side of the protocol: it takes the next number for the escrow from
its state file, seals a `tx_sign_req` for the signer, pushes it to the mailbox, and polls its own
inbox until an answer is found or the deadline has passed. It is one sequential function; its
surroundings — the state file, the mailbox, the clock — are asked one call at a time, and **every
call may fail**.

What is compared with what matters here. An envelope counts as an answer when it is addressed to
this peer, comes from the signer, names the escrow and has one of two types; **its number is not
compared with the request's**. The first envelope that passes is opened at once, and whatever goes
wrong while opening it ends the call.

The loop has no bound in the source. It is given `fuel` here, and returns nothing when that runs
out, which is neither an outcome nor a failure.
-/

namespace Nexum.Peer

open Nexum.Lib
open Nexum.Transport
open Nexum.Signer (Peer PulledMessage SealedPacket envelopeOf)

/-! ## 1. What a call is given -/

structure SignReqConfig where
  to_ : String
  escrowIdHex : String
  action : EscrowAction
  multisigTxsetHex : String
  snapshotHashHex : String
  escrowAdmissionArtifact : Option EscrowAdmissionArtifact
  humanHint : Option String
  ttlSecs : Nat
  waitMs : Nat
  timeoutSecs : Nat
  deriving DecidableEq

/-- What is taken from elsewhere: opening an envelope with the peer's own key and the signer's,
    and the JSON of the bodies. -/
structure PeerCrypto where
  openEnvelope : Peer → NxmsEnvelope → Except String NxmsPayload
  parseBody : String → Except String EscrowBody
  renderBody : EscrowBody → String

/-- The vault, the peer book and the mailbox client, each as loading it goes. -/
structure PeerHost where
  crypto : PeerCrypto
  localId : Except String String
  peers : Except String (List Peer)
  peersPath : String
  client : Except String Unit

def snapshotHashHexLen : Nat := 64
def pullMax : Nat := 10

def validateWirePeerId (value label : String) : Except String Unit :=
  (validatePeerId value).mapError (s!"invalid {label} '{value}': " ++ ·)

def decodeEscrowIdHex (escrowIdHex : String) : Except String (List UInt8) := do
  let raw ← Check.okOr (hexDecode escrowIdHex) "decode escrow id hex"
  Check.failIf (raw.length ≠ 16) "escrow id must decode to exactly 16 bytes"
  pure raw

/-- The escrow a call is for. -/
def SignReqConfig.escrow (cfg : SignReqConfig) : String :=
  toAsciiLowercase (trim cfg.escrowIdHex)

/-- A request that passed every check made before a number is taken for it. -/
structure Request where
  localId : String
  signerId : String
  signer : Peer
  escrowIdHex : String
  body : EscrowBody
  deriving DecidableEq

/-- An attached admission artifact has to be for the same escrow. -/
def checkArtifact (cfg : SignReqConfig) : Except String Unit :=
  match cfg.escrowAdmissionArtifact with
  | some artifact =>
    Check.failIf (toAsciiLowercase (trim artifact.escrowIdHex) ≠ cfg.escrow)
      ("escrow admission artifact escrow_id mismatch: "
        ++ s!"artifact {artifact.escrowIdHex} != request {cfg.escrow}")
  | none => pure ()

def checkRequest (host : PeerHost) (cfg : SignReqConfig) : Except String Request := do
  let localId ← host.localId
  validateWirePeerId localId "vault local_id"
  validateWirePeerId cfg.to_ "to"
  (validateHex cfg.escrow nxmsEscrowIdHexLen).mapError ("invalid escrow_id_hex: " ++ ·)
  let snapshotHashHex := toAsciiLowercase (trim cfg.snapshotHashHex)
  (validateHex snapshotHashHex snapshotHashHexLen).mapError ("invalid snapshot_hash_hex: " ++ ·)
  let multisigTxsetHex := toAsciiLowercase (trim cfg.multisigTxsetHex)
  Check.failIf (multisigTxsetHex = "" ∨ multisigTxsetHex.utf8ByteSize % 2 ≠ 0
      ∨ ¬ (chars multisigTxsetHex).all isAsciiHexdigit)
    "multisig_txset_hex must be valid even-length hex"
  Check.failIf (localId = cfg.to_) "peer local_id and signer id must differ"
  checkArtifact cfg
  let peers ← host.peers
  let signer ← Check.okOr (peers.find? (·.id == cfg.to_))
    s!"signer '{cfg.to_}' not in peer book {host.peersPath}"
  let _ ← decodeEscrowIdHex cfg.escrow
  pure ⟨localId, cfg.to_, signer, cfg.escrow, .txSignReq
    ⟨cfg.escrow, cfg.action, multisigTxsetHex, snapshotHashHex, cfg.escrowAdmissionArtifact,
      cfg.humanHint⟩⟩

theorem checkRequest_ok {host : PeerHost} {cfg : SignReqConfig} {r : Request}
    (h : checkRequest host cfg = .ok r) :
    r.signerId = cfg.to_ ∧ r.signer.id = cfg.to_ ∧ r.escrowIdHex = cfg.escrow := by
  unfold checkRequest at h
  simp only [Check.bind_eq_ok, Check.okOr_eq_ok, Check.pure_eq_ok, Check.exists_unit] at h
  obtain ⟨localId, -, -, -, -, -, -, -, -, peers, -, signer, hsigner, -, -, rfl⟩ := h
  exact ⟨rfl, by simpa using List.find?_some hsigner, rfl⟩

/-! ## 2. What is awaited, and what becomes of it -/

inductive SignReqStatus
  | approved | rejected | error
  deriving DecidableEq

structure SignReqOutcome where
  status : SignReqStatus
  escrowIdHex : String
  signerId : String
  requestSeq : Nat
  approved : Bool
  signedTxDataHex : Option String
  txHashList : List String
  reason : Option String
  deriving DecidableEq

/-- The envelopes that are not skipped. -/
def Request.awaits (r : Request) (env : NxmsEnvelope) : Bool :=
  env.to_ == r.localId && env.from_ == r.signerId && env.escrowIdHex == r.escrowIdHex
    && (env.msgType == .txSignResp || env.msgType == .error)

theorem Request.awaits_iff {r : Request} {env : NxmsEnvelope} :
    r.awaits env = true ↔ env.to_ = r.localId ∧ env.from_ = r.signerId
      ∧ env.escrowIdHex = r.escrowIdHex ∧ (env.msgType = .txSignResp ∨ env.msgType = .error) := by
  simp [Request.awaits, and_assoc]

def openSignerBody (cr : PeerCrypto) (signer : Peer) (env : NxmsEnvelope) :
    Except String EscrowBody := do
  env.validateBasic
  let _ ← decodeEscrowIdHex env.escrowIdHex
  let payload ← cr.openEnvelope signer env
  payload.validateMatchesEnvelope env
  cr.parseBody payload.data

def bodyKind : EscrowBody → String
  | .contractPropose _ => "contract_propose"
  | .contractSig _ => "contract_sig"
  | .txSignReq _ => "tx_sign_req"
  | .txSignResp _ => "tx_sign_resp"
  | .err _ => "err"

/-- What the call returns on a body it has opened, once the message is acknowledged. -/
def Request.outcomeOf (r : Request) (seq : Nat) : EscrowBody → Except String SignReqOutcome
  | .txSignResp resp => do
    Check.failIf (resp.escrowIdHex ≠ r.escrowIdHex)
      s!"tx_sign_resp escrow_id mismatch: resp={resp.escrowIdHex} requested={r.escrowIdHex}"
    pure ⟨if resp.approved then .approved else .rejected, r.escrowIdHex, r.signerId, seq,
      resp.approved, resp.signedTxDataHex, resp.txHashList, resp.reason⟩
  | .err err =>
    pure ⟨.error, r.escrowIdHex, r.signerId, seq, false, none, [],
      some s!"{err.code}: {err.reason}"⟩
  | other => .error s!"unexpected response body kind '{bodyKind other}' from signer '{r.signerId}'"

/-! ## 3. The surroundings -/

/-- The numbers used so far, per escrow, as the state file keeps them. -/
abbrev SeqState : Type := String → Option Nat

/-- What `sign_req` asks of its surroundings. The file is read whole, and an acknowledgement names
    its message by a receipt; the escrow and the envelope are carried along to say what the call
    is about.

    The last one is not the peer's: it is the signer's only step here, the answer it gives to a
    request. -/
inductive Call
  | readSeqState (escrowIdHex : String)
  | writeSeqState (state : SeqState)
  | encrypt (signer : Peer) (payload : NxmsPayload)
  | push (env : NxmsEnvelope) (ttlSecs : Nat)
  | pull (to_ : String) (max waitMs : Nat)
  | ack (receipt : String) (env : NxmsEnvelope)
  | now
  | answer (request reply : NxmsEnvelope)

def Call.Out : Call → Type
  | .readSeqState _ => SeqState
  | .writeSeqState _ => Unit
  | .encrypt _ _ => SealedPacket
  | .push _ _ => Unit
  | .pull _ _ _ => List PulledMessage
  | .ack _ _ => Unit
  | .now => Nat
  | .answer _ _ => Unit

abbrev Flow (α : Type) : Type := Prog Call Call.Out String α

/-- Make a call whose failure is the program's own. -/
abbrev ask (c : Call) : Flow c.Out := Prog.perform c

/-! ## 4. The round trip -/

open Prog

def nextSeq (state : SeqState) (escrowIdHex : String) : Nat :=
  max (min ((state escrowIdHex).getD 0 + 1) u64Max) 1

/-- The next number, written to the state file before it is used. -/
def nextOutSeq (escrowIdHex : String) : Flow Nat := do
  let state ← ask (.readSeqState escrowIdHex)
  let next := nextSeq state escrowIdHex
  let _ ← ask (.writeSeqState (Function.update state escrowIdHex (some next)))
  pure next

section
variable (host : PeerHost) (cfg : SignReqConfig) (r : Request) (seq : Nat)

/-- An envelope that was not skipped. It is acknowledged only when there is an outcome. -/
def receive (msg : PulledMessage) : Flow SignReqOutcome := do
  let body ← ofExcept (openSignerBody host.crypto r.signer msg.envelope)
  let outcome ← ofExcept (r.outcomeOf seq body)
  let _ ← ask (.ack msg.receipt msg.envelope)
  pure outcome

/-- One batch. -/
def scan : List PulledMessage → Flow (Option SignReqOutcome)
  | [] => pure none
  | msg :: rest =>
    if r.awaits msg.envelope then do
      let outcome ← receive host r seq msg
      pure (some outcome)
    else scan rest

/-- The polling loop; `none` when the fuel runs out before it has ended. -/
def poll (deadline : Nat) : (fuel : Nat) → Flow (Option SignReqOutcome)
  | 0 => pure none
  | fuel + 1 => do
    let messages ← ask (.pull r.localId pullMax cfg.waitMs)
    match ← scan host r seq messages with
    | some outcome => pure (some outcome)
    | none => do
      let now : Nat ← ask .now
      failIf (now ≥ deadline)
        (s!"timed out after {cfg.timeoutSecs}s waiting for tx_sign_resp "
          ++ s!"escrow={r.escrowIdHex} from={r.signerId}")
      poll deadline fuel

/-- The request under its number. -/
def requestPayload : NxmsPayload :=
  ⟨escrowAppProtoV1, .txSignReq, r.escrowIdHex, r.localId, r.signerId, seq,
    host.crypto.renderBody r.body⟩

/-- From the number on: seal, push, and wait. -/
def roundTrip (fuel : Nat) : Flow (Option SignReqOutcome) := do
  let packet ← ask (.encrypt r.signer (requestPayload host r seq))
  let env := envelopeOf .txSignReq (requestPayload host r seq) packet
  ofExcept env.validateBasic
  ofExcept host.client
  let _ ← ask (.push env cfg.ttlSecs)
  let start : Nat ← ask .now
  poll host cfg r seq (start + cfg.timeoutSecs * 1000) fuel

end

def signReq (host : PeerHost) (fuel : Nat) (cfg : SignReqConfig) :
    Flow (Option SignReqOutcome) := do
  let r ← ofExcept (checkRequest host cfg)
  let seq ← nextOutSeq r.escrowIdHex
  roundTrip host cfg r seq fuel

/-! ## 5. A batch in one step -/

theorem scan_eq (host : PeerHost) (r : Request) (seq : Nat) (messages : List PulledMessage) :
    scan host r seq messages =
      (messages.find? fun msg => r.awaits msg.envelope).elim (Pure.pure none) fun msg =>
        receive host r seq msg >>= fun outcome => Pure.pure (some outcome) := by
  induction messages with
  | nil => rfl
  | cons msg rest ih =>
    by_cases h : r.awaits msg.envelope = true
    · simp only [scan, List.find?_cons, h, if_true, Option.elim_some]
    · simp only [scan, List.find?_cons, h, ih, Bool.false_eq_true, if_false]

end Nexum.Peer
