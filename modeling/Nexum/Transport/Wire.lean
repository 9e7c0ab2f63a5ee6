import Nexum.Transport.Admission

/-!
# The NXMS wire format

Envelopes as the mailbox carries them, the payload sealed inside, and the typed bodies of the
escrow messages. `validate_basic` and `validate_matches_envelope` are the checks a receiver runs
before and after opening an envelope. A stored or transmitted JSON text is represented by what
`serde_json` makes of it: `Json α` is either the value it decodes to, or a text the decoder
refuses with an error.
-/

namespace Nexum.Transport

open Nexum.Lib Nexum.Lib.Check

/-! ## 1. JSON texts -/

/-- A JSON text, up to what decoding it at `α` yields. -/
inductive Json (α : Type)
  | encoded (a : α)
  | malformed (raw err : String)
  deriving DecidableEq

/-- `serde_json::from_str`. -/
def Json.fromStr {α : Type} : Json α → Except String α
  | .encoded a => .ok a
  | .malformed _ err => .error err

/-! ## 2. Messages -/

inductive MsgType
  | prepareInfo | makeInfo | exchangeRound1 | exchangeRound2 | exportInfoReq | exportInfoResp
  | txSignReq | txSignResp | error
  deriving DecidableEq

def msgTypeKey : MsgType → String
  | .prepareInfo => "prepare_info"
  | .makeInfo => "make_info"
  | .exchangeRound1 => "exchange_round1"
  | .exchangeRound2 => "exchange_round2"
  | .exportInfoReq => "export_info_req"
  | .exportInfoResp => "export_info_resp"
  | .txSignReq => "tx_sign_req"
  | .txSignResp => "tx_sign_resp"
  | .error => "error"

structure TxSignReqBody where
  escrowIdHex : String
  action : EscrowAction
  multisigTxsetHex : String
  snapshotHashHex : String
  escrowAdmissionArtifact : Option EscrowAdmissionArtifact
  humanHint : Option String
  deriving DecidableEq

structure TxSignRespBody where
  escrowIdHex : String
  approved : Bool
  signedTxDataHex : Option String
  txHashList : List String
  reason : Option String
  deriving DecidableEq

structure EscrowErrBody where
  escrowIdHex : String
  code : String
  reason : String
  deriving DecidableEq

structure ContractPropose where
  escrowIdHex : String
  snapshotHashHex : String
  snapshotJsonB64 : String
  deriving DecidableEq

structure ContractSig where
  escrowIdHex : String
  snapshotHashHex : String
  signerId : String
  sigPkB64 : String
  sigB64 : String
  alg : String
  deriving DecidableEq

inductive EscrowBody
  | contractPropose (body : ContractPropose)
  | contractSig (body : ContractSig)
  | txSignReq (body : TxSignReqBody)
  | txSignResp (body : TxSignRespBody)
  | err (body : EscrowErrBody)
  deriving DecidableEq

structure NxmsEnvelope where
  proto : String
  kemId : String
  sigId : String
  msgType : MsgType
  escrowIdHex : String
  from_ : String
  to_ : String
  seq : Nat
  kemCtB64 : String
  nonceB64 : String
  ciphertextB64 : String
  tagB64 : String
  sigB64 : String
  deriving DecidableEq

structure NxmsPayload where
  appProto : String
  msgType : MsgType
  escrowIdHex : String
  from_ : String
  to_ : String
  seq : Nat
  data : String
  deriving DecidableEq

/-! ## 3. Checks -/

def nxmsProtoV1 : String := "NXMS/1"
def escrowAppProtoV1 : String := "ESCROW/1"
def nxmsWireKemIdV1 : String := "FrodoKEM-640-SHAKE"
def nxmsWireSigIdV1 : String := "Falcon-1024-CT"
def nxmsEscrowIdHexLen : Nat := 32
def nxmsMaxPeerIdLen : Nat := 64

def nxmsWireMaxPayload : Nat := 16 * 1024 * 1024
def nxmsWireMaxKemCtLen : Nat := 32768
def nxmsWireNonceLen : Nat := 24
def nxmsWireTagLen : Nat := 32
def nxmsWireMaxSigLen : Nat := 4096

def isPeerIdChar (c : Char) : Bool :=
  c.isAlphanum || c == '_' || c == '-'

def validatePeerId (value : String) : Except String Unit := do
  let v := trim value
  failIf (v = "") "empty"
  failIf (v.utf8ByteSize > nxmsMaxPeerIdLen) "too long"
  failIf (¬ (chars v).all isPeerIdChar) "invalid characters (allowed: A-Z a-z 0-9 _ -)"

def validateHex (value : String) (expectedLen : Nat) : Except String Unit := do
  let v := trim value
  failIf (v.utf8ByteSize ≠ expectedLen) "invalid length"
  failIf (¬ (chars v).all isAsciiHexdigit) "non-hex characters"

/-- The longest base64 text of `maxDecodedLen` bytes. The source's overflow arm is for a limit
    near the word size; every limit below is a small constant. -/
def maxB64LenForDecoded (maxDecodedLen : Nat) : Nat :=
  (maxDecodedLen + 2) / 3 * 4

def validateB64FieldLen (label value : String) (maxDecodedLen : Nat) : Except String Unit :=
  let maxB64Len := maxB64LenForDecoded maxDecodedLen
  failIf (value.utf8ByteSize > maxB64Len)
    s!"{label} too long: {value.utf8ByteSize} > {maxB64Len}"

def NxmsEnvelope.validateBasic (env : NxmsEnvelope) : Except String Unit := do
  failIf (env.proto ≠ nxmsProtoV1) s!"invalid proto '{env.proto}'"
  failIf (env.kemId ≠ nxmsWireKemIdV1) s!"unsupported kem_id '{env.kemId}'"
  failIf (env.sigId ≠ nxmsWireSigIdV1) s!"unsupported sig_id '{env.sigId}'"
  (validatePeerId env.from_).mapError ("invalid from: " ++ ·)
  (validatePeerId env.to_).mapError ("invalid to: " ++ ·)
  (validateHex env.escrowIdHex nxmsEscrowIdHexLen).mapError ("invalid escrow_id_hex: " ++ ·)
  failIf (env.seq = 0) "seq must be > 0"
  failIf (isBlank env.kemCtB64 ∨ isBlank env.nonceB64
      ∨ isBlank env.ciphertextB64 ∨ isBlank env.tagB64
      ∨ isBlank env.sigB64) "missing crypto fields"
  validateB64FieldLen "kem_ct_b64" env.kemCtB64 nxmsWireMaxKemCtLen
  validateB64FieldLen "nonce_b64" env.nonceB64 nxmsWireNonceLen
  validateB64FieldLen "ciphertext_b64" env.ciphertextB64 nxmsWireMaxPayload
  validateB64FieldLen "tag_b64" env.tagB64 nxmsWireTagLen
  validateB64FieldLen "sig_b64" env.sigB64 nxmsWireMaxSigLen

def NxmsPayload.validateBasic (p : NxmsPayload) : Except String Unit := do
  failIf (p.appProto ≠ escrowAppProtoV1)
    s!"unsupported app_proto '{p.appProto}' (expected {escrowAppProtoV1})"
  (validatePeerId p.from_).mapError ("invalid from: " ++ ·)
  (validatePeerId p.to_).mapError ("invalid to: " ++ ·)
  (validateHex p.escrowIdHex nxmsEscrowIdHexLen).mapError ("invalid escrow_id_hex: " ++ ·)
  failIf (p.seq = 0) "seq must be > 0"
  failIf (isBlank p.data) "payload data must not be empty"

def NxmsPayload.validateMatchesEnvelope (p : NxmsPayload) (env : NxmsEnvelope) :
    Except String Unit := do
  p.validateBasic
  env.validateBasic
  failIf (p.escrowIdHex ≠ env.escrowIdHex) "payload/envelope escrow_id mismatch"
  failIf (p.from_ ≠ env.from_) "payload/envelope from mismatch"
  failIf (p.to_ ≠ env.to_) "payload/envelope to mismatch"
  failIf (p.seq ≠ env.seq) "payload/envelope seq mismatch"
  failIf (msgTypeKey p.msgType ≠ msgTypeKey env.msgType) "payload/envelope msg_type mismatch"

end Nexum.Transport
