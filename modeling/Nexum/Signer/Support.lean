import Nexum.Lib.Hex
import Nexum.Signer.Snapshot

/-!
# The signer's configuration and its validation helpers

`Crypto` collects what the signer takes from elsewhere: the hash functions, the canonical JSON
they are applied to, opening a sealed envelope, verifying a token's signature, and the JSON of
message bodies. Nothing is assumed about any of them here; a result that needs a hash to be
collision-free says so in its hypotheses.
-/

namespace Nexum.Signer

open Nexum.Lib Nexum.Lib.Check
open Nexum.Transport

/-! ## 1. Roles -/

inductive SignerRole
  | arbiter | seller | buyer
  deriving DecidableEq

def roleKey : SignerRole → String
  | .arbiter => "arbiter"
  | .seller => "seller"
  | .buyer => "buyer"

def expectedSignRound : SignerRole → String
  | .arbiter => "arbiter_first"
  | .seller => "seller_second"
  | .buyer => "buyer_second"

def expectedSubmitRound : SignerRole → String
  | .arbiter => "arbiter_submit"
  | .seller => "seller_submit"
  | .buyer => "buyer_submit"

/-! ## 2. Tokens, peers and the agent -/

structure ActionClaims where
  sub : String
  scope : String
  op : String
  role : String
  signRound : String
  escrowId : String
  walletId : String
  sandboxId : String
  txsetHash : String
  snapshotHash : String
  nettype : String
  runtimeTrustEpoch : Option String
  escrowAdmissionHash : Option String
  iat : Nat
  nbf : Nat
  exp : Nat
  jti : String
  proofArbiterJti : Option String
  proofSellerJti : Option String
  proofArbiterReqId : Option String
  proofSellerReqId : Option String
  deriving DecidableEq

structure Peer where
  id : String
  kemPkB64 : String
  sigPkB64 : String
  deriving DecidableEq

/-- What is taken from elsewhere.

    `verifyJwt` and `jwtTimes` are the two halves of the token library's `decode`: the signature,
    issuer, audience and required claims, and the validity at a reading of the clock, with a
    leeway. They are two parameters because only the second reads the clock. `openEnvelope` decrypts an envelope from a peer and
    decodes the payload inside. -/
structure Crypto extends AdmissionCrypto where
  sha3Hex : List UInt8 → String
  policyJson : ContractSnapshot → List UInt8
  verifyJwt : String → Except String ActionClaims
  jwtTimes : (leeway now : Nat) → ActionClaims → Except String Unit
  openEnvelope : Peer → NxmsEnvelope → Except String NxmsPayload
  parseBody : String → Except String EscrowBody
  renderBody : EscrowBody → String

structure ActionTokenVerifier where
  required : Bool
  clockSkewSecs : Nat
  maxTtlSecs : Nat
  signerRole : SignerRole
  sandboxId : String
  walletId : String
  nettype : String
  runtimeTrustEpoch : Option String

/-- A signer agent: its configuration, the environment switches of the orchestrator bridge, and
    the outside functions it uses. -/
structure SignerAgent where
  crypto : Crypto
  localId : String
  signerRole : SignerRole
  productionHardening : Bool
  maxTxsetHexLen : Nat
  mailboxRetryAttempts : Nat
  peers : List Peer
  verifier : Option ActionTokenVerifier
  bundle : Option RuntimeTrustBundle
  proofStore : Bool
  proofStoreRequired : Bool
  proofVerify : Bool

def SignerAgent.peer (agent : SignerAgent) (id : String) : Option Peer :=
  agent.peers.find? (·.id == id)

def canonicalPolicyHashSha256Hex (cr : Crypto) (snapshot : ContractSnapshot) : String :=
  cr.sha256Hex (cr.policyJson snapshot)

/-! ## 3. Helpers -/

def normalizeHexExact (value : String) (len : Nat) (label : String) : Except String String :=
  normalizeHex value len s!"{label} must be {len} hex chars"

/-- The shared shape of the two checks of a transaction set's text. -/
def checkTxHex (label hexRaw : String) (maxHexLen : Nat) : Except String Unit := do
  failIf (hexRaw = "") s!"{label} must not be empty"
  failIf (hexRaw.utf8ByteSize > maxHexLen) s!"{label} too large"
  failIf (hexRaw.utf8ByteSize % 2 ≠ 0 ∨ ¬ (chars hexRaw).all isAsciiHexdigit)
    s!"{label} must be valid even-length hex"

def validateTxDataHex (value : String) (maxHexLen : Nat) : Except String String := do
  let hexRaw := trim value
  checkTxHex "tx_data_hex" hexRaw maxHexLen
  pure (toAsciiLowercase hexRaw)

def validateTxSignReq (payload : NxmsPayload) (req : TxSignReqBody) (maxHexLen : Nat) :
    Except String Unit := do
  failIf (req.escrowIdHex ≠ payload.escrowIdHex)
    "tx_sign_req escrow_id mismatch payload vs body"
  checkTxHex "multisig_txset_hex" (trim req.multisigTxsetHex) maxHexLen
  let _ ← normalizeHexExact req.snapshotHashHex 64 "snapshot_hash_hex"
  pure ()

/-- The bytes a transaction set's text stands for. -/
def txsetBytes (multisigTxsetHex : String) : Option (List UInt8) :=
  hexDecode (trim multisigTxsetHex)

def txsetSha256Hex (cr : Crypto) (multisigTxsetHex : String) : Except String String := do
  failIf (trim multisigTxsetHex = "") "multisig_txset_hex must not be empty"
  let bytes ← okOr (txsetBytes multisigTxsetHex) "multisig_txset_hex must be hex"
  pure (cr.sha256Hex bytes)

theorem txsetSha256Hex_ok {cr : Crypto} {tx hash : String}
    (h : txsetSha256Hex cr tx = .ok hash) :
    ∃ bytes, txsetBytes tx = some bytes ∧ hash = cr.sha256Hex bytes := by
  simp only [txsetSha256Hex, bind_eq_ok, failIf_eq_ok, okOr_eq_ok, pure_eq_ok, exists_unit] at h
  obtain ⟨-, bytes, hbytes, rfl⟩ := h
  exact ⟨bytes, hbytes, rfl⟩

/-- Only the length of the decoded id matters to the model; the bytes go to the cipher. -/
def decodeEscrowIdHex (hexId : String) : Except String (List UInt8) := do
  let raw ← okOr (hexDecode hexId) (hexError hexId)
  failIf (raw.length ≠ 16) "escrow_id_hex must be 32 hex chars (16 bytes)"
  pure raw

/-- **The name of a signing request**: everything it is about, hashed. -/
def signReqId (cr : Crypto) (escrowId op signRound txsetHashHex : String) : String :=
  cr.sha256Hex (utf8 s!"{escrowId}|{op}|{signRound}|{txsetHashHex}")

/-! ## 4. Escrow admission -/

def verifyEscrowAdmissionArtifact (agent : SignerAgent) (artifact : EscrowAdmissionArtifact)
    (escrowIdHex snapshotHashHex : String) (action : EscrowAction) : Except String String := do
  let bundle ← okOr agent.bundle "runtime trust bundle not configured"
  artifact.verifyAgainstBundle agent.crypto.toAdmissionCrypto bundle
  failIf (eqIgnoreAsciiCase artifact.escrowIdHex escrowIdHex = false)
    "escrow admission escrow_id mismatch"
  failIf (eqIgnoreAsciiCase artifact.snapshotHashHex snapshotHashHex = false)
    "escrow admission snapshot_hash mismatch"
  failIf (artifact.action ≠ action) "escrow admission action mismatch"
  pure (artifact.hashHex agent.crypto.toAdmissionCrypto)

end Nexum.Signer
