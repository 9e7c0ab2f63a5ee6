import Mathlib.Data.Prod.Lex
import Nexum.Lib.Base64
import Nexum.Lib.Json
import Nexum.Transport.Admission
import Nexum.Transport.Packet

/-!
# Runtime trust bundles

A bundle lists the hosts of an installation with their keys, names the issuer of action tokens, and
carries the signatures of the two guards. `verify_guard_quorum` accepts it, `sign` adds a guard's
signature, and `local_peer` and `peer_book_for` look hosts up. Admission artifacts
(`Transport.EscrowAdmissionArtifact`) are signed and checked in the same way, against the hosts of a
bundle.

Falcon, SHA-256 and the text `serde_json` writes for a value are parameters; base64, hexadecimal and
the canonical form of a document are not.
-/

namespace Nexum.Trust

open Nexum.Lib Nexum.Lib.Check
open Nexum.MsTransport (nxmsMaxSigSkLen nxmsMaxSigPkLen ffFalconSigMax)
open Nexum.Transport (EscrowAction EscrowAdmissionArtifact EscrowAdmissionSignature AdmissionCrypto
  requiredGuardRoles normalizeNonEmpty validateHexExact)

/-! ## 1. Documents -/

structure RuntimeTrustPeer where
  id : String
  role : String
  host : String
  port : UInt16
  kemPkB64 : String
  sigPkB64 : String
  deriving DecidableEq

structure RuntimeActionTokenIssuer where
  issuer : String
  algorithm : String
  publicKeyPem : String
  deriving DecidableEq

structure RuntimeTrustSignature where
  signerId : String
  signerRole : String
  sigPkB64 : String
  sigB64 : String
  hashHex : String
  alg : String
  createdAtUnixMs : Nat
  deriving DecidableEq

structure RuntimeTrustBundle where
  schema : String
  trustEpoch : String
  peers : List RuntimeTrustPeer
  actionToken : RuntimeActionTokenIssuer
  signatures : List RuntimeTrustSignature
  deriving DecidableEq

/-- The part of the bundle that admission reads. -/
def RuntimeTrustBundle.forAdmission (b : RuntimeTrustBundle) : Transport.RuntimeTrustBundle where
  trustEpoch := b.trustEpoch
  peers := b.peers.map fun p => ⟨p.id, p.role, p.sigPkB64⟩

def runtimeTrustBundleSchemaV1 : String := "nxms-runtime-trust-bundle/v1"
def runtimeTrustSigAlg : String := "Falcon-1024-CT"

/-! ## 2. Primitives -/

/-- What lies outside: `ρ` is the randomness of one signature, and the Falcon functions answer
    with the native code's return code where they fail. -/
structure TrustCrypto (ρ : Type) where
  sha256 : List UInt8 → Bytes 32
  jsonBytes : JsonValue → List UInt8
  ffFalconSignCt : ρ → List UInt8 → List UInt8 → Except Int (List UInt8)
  ffFalconVerify : List UInt8 → List UInt8 → List UInt8 → Int

section
variable {ρ : Type} (cr : TrustCrypto ρ)

def falconSignCt (coins : ρ) (sigSk msg : List UInt8) : Except String (List UInt8) := do
  failIf (sigSk = [] ∨ sigSk.length > nxmsMaxSigSkLen) "invalid Falcon secret key length"
  match cr.ffFalconSignCt coins sigSk msg with
  | .ok sig => pure sig
  | .error rc => .error s!"ff_falcon_sign_ct failed rc={rc}"

def falconVerify (sigPk msg sig : List UInt8) : Except String Unit := do
  failIf (sigPk = [] ∨ sigPk.length > nxmsMaxSigPkLen) "invalid Falcon public key length"
  failIf (sig = [] ∨ sig.length > ffFalconSigMax) "invalid Falcon signature length"
  let rc := cr.ffFalconVerify sigPk msg sig
  failIf (rc ≠ 0) s!"ff_falcon_verify failed rc={rc}"

/-- The source has no text of its own for the decoder's complaint. -/
def decodeB64 (s : String) : Except String (List UInt8) :=
  okOr (b64Decode s) "invalid base64"

/-! ## 3. Canonical form and hash -/

/-- The order of the peers in a hash: by all of their fields. Texts are ordered by their code
    points, which is the order of their UTF-8 bytes. -/
def RuntimeTrustPeer.sortKey (p : RuntimeTrustPeer) :
    String ×ₗ String ×ₗ String ×ₗ Nat ×ₗ String ×ₗ String :=
  toLex (p.id, toLex (p.role, toLex (p.host, toLex (p.port.toNat,
    toLex (p.kemPkB64, p.sigPkB64)))))

def sortRuntimeTrustPeers (peers : List RuntimeTrustPeer) : List RuntimeTrustPeer :=
  peers.insertionSort fun a b => a.sortKey ≤ b.sortKey

def RuntimeTrustPeer.json (p : RuntimeTrustPeer) : JsonValue :=
  jsonRecord ["id", "role", "host", "port", "kem_pk_b64", "sig_pk_b64"]
    [.str p.id, .str p.role, .str p.host, .num p.port.toNat, .str p.kemPkB64, .str p.sigPkB64]

def RuntimeActionTokenIssuer.json (t : RuntimeActionTokenIssuer) : JsonValue :=
  jsonRecord ["issuer", "algorithm", "public_key_pem"]
    [.str t.issuer, .str t.algorithm, .str t.publicKeyPem]

def RuntimeTrustBundle.canonicalUnsignedJson (b : RuntimeTrustBundle) (sortPeersForHash : Bool) :
    JsonValue :=
  let peers := if sortPeersForHash then sortRuntimeTrustPeers b.peers else b.peers
  canonicalizeJson (jsonRecord ["schema", "trust_epoch", "peers", "action_token"]
    [.str b.schema, .str b.trustEpoch, .arr (peers.map RuntimeTrustPeer.json), b.actionToken.json])

/-- The digest of the bundle without its signatures. -/
def RuntimeTrustBundle.digest (b : RuntimeTrustBundle) : Bytes 32 :=
  cr.sha256 (cr.jsonBytes (b.canonicalUnsignedJson true))

def RuntimeTrustBundle.hashHex (b : RuntimeTrustBundle) : String :=
  hexEncode (b.digest cr).data

def actionKey : EscrowAction → String
  | .release => "release"
  | .refund => "refund"

def admissionJson (a : EscrowAdmissionArtifact) : JsonValue :=
  canonicalizeJson (jsonRecord ["schema", "escrow_id_hex", "snapshot_hash_hex", "action",
      "runtime_trust_epoch", "admitted_at_unix_ms"]
    [.str a.schema, .str a.escrowIdHex, .str a.snapshotHashHex, .str (actionKey a.action),
      .str a.runtimeTrustEpoch, .num a.admittedAtUnixMs])

/-- The functions that admission rests on. -/
def TrustCrypto.admission : AdmissionCrypto where
  sha256Hex bytes := hexEncode (cr.sha256 bytes).data
  b64Decode := decodeB64
  falconVerify := falconVerify cr
  admissionJson a := cr.jsonBytes (admissionJson a)

/-- The digest of the artifact without its signatures. -/
def admissionDigest (a : EscrowAdmissionArtifact) : Bytes 32 :=
  cr.sha256 (cr.jsonBytes (admissionJson a))

/-! ## 4. Validation -/

def validateSignatureMetadata (s : RuntimeTrustSignature) : Except String Unit := do
  let _ ← normalizeNonEmpty s.signerId "signature.signer_id" 128
  let _ ← normalizeNonEmpty s.signerRole "signature.signer_role" 128
  failIf (trim s.alg ≠ runtimeTrustSigAlg)
    s!"unsupported runtime trust signature algorithm '{s.alg}'"
  validateHexExact s.hashHex 64 "signature.hash_hex"
  failIf (trim s.sigPkB64 = "") "runtime trust signature sig_pk_b64 must not be empty"
  failIf (trim s.sigB64 = "") "runtime trust signature sig_b64 must not be empty"

/-- One peer of the loop, given the ids before it; its own id is passed on. -/
def validatePeer (seenIds : List String) (p : RuntimeTrustPeer) : Except String String := do
  let peerId := trim p.id
  failIf (peerId = "" ∨ peerId.utf8ByteSize > 128) "runtime trust peer id must be 1..=128 chars"
  failIf (peerId ∈ seenIds) s!"runtime trust bundle duplicate peer id '{peerId}'"
  let role := trim p.role
  failIf (role = "" ∨ role.utf8ByteSize > 128)
    s!"runtime trust peer '{peerId}' role must be 1..=128 chars"
  let host := trim p.host
  failIf (host = "" ∨ host.utf8ByteSize > 255)
    s!"runtime trust peer '{peerId}' host must be 1..=255 chars"
  failIf (containsText host "://")
    s!"runtime trust peer '{peerId}' host must be onion host only, not URL"
  failIf (¬ endsWithText host ".onion")
    s!"runtime trust peer '{peerId}' host must be Tor hidden service (.onion)"
  failIf (p.port = 0) s!"runtime trust peer '{peerId}' port must be > 0"
  failIf (trim p.kemPkB64 = "") s!"runtime trust peer '{peerId}' kem_pk_b64 must not be empty"
  failIf (trim p.sigPkB64 = "") s!"runtime trust peer '{peerId}' sig_pk_b64 must not be empty"
  pure peerId

def validatePeers : List String → List RuntimeTrustPeer → Except String Unit
  | _, [] => pure ()
  | seenIds, p :: rest => do
    let peerId ← validatePeer seenIds p
    validatePeers (seenIds ++ [peerId]) rest

def RuntimeActionTokenIssuer.validate (t : RuntimeActionTokenIssuer) : Except String Unit := do
  let issuer := trim t.issuer
  failIf (issuer = "" ∨ issuer.utf8ByteSize > 256)
    "runtime trust bundle action_token.issuer must be 1..=256 chars"
  let algorithm := toAsciiUppercase (trim t.algorithm)
  failIf (algorithm ≠ "EDDSA" ∧ algorithm ≠ "ES256")
    "runtime trust bundle action_token.algorithm must be EDDSA or ES256"
  let publicKeyPem := trim t.publicKeyPem
  failIf (publicKeyPem = "") "runtime trust bundle action_token.public_key_pem must not be empty"
  failIf (¬ containsText publicKeyPem "BEGIN PUBLIC KEY")
    "runtime trust bundle action_token.public_key_pem must contain a PEM public key"

def RuntimeTrustBundle.validate (b : RuntimeTrustBundle) : Except String Unit := do
  failIf (trim b.schema ≠ runtimeTrustBundleSchemaV1)
    (s!"runtime trust bundle schema mismatch: expected '{runtimeTrustBundleSchemaV1}' "
      ++ s!"got '{b.schema}'")
  let trustEpoch := trim b.trustEpoch
  failIf (trustEpoch = "" ∨ trustEpoch.utf8ByteSize > 128)
    "runtime trust bundle trust_epoch must be 1..=128 chars"
  failIf (b.peers = []) "runtime trust bundle peers list must not be empty"
  validatePeers [] b.peers
  b.actionToken.validate
  b.signatures.forM validateSignatureMetadata

/-! ## 5. Signing -/

/-- The first one that is asked for is replaced; if there is none, the new one goes to the end. -/
def replaceOrPush {α : Type} (p : α → Bool) (new : α) : List α → List α
  | [] => [new]
  | x :: rest => if p x then new :: rest else x :: replaceOrPush p new rest

def RuntimeTrustBundle.sign (b : RuntimeTrustBundle) (signerId signerRole : String)
    (sigSk sigPk : List UInt8) (createdAtUnixMs : Nat) (coins : ρ) :
    Except String RuntimeTrustBundle := do
  b.validate
  let signerId ← normalizeNonEmpty signerId "signer_id" 128
  let signerRole ← normalizeNonEmpty signerRole "signer_role" 128
  let hashHex := b.hashHex cr
  let hashRaw ← okOr (hexDecode hashHex) "invalid hex"
  let sig ← falconSignCt cr coins sigSk hashRaw
  let signature : RuntimeTrustSignature :=
    ⟨signerId, signerRole, b64Encode sigPk, b64Encode sig, hashHex, runtimeTrustSigAlg,
      createdAtUnixMs⟩
  pure { b with signatures := replaceOrPush (·.signerId = signerId) signature b.signatures }

def signAdmission (a : EscrowAdmissionArtifact) (signerId signerRole : String)
    (sigSk sigPk : List UInt8) (createdAtUnixMs : Nat) (coins : ρ) :
    Except String EscrowAdmissionArtifact := do
  a.validateUnsigned
  let signerId ← normalizeNonEmpty signerId "signer_id" 128
  let signerRole ← normalizeNonEmpty signerRole "signer_role" 128
  let hashHex := a.hashHex cr.admission
  let hashRaw ← okOr (hexDecode hashHex) "invalid hex"
  let sig ← falconSignCt cr coins sigSk hashRaw
  let signature : EscrowAdmissionSignature :=
    ⟨signerId, signerRole, b64Encode sigPk, b64Encode sig, hashHex,
      Transport.escrowAdmissionSigAlg, createdAtUnixMs⟩
  pure { a with signatures := replaceOrPush (·.signerId = signerId) signature a.signatures }

/-! ## 6. The guards' quorum -/

/-- One signature of the loop, given the ids and roles before it. -/
def checkGuard (peers : List RuntimeTrustPeer) (hash : String) (hashRaw : List UInt8)
    (seen : List (String × String)) (s : RuntimeTrustSignature) :
    Except String (String × String) := do
  validateSignatureMetadata s
  let signerId := trim s.signerId
  let signerRole := trim s.signerRole
  failIf (signerRole ∉ requiredGuardRoles)
    s!"runtime trust signature role '{signerRole}' is not part of AG quorum"
  failIf (signerId ∈ seen.map Prod.fst) s!"duplicate runtime trust signer_id '{signerId}'"
  failIf (signerRole ∈ seen.map Prod.snd) s!"duplicate runtime trust signer_role '{signerRole}'"
  failIf (toAsciiLowercase (trim s.hashHex) ≠ hash) "runtime trust signature hash mismatch"
  let peer ← okOr (peers.find? (·.id == signerId))
    s!"runtime trust signer '{signerId}' not in peers list"
  failIf (peer.role ≠ signerRole)
    (s!"runtime trust signer '{signerId}' role mismatch: signature='{signerRole}' "
      ++ s!"bundle='{peer.role}'")
  failIf (peer.sigPkB64 ≠ s.sigPkB64)
    s!"runtime trust signer '{signerId}' sig_pk mismatch against peers list"
  let sigPk ← decodeB64 s.sigPkB64
  let sig ← decodeB64 s.sigB64
  falconVerify cr sigPk hashRaw sig
  pure (signerId, signerRole)

def checkGuards (peers : List RuntimeTrustPeer) (hash : String) (hashRaw : List UInt8) :
    List (String × String) → List RuntimeTrustSignature → Except String (List (String × String))
  | seen, [] => pure seen
  | seen, s :: rest => do
    let one ← checkGuard cr peers hash hashRaw seen s
    checkGuards peers hash hashRaw (seen ++ [one]) rest

def RuntimeTrustBundle.verifyGuardQuorum (b : RuntimeTrustBundle) : Except String Unit := do
  b.validate
  failIf (b.signatures.length ≠ requiredGuardRoles.length)
    s!"runtime trust bundle requires exactly {requiredGuardRoles.length} guard signatures"
  let hash := b.hashHex cr
  let hashRaw ← okOr (hexDecode hash) "invalid hex"
  let seen ← checkGuards cr b.peers hash hashRaw [] b.signatures
  requiredGuardRoles.forM fun role =>
    failIf (role ∉ seen.map Prod.snd) s!"missing runtime trust signature for guard role '{role}'"

end

/-! ## 7. Looking hosts up -/

/-- An entry of a peer book. -/
structure Peer where
  id : String
  host : String
  port : UInt16
  kemPkB64 : String
  sigPkB64 : String
  deriving DecidableEq

structure PeerBook where
  peers : List Peer
  deriving DecidableEq

def RuntimeTrustPeer.entry (p : RuntimeTrustPeer) : Peer :=
  ⟨p.id, p.host, p.port, p.kemPkB64, p.sigPkB64⟩

def RuntimeTrustBundle.localPeer (b : RuntimeTrustBundle) (localId : String) :
    Except String RuntimeTrustPeer :=
  let localId := trim localId
  okOr (b.peers.find? (·.id == localId))
    s!"local_id '{localId}' not present in runtime trust bundle"

def RuntimeTrustBundle.peerBookFor (b : RuntimeTrustBundle) (localId : String) :
    Except String PeerBook := do
  let localId := trim localId
  let _ ← b.localPeer localId
  let peers := (b.peers.filter (·.id != localId)).map RuntimeTrustPeer.entry
  failIf (peers = [])
    s!"runtime trust bundle has no remote peers after excluding local_id '{localId}'"
  pure ⟨peers⟩

end Nexum.Trust
