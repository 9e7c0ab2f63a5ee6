import Nexum.Lib.Check
import Nexum.Lib.Text

/-!
# Escrow admission artifacts

Where a signer runs under a runtime trust bundle, an escrow only gets signatures once the two
guards of that bundle have admitted it: an artifact naming the escrow, the snapshot and the
action, signed by both. `verify_against_bundle` is the check. Base64, the Falcon signature
scheme, SHA-256 and the canonical JSON of an artifact are parameters.
-/

namespace Nexum.Transport

open Nexum.Lib Nexum.Lib.Check

/-- What a transfer out of the escrow is for. -/
inductive EscrowAction
  | release | refund
  deriving DecidableEq

structure EscrowAdmissionSignature where
  signerId : String
  signerRole : String
  sigPkB64 : String
  sigB64 : String
  hashHex : String
  alg : String
  createdAtUnixMs : Nat
  deriving DecidableEq

structure EscrowAdmissionArtifact where
  schema : String
  escrowIdHex : String
  snapshotHashHex : String
  action : EscrowAction
  runtimeTrustEpoch : String
  admittedAtUnixMs : Nat
  signatures : List EscrowAdmissionSignature
  deriving DecidableEq

structure RuntimeTrustPeer where
  id : String
  role : String
  sigPkB64 : String
  deriving DecidableEq

/-- The part of a runtime trust bundle that admission reads. -/
structure RuntimeTrustBundle where
  trustEpoch : String
  peers : List RuntimeTrustPeer
  deriving DecidableEq

/-- The third-party functions admission rests on. `admissionJson` renders the canonical JSON of
    an artifact without its signatures. -/
structure AdmissionCrypto where
  sha256Hex : List UInt8 → String
  b64Decode : String → Except String (List UInt8)
  falconVerify : List UInt8 → List UInt8 → List UInt8 → Except String Unit
  admissionJson : EscrowAdmissionArtifact → List UInt8

def escrowAdmissionSchemaV1 : String := "nxms-escrow-admission/v1"
def escrowAdmissionSigAlg : String := "Falcon-1024-CT"
def requiredGuardRoles : List String := ["ag-01", "ag-02"]

def normalizeNonEmpty (value field : String) (maxLen : Nat) : Except String String :=
  let trimmed := trim value
  if trimmed = "" ∨ trimmed.utf8ByteSize > maxLen then
    .error s!"{field} must be 1..={maxLen} chars"
  else .ok trimmed

def validateHexExact (value : String) (len : Nat) (field : String) : Except String Unit :=
  let trimmed := trim value
  failIf (trimmed.utf8ByteSize ≠ len ∨ ¬ (chars trimmed).all isAsciiHexdigit)
    s!"{field} must be exactly {len} hex chars"

namespace EscrowAdmissionArtifact

def validateUnsigned (a : EscrowAdmissionArtifact) : Except String Unit := do
  failIf (trim a.schema ≠ escrowAdmissionSchemaV1)
    s!"escrow admission schema mismatch: expected '{escrowAdmissionSchemaV1}' got '{a.schema}'"
  validateHexExact a.escrowIdHex 32 "escrow_id_hex"
  validateHexExact a.snapshotHashHex 64 "snapshot_hash_hex"
  let epoch := trim a.runtimeTrustEpoch
  failIf (epoch = "" ∨ epoch.utf8ByteSize > 128) "runtime_trust_epoch must be 1..=128 chars"

def hashHex (cr : AdmissionCrypto) (a : EscrowAdmissionArtifact) : String :=
  cr.sha256Hex (cr.admissionJson a)

/-- One signature of the loop, given the ids and roles seen before it. -/
def checkSignature (cr : AdmissionCrypto) (bundle : RuntimeTrustBundle) (hash : String)
    (hashRaw : List UInt8) (seen : List (String × String)) (s : EscrowAdmissionSignature) :
    Except String (String × String) := do
  let signerId ← normalizeNonEmpty s.signerId "signature.signer_id" 128
  let signerRole ← normalizeNonEmpty s.signerRole "signature.signer_role" 128
  failIf (signerRole ∉ requiredGuardRoles)
    s!"escrow admission signature role '{signerRole}' is not part of AG quorum"
  failIf (signerId ∈ seen.map Prod.fst) s!"duplicate escrow admission signer_id '{signerId}'"
  failIf (signerRole ∈ seen.map Prod.snd)
    s!"duplicate escrow admission signer_role '{signerRole}'"
  failIf (trim s.alg ≠ escrowAdmissionSigAlg)
    s!"unsupported escrow admission signature algorithm '{s.alg}'"
  failIf (toAsciiLowercase (trim s.hashHex) ≠ hash) "escrow admission signature hash mismatch"
  let peer ← okOr (bundle.peers.find? (·.id == signerId))
    s!"escrow admission signer '{signerId}' not in runtime trust bundle"
  failIf (peer.role ≠ signerRole)
    (s!"escrow admission signer '{signerId}' role mismatch: artifact='{signerRole}' "
      ++ s!"bundle='{peer.role}'")
  failIf (peer.sigPkB64 ≠ s.sigPkB64)
    s!"escrow admission signer '{signerId}' sig_pk mismatch against runtime trust bundle"
  let sigPk ← cr.b64Decode s.sigPkB64
  let sig ← cr.b64Decode s.sigB64
  cr.falconVerify sigPk hashRaw sig
  pure (signerId, signerRole)

/-- The loop over the signatures; the result is the roles that signed. -/
def checkSignatures (cr : AdmissionCrypto) (bundle : RuntimeTrustBundle) (hash : String)
    (hashRaw : List UInt8) : List (String × String) → List EscrowAdmissionSignature →
    Except String (List (String × String))
  | seen, [] => pure seen
  | seen, s :: rest => do
    let one ← checkSignature cr bundle hash hashRaw seen s
    checkSignatures cr bundle hash hashRaw (seen ++ [one]) rest

def verifyAgainstBundle (cr : AdmissionCrypto) (a : EscrowAdmissionArtifact)
    (bundle : RuntimeTrustBundle) : Except String Unit := do
  a.validateUnsigned
  failIf (trim a.runtimeTrustEpoch ≠ trim bundle.trustEpoch)
    "escrow admission runtime_trust_epoch mismatch"
  let hash := a.hashHex cr
  -- a digest printed in hex always decodes; the source has no text of its own here
  let hashRaw ← okOr (hexDecode hash) "invalid hex"
  failIf (a.signatures.length ≠ requiredGuardRoles.length)
    s!"escrow admission requires exactly {requiredGuardRoles.length} guard signatures"
  let seen ← checkSignatures cr bundle hash hashRaw [] a.signatures
  requiredGuardRoles.forM fun role =>
    failIf (role ∉ seen.map Prod.snd)
      s!"missing escrow admission signature for guard role '{role}'"

end EscrowAdmissionArtifact

end Nexum.Transport
