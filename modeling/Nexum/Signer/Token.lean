import Nexum.Signer.Support

/-!
# Action tokens

Every sign and submit call carries a token that names what it is for: the operation, the role
and round, the escrow, the transaction set and the policy it was approved under. The checks here
are everything `verify_common` and `verify_submit_multisig` do once the token's signature has
been verified and the clock has been read. Times are seconds; the source's 64-bit words saturate
where a natural number would grow past them, which no comparison below can tell apart.
-/

namespace Nexum.Signer

open Nexum.Lib Nexum.Lib.Check

structure VerifiedSignToken where
  claims : ActionClaims
  reqId : String
  deriving DecidableEq

def normalizeHex64 (value label : String) : Except String String :=
  normalizeHex value 64 s!"{label} must be 64 hex chars"

/-! ## 1. One token against one request -/

/-- What the caller is about to do: the operation and round the signer expects, and the request
    at hand. -/
structure TokenUse where
  op : String
  signRound : String
  escrowIdHex : String
  txsetHashHex : String
  snapshotHashHex : String
  deriving DecidableEq

def checkClaimTimes (v : ActionTokenVerifier) (now : Nat) (claims : ActionClaims) :
    Except String Unit := do
  failIf (claims.iat > now + v.clockSkewSecs) "action token iat is in the future"
  failIf (claims.exp < claims.iat) "action token exp is before iat"
  failIf (claims.exp < claims.nbf) "action token exp is before nbf"
  failIf (claims.exp - claims.iat = 0 ∨ claims.exp - claims.iat > v.maxTtlSecs
      ∨ claims.exp - claims.nbf = 0 ∨ claims.exp - claims.nbf > v.maxTtlSecs)
    s!"action token ttl exceeds max_ttl_secs (max={v.maxTtlSecs}s)"

/-- Under a runtime trust epoch the token must name it, and an admission. -/
def checkTrustEpoch (v : ActionTokenVerifier) (claims : ActionClaims) : Except String Unit :=
  match v.runtimeTrustEpoch with
  | none => pure ()
  | some expectedEpoch => do
    let claimEpoch ← okOr (trimmedNonEmpty claims.runtimeTrustEpoch)
      "action token runtime_trust_epoch missing"
    failIf (claimEpoch ≠ expectedEpoch) "action token runtime_trust_epoch mismatch"
    let admissionHash ← okOr (trimmedNonEmpty claims.escrowAdmissionHash)
      "action token escrow_admission_hash missing"
    let _ ← normalizeHex64 admissionHash "claims.escrow_admission_hash"
    pure ()

def checkWho (v : ActionTokenVerifier) (u : TokenUse) (claims : ActionClaims) :
    Except String Unit := do
  failIf (isBlank claims.sub ∨ claims.sub.utf8ByteSize > 128) "action token sub invalid"
  failIf (claims.role ≠ roleKey v.signerRole)
    s!"action token role mismatch: claim={claims.role} expected={roleKey v.signerRole}"
  failIf (claims.signRound ≠ u.signRound)
    s!"action token sign_round mismatch: claim={claims.signRound} expected={u.signRound}"
  failIf (claims.escrowId ≠ u.escrowIdHex) "action token escrow_id mismatch"
  failIf (claims.sandboxId ≠ v.sandboxId) "action token sandbox_id mismatch"
  failIf (claims.walletId ≠ v.walletId) "action token wallet_id mismatch"
  failIf (toAsciiLowercase (trim claims.nettype) ≠ v.nettype) "action token nettype mismatch"

/-- The two digests; the result is the transaction set's, normalised. -/
def checkDigests (u : TokenUse) (claims : ActionClaims) : Except String String := do
  let txsetHashClaim ← normalizeHex64 claims.txsetHash "claims.txset_hash"
  let txsetHashExpected ← normalizeHex64 u.txsetHashHex "txset_hash_hex"
  failIf (txsetHashClaim ≠ txsetHashExpected) "action token txset_hash mismatch"
  let snapshotHashClaim ← normalizeHex64 claims.snapshotHash "claims.snapshot_hash"
  let snapshotHashExpected ← normalizeHex64 u.snapshotHashHex "snapshot_hash_hex"
  failIf (snapshotHashClaim ≠ snapshotHashExpected) "action token snapshot_hash mismatch"
  pure txsetHashExpected

def checkScope (u : TokenUse) (claims : ActionClaims) : Except String Unit :=
  failIf (claims.scope ≠ u.op ∨ claims.op ≠ u.op)
    s!"action token scope/op mismatch; expected {u.op}/{u.op}"

/-- `verify_common` from the second reading of the clock on. -/
def checkClaims (cr : Crypto) (v : ActionTokenVerifier) (now : Nat) (u : TokenUse)
    (claims : ActionClaims) : Except String VerifiedSignToken := do
  checkClaimTimes v now claims
  checkWho v u claims
  checkTrustEpoch v claims
  failIf (isBlank claims.jti ∨ claims.jti.utf8ByteSize > 256) "action token jti invalid"
  let txsetHash ← checkDigests u claims
  pure ⟨claims, signReqId cr u.escrowIdHex u.op claims.signRound txsetHash⟩

/-! ## 2. The quorum proofs of a submit token -/

/-- What `verify_submit_multisig` adds: the token quotes one signature of the arbiter and one of
    the seller, by token id and request id, on this very transaction set. -/
def checkSubmitProofs (cr : Crypto) (escrowIdHex txsetHashHex : String) (claims : ActionClaims) :
    Except String Unit := do
  let proofArbiter ← okOr (trimmedNonEmpty claims.proofArbiterJti)
    "submit token missing proof_arbiter_jti"
  let proofSeller ← okOr (trimmedNonEmpty claims.proofSellerJti)
    "submit token missing proof_seller_jti"
  let proofArbiterReq ← okOr (trimmedNonEmpty claims.proofArbiterReqId)
    "submit token missing proof_arbiter_req_id"
  let proofSellerReq ← okOr (trimmedNonEmpty claims.proofSellerReqId)
    "submit token missing proof_seller_req_id"
  failIf (proofArbiter = proofSeller) "submit token quorum proof jti values must differ"
  failIf (proofArbiter.utf8ByteSize > 256 ∨ proofSeller.utf8ByteSize > 256)
    "submit token quorum proof jti too long (max 256 chars)"
  failIf (proofArbiterReq = proofSellerReq) "submit token quorum proof req_id values must differ"
  let proofArbiterReq ← normalizeHex64 proofArbiterReq "claims.proof_arbiter_req_id"
  let proofSellerReq ← normalizeHex64 proofSellerReq "claims.proof_seller_req_id"
  let txsetHash ← normalizeHex64 txsetHashHex "txset_hash_hex"
  failIf (proofArbiterReq ≠ signReqId cr escrowIdHex "sign_multisig" "arbiter_first" txsetHash)
    "submit token proof_arbiter_req_id does not match expected arbiter sign req_id"
  failIf (proofSellerReq ≠ signReqId cr escrowIdHex "sign_multisig" "seller_second" txsetHash)
    "submit token proof_seller_req_id does not match expected seller sign req_id"

/-! ## 3. What an accepted token says -/

/-- **An accepted token is about the request at hand**: it names the signer's role and the
    expected round, and its request id is the name of that request. -/
theorem checkClaims_ok {cr : Crypto} {v : ActionTokenVerifier} {now : Nat} {u : TokenUse}
    {claims : ActionClaims} {t : VerifiedSignToken} (h : checkClaims cr v now u claims = .ok t) :
    t.claims = claims ∧ claims.role = roleKey v.signerRole ∧ claims.signRound = u.signRound
      ∧ claims.escrowId = u.escrowIdHex ∧ isBlank claims.jti = false
      ∧ ∃ hash, normalizeHex64 u.txsetHashHex "txset_hash_hex" = .ok hash
        ∧ t.reqId = signReqId cr u.escrowIdHex u.op u.signRound hash := by
  simp only [checkClaims, checkWho, checkDigests, bind_eq_ok, failIf_eq_ok, pure_eq_ok,
    exists_unit] at h
  obtain ⟨-, ⟨-, hrole, hround, hescrow, -⟩, -, hjti, hash, ⟨-, -, hash', hnorm, -, -, -, -, -, -,
    rfl⟩, rfl⟩ := h
  have hround' : claims.signRound = u.signRound := not_not.mp hround
  refine ⟨rfl, not_not.mp hrole, hround', not_not.mp hescrow, ?_, hash', hnorm, ?_⟩
  · rw [not_or] at hjti
    exact Bool.eq_false_iff.mpr hjti.1
  · rw [← hround']

end Nexum.Signer
