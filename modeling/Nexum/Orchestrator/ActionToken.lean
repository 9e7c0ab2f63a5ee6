import Nexum.Orchestrator.Flow
import Nexum.Signer.Support

/-!
# Issuing action tokens

`action-token issue`: the orchestrator states, for a minute or two, that one signer may sign or
submit one transaction set of one escrow. What the token says is put together from what the
operator asked for and from four tables — the workflow, the proposal, the admission and the quorum
proofs — and then signed as a JWT. The signing itself is `encode` here.

A token for submitting quotes two signatures, the arbiter's and the seller's, **both filed under
the very transaction set that is to be submitted**. Everything else about it can be in order and
it is still not issued while one of the two is missing.

What `build_issue_params` checks of the parameters before it hands them over is part of their type.
Where it takes them from — the command line, the environment, the issuer's vault — is left out.
-/

namespace Nexum.Orchestrator.ActionToken

open Nexum.Lib Nexum.Lib.Check

/-! ## 1. What is asked for -/

inductive ActionTokenRole
  | arbiter | seller | buyer
  deriving DecidableEq

def ActionTokenRole.claimValue : ActionTokenRole → String
  | .arbiter => "arbiter"
  | .seller => "seller"
  | .buyer => "buyer"

inductive ActionTokenOp
  | signMultisig | submitMultisig
  deriving DecidableEq

def ActionTokenOp.claimValue : ActionTokenOp → String
  | .signMultisig => "sign_multisig"
  | .submitMultisig => "submit_multisig"

def ActionTokenOp.expectedSignRound : ActionTokenOp → ActionTokenRole → String
  | .signMultisig, .arbiter => "arbiter_first"
  | .signMultisig, .seller => "seller_second"
  | .signMultisig, .buyer => "buyer_second"
  | .submitMultisig, .arbiter => "arbiter_submit"
  | .submitMultisig, .seller => "seller_submit"
  | .submitMultisig, .buyer => "buyer_submit"

def normalizeNonEmpty (value label : String) (maxLen : Nat) : Except String String := do
  let trimmed := trim value
  failIf (trimmed = "") s!"{label} must not be empty"
  failIf (trimmed.utf8ByteSize > maxLen) s!"{label} too long (max {maxLen} chars)"
  pure trimmed

/-- `IssueActionTokenParams`. The issuer's key and algorithm are inside `encode`. -/
structure IssueActionTokenParams where
  escrowIdHex : String
  txsetHashHex : String
  role : ActionTokenRole
  op : ActionTokenOp
  issuer : String
  ttlSecs : Nat
  subject : String
  walletId : String
  sandboxId : String
  audience : String
  nettype : String
  runtimeTrustEpoch : Option String
  escrow_normal : normalizeHexExact escrowIdHex 32 "escrow_id_hex" = .ok escrowIdHex
  hash_normal : normalizeHexExact txsetHashHex 64 "txset_hash_hex" = .ok txsetHashHex
  ttl_bounds : 0 < ttlSecs ∧ ttlSecs ≤ 120
  subject_normal : normalizeNonEmpty subject "subject" 256 = .ok subject

/-! ## 2. The tables -/

structure ProposalBlob where
  escrowIdHex : String
  action : String
  txDataHex : String
  txsetHashHex : String
  deriving DecidableEq

structure EscrowAdmissionArtifactRow where
  escrowIdHex : String
  snapshotHashHex : String
  action : String
  runtimeTrustEpoch : String
  artifactHashHex : String
  deriving DecidableEq

/-- The orchestrator's database, as far as tokens are made of it. Both new tables have one row
    for an escrow. -/
structure ControlDb where
  flows : FlowDb
  proofs : List QuorumSignProof
  proposals : List ProposalBlob
  admissions : List EscrowAdmissionArtifactRow

namespace ControlDb

variable (db : ControlDb)

/-- What quorum proofs are written to and read from. -/
def quorum : OrchestratorDb := ⟨db.flows.state, db.proofs⟩

def getWorkflow (escrowIdHex : String) : Except String (Option WorkflowInstance) := do
  let escrowIdHex ← normalizeHexExact escrowIdHex 32 "escrow_id_hex"
  pure (db.flows.workflow escrowIdHex)

def getProposalBlobByTxsetHash (escrowIdHex txsetHashHex : String) :
    Except String (Option ProposalBlob) := do
  let escrowIdHex ← normalizeHexExact escrowIdHex 32 "escrow_id_hex"
  let txsetHashHex ← normalizeHexExact txsetHashHex 64 "txset_hash_hex"
  pure (db.proposals.find? fun p => p.escrowIdHex = escrowIdHex ∧ p.txsetHashHex = txsetHashHex)

def getEscrowAdmissionArtifact (escrowIdHex : String) :
    Except String (Option EscrowAdmissionArtifactRow) := do
  let escrowIdHex ← normalizeHexExact escrowIdHex 32 "escrow_id_hex"
  pure (db.admissions.find? (·.escrowIdHex = escrowIdHex))

end ControlDb

/-! ## 3. What the token says -/

/-- `ActionTokenClaims`: what the signer checks, and the issuer and the audience, which the token
    library checks for it. -/
structure ActionTokenClaims extends Signer.ActionClaims where
  iss : String
  aud : String
  deriving DecidableEq

structure IssuedActionTokenOutput where
  token : String
  claims : ActionTokenClaims
  deriving DecidableEq

/-- What issuing takes from its surroundings: two readings of the clock and sixteen random
    bytes. -/
structure Moment where
  now : UInt64
  jtiNow : UInt64
  random : List UInt8
  random_length : random.length = 16

def newJti (m : Moment) (role : ActionTokenRole) (op : ActionTokenOp) : String :=
  s!"orch-{m.jtiNow.toNat}-{role.claimValue}-{op.claimValue}-{hexEncode m.random}"

/-- The claims before the admission and the proofs are looked up. -/
def baseClaims (params : IssueActionTokenParams) (m : Moment) (snapshotHash : String) :
    ActionTokenClaims where
  iss := params.issuer
  aud := params.audience
  sub := params.subject
  scope := params.op.claimValue
  op := params.op.claimValue
  role := params.role.claimValue
  signRound := params.op.expectedSignRound params.role
  escrowId := params.escrowIdHex
  walletId := params.walletId
  sandboxId := params.sandboxId
  txsetHash := params.txsetHashHex
  snapshotHash := snapshotHash
  nettype := params.nettype
  runtimeTrustEpoch := params.runtimeTrustEpoch
  escrowAdmissionHash := none
  iat := m.now.toNat
  nbf := m.now.toNat
  exp := (satAdd m.now (.ofNat params.ttlSecs)).toNat
  jti := newJti m params.role params.op
  proofArbiterJti := none
  proofSellerJti := none
  proofArbiterReqId := none
  proofSellerReqId := none

def workflowActionKey (action : String) : Except String String := do
  let value ← normalizeNonEmpty action "proposal.action" 32
  pure (toAsciiLowercase value)

/-- The digest of the escrow's admission, if it has one; a runtime trust epoch asks for it. -/
def admissionHash (db : ControlDb) (params : IssueActionTokenParams) (proposal : ProposalBlob)
    (snapshotHash : String) : Except String (Option String) := do
  match ← db.getEscrowAdmissionArtifact params.escrowIdHex with
  | some admission => do
    failIf (admission.snapshotHashHex ≠ snapshotHash)
      "escrow admission snapshot_hash mismatch against workflow"
    failIf (params.runtimeTrustEpoch.any (admission.runtimeTrustEpoch ≠ ·) = true)
      "escrow admission runtime_trust_epoch mismatch"
    let action ← workflowActionKey proposal.action
    failIf (admission.action ≠ action) "escrow admission action mismatch against proposal"
    let hash ← normalizeHexExact admission.artifactHashHex 64 "escrow_admission_hash"
    pure (some hash)
  | none => do
    failIf (params.runtimeTrustEpoch.isSome = true)
      "missing escrow admission artifact for runtime-trusted action token issuance"
    pure none

def applySubmitProofBundle (claims : ActionTokenClaims)
    (bundle : OrchestratorDb.SubmitMultisigProofBundle) : Except String ActionTokenClaims := do
  failIf (claims.escrowId ≠ bundle.escrowIdHex) "submit proof bundle escrow_id mismatch"
  failIf (claims.txsetHash ≠ bundle.txsetHashHex) "submit proof bundle txset_hash mismatch"
  let arbiterJti ← normalizeNonEmpty bundle.proofArbiterJti "proof_arbiter_jti" 256
  let sellerJti ← normalizeNonEmpty bundle.proofSellerJti "proof_seller_jti" 256
  let arbiterReqId ← normalizeHexExact bundle.proofArbiterReqId 64 "proof_arbiter_req_id"
  let sellerReqId ← normalizeHexExact bundle.proofSellerReqId 64 "proof_seller_req_id"
  pure { claims with
    proofArbiterJti := some arbiterJti
    proofSellerJti := some sellerJti
    proofArbiterReqId := some arbiterReqId
    proofSellerReqId := some sellerReqId }

def buildClaims (db : ControlDb) (params : IssueActionTokenParams) (m : Moment)
    (workflow : WorkflowInstance) (proposal : ProposalBlob) : Except String ActionTokenClaims := do
  let snapshotHash ← normalizeHexExact workflow.snapshotHashHex 64 "snapshot_hash_hex"
  let admission ← admissionHash db params proposal snapshotHash
  let claims := { baseClaims params m snapshotHash with escrowAdmissionHash := admission }
  match params.op with
  | .signMultisig => pure claims
  | .submitMultisig => do
    let bundle ← db.quorum.getSubmitMultisigProofBundle params.escrowIdHex params.txsetHashHex
    applySubmitProofBundle claims bundle

def workflowStateAllowsActionToken : WorkflowState → Bool
  | .funded | .txSignPending | .txSignedQuorum | .submitted => true
  | _ => false

def issueActionToken (encode : ActionTokenClaims → Except String String) (db : ControlDb)
    (params : IssueActionTokenParams) (m : Moment) : Except String IssuedActionTokenOutput := do
  let workflow ← db.getWorkflow params.escrowIdHex
  let workflow ← okOr workflow s!"workflow not found for escrow_id_hex={params.escrowIdHex}"
  failIf (workflowStateAllowsActionToken workflow.state = false)
    s!"workflow state {workflow.state.debug} does not allow action token issuance"
  let proposal ← db.getProposalBlobByTxsetHash params.escrowIdHex params.txsetHashHex
  let proposal ← okOr proposal
    (s!"proposal blob not found for escrow_id_hex={params.escrowIdHex}"
      ++ s!" txset_hash_hex={params.txsetHashHex}")
  failIf (proposal.txsetHashHex ≠ params.txsetHashHex) "proposal txset_hash mismatch"
  let claims ← buildClaims db params m workflow proposal
  let token ← encode claims
  pure ⟨token, claims⟩

/-! ## 4. What a token is issued from -/

/-- Everything about a token is in order, apart from the proofs it quotes. -/
structure Issuable (db : ControlDb) (params : IssueActionTokenParams)
    (workflow : WorkflowInstance) (proposal : ProposalBlob) (snapshotHash : String)
    (admission : Option String) : Prop where
  flow : db.flows.workflow params.escrowIdHex = some workflow
  allows : workflowStateAllowsActionToken workflow.state = true
  blob : db.proposals.find? (fun p => p.escrowIdHex = params.escrowIdHex
    ∧ p.txsetHashHex = params.txsetHashHex) = some proposal
  snapshot : normalizeHexExact workflow.snapshotHashHex 64 "snapshot_hash_hex" = .ok snapshotHash
  admitted : admissionHash db params proposal snapshotHash = .ok admission

section
variable {encode : ActionTokenClaims → Except String String} {db : ControlDb}
  {params : IssueActionTokenParams} {m : Moment} {workflow : WorkflowInstance}
  {proposal : ProposalBlob} {snapshotHash : String} {admission : Option String}

/-- **What a token was issued from**, and what it says. -/
theorem issue_inv {out : IssuedActionTokenOutput}
    (h : issueActionToken encode db params m = .ok out) :
    ∃ workflow proposal snapshotHash admission,
      Issuable db params workflow proposal snapshotHash admission
      ∧ encode out.claims = .ok out.token
      ∧ (out.claims.escrowId = params.escrowIdHex ∧ out.claims.txsetHash = params.txsetHashHex)
      ∧ (params.op = .signMultisig → out.claims = { baseClaims params m snapshotHash with
        escrowAdmissionHash := admission }) := by
  simp only [issueActionToken, ControlDb.getWorkflow, ControlDb.getProposalBlobByTxsetHash,
    params.escrow_normal, params.hash_normal, bind_eq_ok, okOr_eq_ok, failIf_eq_ok, pure_eq_ok,
    exists_unit, Except.ok.injEq, exists_eq_left'] at h
  obtain ⟨workflow, hflow, hallows, proposal, hblob, -, claims, hbuild, token, htoken, rfl⟩ := h
  simp only [buildClaims, bind_eq_ok] at hbuild
  obtain ⟨snapshotHash, hsnapshot, admission, hadmission, hclaims⟩ := hbuild
  refine ⟨workflow, proposal, snapshotHash, admission,
    ⟨hflow, by simpa using hallows, hblob, hsnapshot, hadmission⟩, htoken, ?_, ?_⟩
  · cases hop : params.op with
    | signMultisig =>
      rw [hop] at hclaims
      cases pure_eq_ok.mp hclaims
      exact ⟨rfl, rfl⟩
    | submitMultisig =>
      -- the proofs are added to claims that name the escrow and the set already
      rw [hop] at hclaims
      simp only [applySubmitProofBundle, bind_eq_ok, pure_eq_ok] at hclaims
      obtain ⟨_, -, _, -, _, -, _, -, _, -, _, -, _, -, rfl⟩ := hclaims
      exact ⟨rfl, rfl⟩
  · intro hop
    rw [hop] at hclaims
    exact (pure_eq_ok.mp hclaims).symm

end

end Nexum.Orchestrator.ActionToken
