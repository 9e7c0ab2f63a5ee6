import Nexum.Signer.Calls

/-!
# Signing and submitting

`sign_multisig_flow` and `submit_multisig_flow`, call by call. Both begin the same way: the
escrow's active snapshot is read, the wallet is asked to describe the transaction set, and the
answer is held against the snapshot's policy. With a token verifier configured the token is then
checked and **claims two things in the database before the wallet is touched**: a row for the
request, which a second flow with the same request cannot insert, and the token's id, which can
be consumed once.

After the wallet has signed, the request is marked completed together with its answer, and the
evidence is written: one row for what was asked to be signed and one for what came back. A
request that is already completed is answered from the stored answer.
-/

namespace Nexum.Signer

open Nexum.Lib Nexum.Lib.Prog
open Nexum.Transport

/-! ## 1. Checks on the way in -/

def checkExpectedAdmission (actual : String) (expected : Option String) : Except String Unit :=
  match expected with
  | none => pure ()
  | some expected => do
    let expected ← normalizeHexExact expected 64 "action_token.escrow_admission_hash"
    Check.failIf (actual ≠ expected) "action token escrow_admission_hash mismatch"

/-- The stored artifact of the escrow is verified again; without a trust bundle there is
    nothing to check. -/
def validateStoredEscrowAdmission (agent : SignerAgent) (escrowIdHex snapshotHashHex : String)
    (action : EscrowAction) (expected : Option String) : Flow Unit :=
  match agent.bundle with
  | none => pure ()
  | some _ => do
    let row ← ask (.getEscrowAdmissionArtifact escrowIdHex)
    let row ← okOr row s!"missing escrow admission artifact for escrow {escrowIdHex}"
    let artifact ← ofExcept row.artifactJson.fromStr
    let actual ← ofExcept
      (verifyEscrowAdmissionArtifact agent artifact escrowIdHex snapshotHashHex action)
    failIf (eqIgnoreAsciiCase actual row.artifactHashHex = false)
      "stored escrow admission hash drift detected"
    ofExcept (checkExpectedAdmission actual expected)

/-- The wallet's description of a transaction set; `context` words its failures. -/
def describeTransfer (context txDataHex : String) : Flow TransferCheck := do
  let desc ← performOr (.describeTransfer txDataHex) (context ++ ·)
  let desc ← okOr desc (context ++ "describe_transfer returned no desc")
  ofExcept ((transferCheckFromDesc desc).mapError (context ++ ·))

/-- A request that has passed the policy. -/
structure Job where
  escrowIdHex : String
  action : EscrowAction
  txDataHex : String
  txsetHashHex : String
  snapshotHash : String

/-- The common beginning of the two flows. -/
def prepare (agent : SignerAgent) (during escrowIdHex : String) (action : EscrowAction)
    (txDataHex : String) : Flow Job := do
  let escrowIdHex ← ofExcept (normalizeHexExact escrowIdHex 32 "escrow_id_hex")
  let txDataHex ← ofExcept (validateTxDataHex txDataHex agent.maxTxsetHexLen)
  let txsetHashHex ← ofExcept (txsetSha256Hex agent.crypto txDataHex)
  let active ← ask (.activeSnapshotForEscrow escrowIdHex)
  let active ← okOr active s!"no active snapshot for escrow {escrowIdHex}"
  let snapshot ← ofExcept active.snapshotJson.fromStr
  let snapshotHash := canonicalPolicyHashSha256Hex agent.crypto snapshot
  validateStoredEscrowAdmission agent escrowIdHex snapshotHash action none
  ask .ensureWalletOpen
  let check ← describeTransfer s!"describe_transfer failed during {during}: " txDataHex
  ofExcept (validateTransferAgainstSnapshot snapshot action check)
  pure ⟨escrowIdHex, action, txDataHex, txsetHashHex, snapshotHash⟩

/-! ## 2. Tokens -/

def verifyCommon (agent : SignerAgent) (v : ActionTokenVerifier) (token : String)
    (u : TokenUse) : Flow VerifiedSignToken := do
  let now ← ask .unixNow
  ask (.rateLimitCheck token now)
  let claims ← ofExcept ((agent.crypto.verifyJwt token).mapError ("invalid action token: " ++ ·))
  let now ← ask .unixNow
  ofExcept ((agent.crypto.jwtTimes v.clockSkewSecs now claims).mapError ("invalid action token: " ++ ·))
  ofExcept (checkScope u claims)
  let now ← ask .unixNow
  ofExcept (checkClaims agent.crypto v now u claims)

def verifySignMultisig (agent : SignerAgent) (v : ActionTokenVerifier)
    (token escrowIdHex txsetHashHex snapshotHashHex : String) : Flow VerifiedSignToken :=
  verifyCommon agent v token
    ⟨"sign_multisig", expectedSignRound v.signerRole, escrowIdHex, txsetHashHex, snapshotHashHex⟩

def verifySubmitMultisig (agent : SignerAgent) (v : ActionTokenVerifier)
    (token escrowIdHex txsetHashHex snapshotHashHex : String) : Flow VerifiedSignToken := do
  let verified ← verifyCommon agent v token
    ⟨"submit_multisig", expectedSubmitRound v.signerRole, escrowIdHex, txsetHashHex,
      snapshotHashHex⟩
  ofExcept (checkSubmitProofs agent.crypto escrowIdHex txsetHashHex verified.claims)
  pure verified

/-- The authority a verified token gives over a transaction set. -/
def VerifiedSignToken.authority (t : VerifiedSignToken) (escrowIdHex txsetHashHex : String) :
    Authority :=
  ⟨t.reqId, t.claims, escrowIdHex, txsetHashHex⟩

abbrev consumeJti (a : Authority) (op : String) (exp : Nat) : Call :=
  .consumeActionJti a.jti ⟨a.escrowIdHex, op, a.claims.signRound, a.reqId, exp⟩

/-- Let go of the request and fail. -/
def abortAndFail {α : Type} (reqId e : String) : Flow α := do
  let _ ← tryAsk (.abortSignRequest reqId)
  fail e

/-- Consume the token's id for a request that was just started; let go of it otherwise. -/
def consumeOrAbort (a : Authority) (op : String) (exp : Nat) : Flow Unit := do
  match ← tryAsk (consumeJti a op exp) with
  | .ok () => pure ()
  | .error e => abortAndFail a.reqId e

abbrev startRequest (a : Authority) (op : String) : Call :=
  .startSignRequest a.reqId a.escrowIdHex op a.claims.signRound a.txsetHashHex

/-! ## 3. Answering from a completed request -/

def metadataMatch (row : SignRequestRow) (a : Authority) (op : String) : Bool :=
  row.escrowIdHex = a.escrowIdHex ∧ row.op = op ∧ row.signRound = a.claims.signRound
    ∧ eqIgnoreAsciiCase row.txsetHashHex a.txsetHashHex

def parseCachedSignResult (raw : Json SignRequestCachedResult) :
    Except String SignedMultisigTx := do
  let parsed ← raw.fromStr
  Check.failIf (parsed.op ≠ "sign_multisig")
    s!"cached result op mismatch for sign_multisig: {parsed.op}"
  let txDataHex ← Check.okOr parsed.txDataHex "cached sign result missing tx_data_hex"
  Check.failIf (isBlank txDataHex) "cached sign result has empty tx_data_hex"
  pure ⟨txDataHex, parsed.txHashList⟩

def parseCachedSubmitResult (raw : Json SignRequestCachedResult) :
    Except String (List String) := do
  let parsed ← raw.fromStr
  Check.failIf (parsed.op ≠ "submit_multisig")
    s!"cached result op mismatch for submit_multisig: {parsed.op}"
  pure parsed.txHashList

/-- The request exists already: answer from its stored result if it is completed. The token id
    is consumed all the same. -/
def replay {α : Type} (a : Authority) (op : String) (exp : Nat)
    (parse : Json SignRequestCachedResult → Except String α) : Flow α := do
  let existing ← ask (.getSignRequest a.reqId)
  let existing ← okOr existing s!"duplicate req_id {a.reqId} reported but no request row found"
  failIf (metadataMatch existing a op = false)
    s!"duplicate req_id {a.reqId} has conflicting request metadata"
  failIf (existing.status ≠ .completed) s!"req_id {a.reqId} already in progress"
  ask (consumeJti a op exp)
  let cached ← ask (.getSignRequestResult a.reqId)
  let cached ← okOr cached s!"duplicate req_id {a.reqId} completed but cached result missing"
  ofExcept (parse cached)

/-- Start the request and go on with `fresh`; a request that exists is replayed. -/
def startOrReplay {α : Type} (a : Authority) (op : String) (exp : Nat)
    (parse : Json SignRequestCachedResult → Except String α) (fresh : Flow α) : Flow α := do
  match ← tryAsk (startRequest a op) with
  | .error e => if containsText e "duplicate req_id" then replay a op exp parse else fail e
  | .ok () => fresh

/-! ## 4. Evidence -/

/-- The checks of `store_quorum_sign_proof`: the row as it is handed to the orchestrator. -/
def normalizeForStore (ev : SignEvent) : Except String SignEvent := do
  let escrowIdHex ← normalizeHexExact ev.key.escrowIdHex 32 "escrow_id_hex"
  let role ← Orchestrator.normalizeNonEmpty ev.key.role "role"
  let signRound ← Orchestrator.normalizeNonEmpty ev.key.signRound "sign_round"
  let txsetHashHex ← normalizeHexExact ev.key.txsetHashHex 64 "txset_hash_hex"
  let jti ← Orchestrator.normalizeNonEmpty ev.jti "jti"
  Check.failIf (jti.utf8ByteSize > 256) "jti too long (max 256 chars)"
  let reqId ← normalizeHexExact ev.reqId 64 "req_id"
  pure ⟨⟨escrowIdHex, role, signRound, txsetHashHex⟩, jti, reqId⟩

/-- The call that hands a row to the orchestrator. -/
abbrev quorumProofSet (ev : SignEvent) : Call :=
  .quorumProofSet ev.key.escrowIdHex ev.key.role ev.key.signRound ev.key.txsetHashHex ev.jti
    ev.reqId

/-- `store_quorum_sign_proof`: normalise, then run the orchestrator. -/
def storeQuorumSignProof (ev : SignEvent) : Flow Unit := do
  let row ← ofExcept (normalizeForStore ev)
  ask (quorumProofSet row)

/-- A failure to store counts only where storing is required. -/
def maybeStoreQuorumSignProof (agent : SignerAgent) (ev : SignEvent) : Flow Unit :=
  if agent.proofStore = false then pure ()
  else do
    match ← (storeQuorumSignProof ev).reify with
    | .ok () => pure ()
    | .error e => failIf (agent.proofStoreRequired = true) e

/-- The row for what was asked to be signed. -/
def requestedEvent (a : Authority) : SignEvent :=
  ⟨a.key, a.jti, a.reqId⟩

/-- The row for what the wallet returned: the same key and token under the hash of the result,
    with the request id that names it. -/
def artifactEvent (cr : Crypto) (a : Authority) (signedHash : String) : SignEvent :=
  ⟨{ a.key with txsetHashHex := signedHash }, a.jti,
    signReqId cr a.escrowIdHex "sign_multisig" a.claims.signRound signedHash⟩

/-- Both rows, each followed by `store`. -/
def recordEvidence (agent : SignerAgent) (store : SignEvent → Flow Unit) (a : Authority)
    (signed : SignedMultisigTx) : Flow Unit := do
  ask (.recordSignEvent (requestedEvent a))
  store (requestedEvent a)
  let signedHash ← ofExcept (txsetSha256Hex agent.crypto signed.txDataHex)
  ask (.recordSignEvent (artifactEvent agent.crypto a signedHash))
  store (artifactEvent agent.crypto a signedHash)

/-! ## 5. The wallet -/

def signCachedResult (signed : SignedMultisigTx) : SignRequestCachedResult :=
  ⟨"sign_multisig", some signed.txDataHex, signed.txHashList⟩

def submitCachedResult (txHashList : List String) : SignRequestCachedResult :=
  ⟨"submit_multisig", none, txHashList⟩

/-- Use the wallet on behalf of `a` and complete the request with the answer. -/
def walletSign (a : Authority) (txDataHex : String) : Flow SignedMultisigTx := do
  match ← tryAsk (.signMultisig (some a) txDataHex) with
  | .error e => abortAndFail a.reqId e
  | .ok signed => do
    ask (.completeSignRequestWithResult a.reqId "sign_multisig" (signCachedResult signed))
    pure signed

def walletSubmit (a : Authority) (txDataHex : String) : Flow (List String) := do
  match ← tryAsk (.submitMultisig (some a) txDataHex) with
  | .error e => abortAndFail a.reqId e
  | .ok txHashList => do
    ask (.completeSignRequestWithResult a.reqId "submit_multisig"
      (submitCachedResult txHashList))
    pure txHashList

/-! ## 6. The flows -/

/-- The part of the signing flow that holds the request. -/
def signFresh (agent : SignerAgent) (a : Authority) (exp : Nat) (txDataHex : String) :
    Flow SignedMultisigTx := do
  consumeOrAbort a "sign_multisig" exp
  let signed ← walletSign a txDataHex
  recordEvidence agent (maybeStoreQuorumSignProof agent) a signed
  pure signed

def signMultisigFlow (agent : SignerAgent) (escrowIdHex : String) (action : EscrowAction)
    (txDataHex : String) (token : Option String) : Flow SignedMultisigTx := do
  let job ← prepare agent "sign" escrowIdHex action txDataHex
  match agent.verifier with
  | none => ask (.signMultisig none job.txDataHex)
  | some v => do
    let token ← okOr token "action token required for sign in current signer configuration"
    let t ← verifySignMultisig agent v token job.escrowIdHex job.txsetHashHex job.snapshotHash
    validateStoredEscrowAdmission agent job.escrowIdHex job.snapshotHash job.action
      t.claims.escrowAdmissionHash
    let a := t.authority job.escrowIdHex job.txsetHashHex
    startOrReplay a "sign_multisig" t.claims.exp parseCachedSignResult
      (signFresh agent a t.claims.exp job.txDataHex)

def resolveSubmitVerifyMode (productionHardening verifyEnabled : Bool) : Except String Bool := do
  Check.failIf (verifyEnabled = false ∧ productionHardening = true)
    "production_hardening=true requires NXMS_SIGNER_ORCH_QUORUM_PROOF_VERIFY=true"
  pure verifyEnabled

def fetchSubmitMultisigProofBundle (escrowIdHex txsetHashHex : String) :
    Flow Orchestrator.OrchestratorDb.SubmitMultisigProofBundle := do
  let escrowIdHex ← ofExcept (normalizeHexExact escrowIdHex 32 "escrow_id_hex")
  let txsetHashHex ← ofExcept (normalizeHexExact txsetHashHex 64 "txset_hash_hex")
  let bundle ← ask (.submitBundle escrowIdHex txsetHashHex)
  failIf (bundle.escrowIdHex ≠ escrowIdHex ∨ bundle.txsetHashHex ≠ txsetHashHex)
    "orchestrator quorum-proof submit-bundle mismatch for escrow/hash"
  pure bundle

def verifySubmitSellerQuorumProof (agent : SignerAgent)
    (escrowIdHex txsetHashHex sellerJti sellerReqId : String) : Flow Unit := do
  let verifyEnabled ← ofExcept (resolveSubmitVerifyMode agent.productionHardening agent.proofVerify)
  if verifyEnabled = false then pure ()
  else do
    let bundle ← fetchSubmitMultisigProofBundle escrowIdHex txsetHashHex
    failIf (bundle.proofSellerJti ≠ sellerJti ∨ bundle.proofSellerReqId ≠ sellerReqId)
      "submit denied: orchestrator seller quorum proof mismatch (token vs orchestrator)"

/-- The key of the arbiter's signature on a transaction set. -/
def arbiterKey (escrowIdHex txsetHashHex : String) : Orchestrator.ProofKey :=
  ⟨escrowIdHex, "arbiter", "arbiter_first", txsetHashHex⟩

/-- The seller's proof of the token against the orchestrator. Every failure lets go of the
    request. The source reads the seller's token id twice, with the same outcome. -/
def checkSellerProof (agent : SignerAgent) (a : Authority) (claims : ActionClaims) : Flow Unit := do
  match trimmedNonEmpty claims.proofSellerJti, trimmedNonEmpty claims.proofSellerReqId with
  | none, _ =>
    abortAndFail a.reqId "submit denied: missing seller quorum proof in action token"
  | some _, none =>
    abortAndFail a.reqId "submit denied: missing seller req_id quorum proof in action token"
  | some sellerJti, some sellerReqId => do
    match ← (verifySubmitSellerQuorumProof agent a.escrowIdHex a.txsetHashHex sellerJti
        sellerReqId).reify with
    | .ok () => pure ()
    | .error e => abortAndFail a.reqId e

/-- The token's arbiter proof against the signer's own evidence. A database error and a proof
    missing from the token leave the request in progress. -/
def checkLocalProof (a : Authority) (claims : ActionClaims) : Flow Unit := do
  match ← ask (.getSignEvent (arbiterKey a.escrowIdHex a.txsetHashHex)) with
  | none =>
    abortAndFail a.reqId "submit denied: missing local quorum proof event arbiter_first"
  | some proof => do
    let jti ← okOr (trimmedNonEmpty claims.proofArbiterJti)
      "submit denied: missing proof_arbiter_jti"
    let reqId ← okOr (trimmedNonEmpty claims.proofArbiterReqId)
      "submit denied: missing proof_arbiter_req_id"
    if proof.jti ≠ jti ∨ proof.reqId ≠ reqId then
      abortAndFail a.reqId
        "submit denied: local arbiter quorum proof mismatch (token vs signer db)"
    else pure ()

/-- The part of the submit flow that holds the request. -/
def submitFresh (agent : SignerAgent) (a : Authority) (claims : ActionClaims)
    (txDataHex : String) : Flow (List String) := do
  consumeOrAbort a "submit_multisig" claims.exp
  checkLocalProof a claims
  checkSellerProof agent a claims
  walletSubmit a txDataHex

def submitMultisigFlow (agent : SignerAgent) (escrowIdHex : String) (action : EscrowAction)
    (txDataHex : String) (token : Option String) : Flow (List String) := do
  let job ← prepare agent "submit" escrowIdHex action txDataHex
  match agent.verifier with
  | none => ask (.submitMultisig none job.txDataHex)
  | some v => do
    let token ← okOr token "action token required for submit in current signer configuration"
    let t ← verifySubmitMultisig agent v token job.escrowIdHex job.txsetHashHex job.snapshotHash
    validateStoredEscrowAdmission agent job.escrowIdHex job.snapshotHash job.action
      t.claims.escrowAdmissionHash
    let a := t.authority job.escrowIdHex job.txsetHashHex
    startOrReplay a "submit_multisig" t.claims.exp parseCachedSubmitResult
      (submitFresh agent a t.claims job.txDataHex)

end Nexum.Signer
