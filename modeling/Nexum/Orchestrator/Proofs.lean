import Nexum.Lib.Hex

/-!
# The orchestrator's quorum proofs

The orchestrator keeps, for every `(escrow, role, round, transaction set)`, the token id and the
request id a signature was made under. Signers write rows through the command line
(`quorum-proof set`), the issuer of submit tokens reads a pair of them back
(`quorum-proof submit-bundle`).

A row is written with `ON CONFLICT … DO UPDATE`: **the last writer of a key wins.** The request
id is unique over the whole table, so a write can also be refused by a row under another key.
-/

namespace Nexum.Orchestrator

open Nexum.Lib Nexum.Lib.Check

/-! ## 1. Tables -/

inductive WorkflowState
  | new | prepareCollected | makeCollected | exchangeR1Collected | exchangeR2Collected
  | finalizedReady | funded | txSignPending | txSignedQuorum | submitted | confirmed
  | failedDeadLetter
  deriving DecidableEq

/-- The `Debug` rendering, which error texts use. -/
def WorkflowState.debug : WorkflowState → String
  | .new => "New"
  | .prepareCollected => "PrepareCollected"
  | .makeCollected => "MakeCollected"
  | .exchangeR1Collected => "ExchangeR1Collected"
  | .exchangeR2Collected => "ExchangeR2Collected"
  | .finalizedReady => "FinalizedReady"
  | .funded => "Funded"
  | .txSignPending => "TxSignPending"
  | .txSignedQuorum => "TxSignedQuorum"
  | .submitted => "Submitted"
  | .confirmed => "Confirmed"
  | .failedDeadLetter => "FailedDeadLetter"

/-- What identifies a signature: PRIMARY KEY here, the first UNIQUE of the signer's table. -/
structure ProofKey where
  escrowIdHex : String
  role : String
  signRound : String
  txsetHashHex : String
  deriving DecidableEq

structure QuorumSignProof where
  key : ProofKey
  jti : String
  reqId : String
  deriving DecidableEq

structure OrchestratorDb where
  workflows : String → Option WorkflowState
  proofs : List QuorumSignProof

/-! ## 2. Normalisation -/

def normalizeHexExact (value : String) (len : Nat) (label : String) : Except String String :=
  normalizeHex value len s!"{label} must be {len} hex chars"

def normalizeNonEmpty (value label : String) : Except String String := do
  let trimmed := trim value
  failIf (trimmed = "") s!"{label} must not be empty"
  pure trimmed

def normalizeWorkerRole (value : String) : Except String String := do
  let role := toAsciiLowercase (trim value)
  failIf (role ≠ "buyer" ∧ role ≠ "seller" ∧ role ≠ "arbiter")
    "role must be one of: buyer|seller|arbiter"
  pure role

/-- The one signing round of each role. -/
def quorumRound : String → Option String
  | "arbiter" => some "arbiter_first"
  | "seller" => some "seller_second"
  | "buyer" => some "buyer_second"
  | _ => none

def normalizeQuorumSignRoundForRole (role signRound : String) : Except String String := do
  let signRound := toAsciiLowercase (trim signRound)
  failIf (signRound = "") "sign_round must not be empty"
  let expected ← okOr (quorumRound role) "role must be one of: buyer|seller|arbiter"
  failIf (signRound ≠ expected)
    s!"sign_round '{signRound}' does not match role '{role}' (expected '{expected}')"
  pure signRound

def normalizeJti (value label : String) : Except String String := do
  let v ← normalizeNonEmpty value label
  failIf (v.utf8ByteSize > 256) s!"{label} too long (max 256 chars)"
  pure v

theorem normalizeNonEmpty_eq_ok {value label s : String} :
    normalizeNonEmpty value label = .ok s ↔ trim value ≠ "" ∧ trim value = s := by
  simp only [normalizeNonEmpty, bind_eq_ok, failIf_eq_ok, exists_unit, pure_eq_ok, ne_eq]

theorem normalizeJti_eq_ok {value label s : String} :
    normalizeJti value label = .ok s
      ↔ trim value ≠ "" ∧ (trim value).utf8ByteSize ≤ 256 ∧ trim value = s := by
  simp only [normalizeJti, normalizeNonEmpty_eq_ok, bind_eq_ok, failIf_eq_ok, exists_unit,
    pure_eq_ok, gt_iff_lt, Nat.not_lt, and_assoc, exists_and_left, exists_eq_left']

def workflowAllowsQuorumProofState : WorkflowState → Bool
  | .funded | .txSignPending | .txSignedQuorum | .submitted => true
  | _ => false

/-! ## 3. Writing and reading proofs -/

namespace OrchestratorDb

def get (db : OrchestratorDb) (key : ProofKey) : Option QuorumSignProof :=
  db.proofs.find? (·.key = key)

/-- The row goes in place of the one with its key, or at the end. -/
def put (db : OrchestratorDb) (row : QuorumSignProof) : OrchestratorDb :=
  { db with proofs := db.proofs.filter (·.key ≠ row.key) ++ [row] }

theorem mem_put {db : OrchestratorDb} {row : QuorumSignProof} (new : QuorumSignProof)
    (h : row ∈ db.proofs) : ∃ row' ∈ (db.put new).proofs, row'.key = row.key := by
  by_cases hkey : row.key = new.key
  · exact ⟨new, List.mem_append_right _ (List.mem_singleton.mpr rfl), hkey.symm⟩
  · refine ⟨row, List.mem_append_left _ (List.mem_filter.mpr ⟨h, ?_⟩), rfl⟩
    simpa using hkey

theorem get_put (db : OrchestratorDb) (row : QuorumSignProof) (key : ProofKey) :
    (db.put row).get key = if key = row.key then some row else db.get key := by
  unfold get put
  rw [List.find?_append]
  by_cases hkey : key = row.key
  · have hnone : (db.proofs.filter (·.key ≠ row.key)).find? (·.key = key) = none := by
      refine List.find?_eq_none.mpr fun r hr => ?_
      simpa [hkey] using (List.mem_filter.mp hr).2
    rw [hnone, if_pos hkey]
    simp [hkey]
  · have hsame : (db.proofs.filter (·.key ≠ row.key)).find? (·.key = key)
        = db.proofs.find? (·.key = key) := by
      rw [List.find?_filter]
      congr 1
      funext r
      by_cases hr : r.key = key
      · simp [hr, hkey]
      · simp [hr]
    have hrow : ¬ row.key = key := fun h => hkey h.symm
    rw [hsame, if_neg hkey]
    simp [hrow]

@[simp] theorem foldl_put_workflows (rows : List QuorumSignProof) (db : OrchestratorDb) :
    (rows.foldl put db).workflows = db.workflows := by
  induction rows generalizing db with
  | nil => rfl
  | cons row rows ih => exact ih (db.put row)

theorem get_foldl_put {rows : List QuorumSignProof} {p : QuorumSignProof} {db : OrchestratorDb}
    (hsame : ∀ q ∈ rows, q.key = p.key → q = p) (h : p ∈ rows ∨ db.get p.key = some p) :
    (rows.foldl put db).get p.key = some p := by
  induction rows generalizing db with
  | nil => exact h.resolve_left (by simp)
  | cons row rows ih =>
    refine ih (fun q hq => hsame q (List.mem_cons_of_mem _ hq)) ?_
    rw [get_put]
    by_cases hkey : p.key = row.key
    · refine .inr ?_
      rw [if_pos hkey, hsame row List.mem_cons_self hkey.symm]
    · rw [if_neg hkey]
      refine h.imp_left fun hmem => (List.mem_cons.mp hmem).resolve_left ?_
      rintro rfl
      exact hkey rfl

/-- **Putting rows changes nothing exactly if they are there already.** -/
theorem foldl_put_eq_iff {rows : List QuorumSignProof} {db : OrchestratorDb}
    (hsame : ∀ p ∈ rows, ∀ q ∈ rows, q.key = p.key → q = p) :
    (∀ key, (rows.foldl put db).get key = db.get key) ↔ ∀ p ∈ rows, db.get p.key = some p := by
  constructor
  · intro h p hp
    rw [← h, get_foldl_put (hsame p hp) (.inl hp)]
  · intro h key
    clear hsame
    induction rows generalizing db with
    | nil => rfl
    | cons row rows ih =>
      have hput : ∀ key, (db.put row).get key = db.get key := by
        intro key
        rw [get_put]
        split
        · rename_i hkey
          rw [hkey, h row List.mem_cons_self]
        · rfl
      rw [List.foldl_cons, ih fun p hp => ?_, hput]
      rw [hput, h p (List.mem_cons_of_mem _ hp)]

/-- The checks of `upsert_quorum_sign_proof` before the write: the row as it will be stored. -/
def normalizeProof (escrowIdHex role signRound txsetHashHex jti reqId : String) :
    Except String QuorumSignProof := do
  let escrowIdHex ← normalizeHexExact escrowIdHex 32 "escrow_id_hex"
  let role ← normalizeWorkerRole role
  let signRound ← normalizeQuorumSignRoundForRole role signRound
  let txsetHashHex ← normalizeHexExact txsetHashHex 64 "txset_hash_hex"
  let jti ← normalizeJti jti "jti"
  let reqId ← normalizeHexExact reqId 64 "req_id"
  pure ⟨⟨escrowIdHex, role, signRound, txsetHashHex⟩, jti, reqId⟩

/-- The workflow must exist and be in a state that takes proofs. -/
def checkWorkflow (db : OrchestratorDb) (escrowIdHex refusal : String) : Except String Unit := do
  let state ← okOr (db.workflows escrowIdHex)
    s!"workflow not found for escrow_id_hex={escrowIdHex}"
  failIf (workflowAllowsQuorumProofState state = false)
    s!"workflow state {state.debug} does not allow {refusal}"

/-- Some other key already holds this request id. -/
def ReqIdTaken (db : OrchestratorDb) (row : QuorumSignProof) : Prop :=
  ∃ other ∈ db.proofs, other.reqId = row.reqId ∧ other.key ≠ row.key

instance (db : OrchestratorDb) (row : QuorumSignProof) : Decidable (db.ReqIdTaken row) :=
  inferInstanceAs (Decidable (∃ other ∈ db.proofs, _))

/-- `upsert_quorum_sign_proof` up to the write. -/
def checkProof (db : OrchestratorDb)
    (escrowIdHex role signRound txsetHashHex jti reqId : String) :
    Except String QuorumSignProof := do
  let row ← normalizeProof escrowIdHex role signRound txsetHashHex jti reqId
  db.checkWorkflow row.key.escrowIdHex "quorum proof storage"
  failIf (db.ReqIdTaken row) "UNIQUE constraint failed: quorum_sign_proofs.req_id"
  pure row

/-- Either the row is stored or nothing changes. -/
def upsertQuorumSignProof (db : OrchestratorDb)
    (escrowIdHex role signRound txsetHashHex jti reqId : String) :
    Except String Unit × OrchestratorDb :=
  match db.checkProof escrowIdHex role signRound txsetHashHex jti reqId with
  | .ok row => (.ok (), db.put row)
  | .error e => (.error e, db)

structure SubmitMultisigProofBundle where
  escrowIdHex : String
  txsetHashHex : String
  proofArbiterJti : String
  proofArbiterReqId : String
  proofSellerJti : String
  proofSellerReqId : String
  deriving DecidableEq

def getSubmitMultisigProofBundle (db : OrchestratorDb) (escrowIdHex txsetHashHex : String) :
    Except String SubmitMultisigProofBundle := do
  let escrowIdHex ← normalizeHexExact escrowIdHex 32 "escrow_id_hex"
  let txsetHashHex ← normalizeHexExact txsetHashHex 64 "txset_hash_hex"
  db.checkWorkflow escrowIdHex "submit_multisig proof bundle"
  let arbiter ← okOr (db.get ⟨escrowIdHex, "arbiter", "arbiter_first", txsetHashHex⟩)
    "missing quorum proof: arbiter_first"
  let seller ← okOr (db.get ⟨escrowIdHex, "seller", "seller_second", txsetHashHex⟩)
    "missing quorum proof: seller_second"
  failIf (arbiter.jti = seller.jti)
    "invalid quorum proof bundle: proof_arbiter_jti and proof_seller_jti must differ"
  failIf (arbiter.reqId = seller.reqId)
    "invalid quorum proof bundle: proof_arbiter_req_id and proof_seller_req_id must differ"
  pure ⟨escrowIdHex, txsetHashHex, arbiter.jti, arbiter.reqId, seller.jti, seller.reqId⟩

end OrchestratorDb

end Nexum.Orchestrator
