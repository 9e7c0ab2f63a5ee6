import Nexum.Lib.Digest
import Nexum.Orchestrator.ActionToken

/-!
# What a token stands for

The calls that write the tables tokens are made of, taken together. A proposal is stored with a
digest that the caller supplies: to the orchestrator it is an opaque blob, checked for its form and
kept. The issuer looks the digest up and never at the bytes.

So a token stands for **the digest that came with the bytes last stored for the escrow**
(`proposals_as_given`). It is the digest *of* these bytes as far as the callers tell the truth, and
nothing here makes them; a signer computes it again from the bytes it is asked to sign.
-/

namespace Nexum.Orchestrator.ActionToken

open Nexum.Lib Nexum.Lib.Check

/-! ## 1. Writing -/

def normalizeAction (value : String) : Except String String := do
  let action := toAsciiLowercase (trim value)
  failIf (action ≠ "release" ∧ action ≠ "refund") "action must be one of: release|refund"
  pure action

def normalizeEvenHex (value label : String) : Except String String := do
  let trimmed := trim value
  failIf (trimmed = "" ∨ trimmed.utf8ByteSize % 2 ≠ 0 ∨ ¬ (chars trimmed).all isAsciiHexdigit)
    s!"{label} must be non-empty even-length hex"
  pure (toAsciiLowercase trimmed)

/-- The states that take quorum proofs without the last of them: no proposal after submission. -/
def workflowStateAllowsProposal : WorkflowState → Bool
  | .funded | .txSignPending | .txSignedQuorum => true
  | _ => false

namespace ControlDb

def empty : ControlDb := ⟨.empty, [], [], []⟩

variable (db : ControlDb)

def checkProposal (escrowIdHex action txDataHex txsetHashHex : String) :
    Except String ProposalBlob := do
  let escrowIdHex ← normalizeHexExact escrowIdHex 32 "escrow_id_hex"
  let action ← normalizeAction action
  let txDataHex ← normalizeEvenHex txDataHex "tx_data_hex"
  let txsetHashHex ← normalizeHexExact txsetHashHex 64 "txset_hash_hex"
  let workflow ← okOr (db.flows.workflow escrowIdHex)
    s!"workflow not found for escrow_id_hex={escrowIdHex}"
  failIf (workflowStateAllowsProposal workflow.state = false)
    s!"workflow state {workflow.state.debug} does not allow proposal blob storage"
  pure ⟨escrowIdHex, action, txDataHex, txsetHashHex⟩

def putProposal (new : ProposalBlob) : ControlDb :=
  { db with proposals :=
      upsert (·.escrowIdHex = new.escrowIdHex) (fun _ => new) new db.proposals }

def checkAdmission (row : EscrowAdmissionArtifactRow) :
    Except String EscrowAdmissionArtifactRow := do
  let escrowIdHex ← normalizeHexExact row.escrowIdHex 32 "escrow_id_hex"
  let snapshotHashHex ← normalizeHexExact row.snapshotHashHex 64 "snapshot_hash_hex"
  let action ← normalizeAction row.action
  let workflow ← okOr (db.flows.workflow escrowIdHex)
    s!"workflow not found for escrow_id_hex={escrowIdHex}"
  failIf (workflow.snapshotHashHex ≠ snapshotHashHex)
    "escrow admission snapshot_hash mismatch against workflow"
  pure { row with
    escrowIdHex := escrowIdHex, snapshotHashHex := snapshotHashHex, action := action }

def putAdmission (new : EscrowAdmissionArtifactRow) : ControlDb :=
  { db with admissions :=
      upsert (·.escrowIdHex = new.escrowIdHex) (fun _ => new) new db.admissions }

/-- A call either writes what its checks give or leaves everything as it is. -/
def write {α : Type} (checks : Except String α) (put : α → ControlDb) :
    Except String Unit × ControlDb :=
  match checks with
  | .ok a => (.ok (), put a)
  | .error e => (.error e, db)

def upsertProposalBlob (escrowIdHex action txDataHex txsetHashHex : String) :
    Except String Unit × ControlDb :=
  db.write (db.checkProposal escrowIdHex action txDataHex txsetHashHex) db.putProposal

def upsertEscrowAdmissionArtifact (row : EscrowAdmissionArtifactRow) :
    Except String Unit × ControlDb :=
  db.write (db.checkAdmission row) db.putAdmission

def upsertQuorumSignProof (escrowIdHex role signRound txsetHashHex jti reqId : String) :
    Except String Unit × ControlDb :=
  let out := db.quorum.upsertQuorumSignProof escrowIdHex role signRound txsetHashHex jti reqId
  (out.1, { db with proofs := out.2.proofs })

end ControlDb

inductive ControlCall
  | flow (call : Call)
  | upsertProposalBlob (escrowIdHex action txDataHex txsetHashHex : String)
  | upsertEscrowAdmissionArtifact (row : EscrowAdmissionArtifactRow)
  | upsertQuorumSignProof (escrowIdHex role signRound txsetHashHex jti reqId : String)

/-- The whole database, one call at a time. -/
def control (sha3 : List UInt8 → List UInt8) : Server ControlDb ControlCall Reply where
  serve db
    | .flow call =>
      let out := (orchestrator sha3).serve db.flows call
      (out.1, { db with flows := out.2 })
    | .upsertProposalBlob e action tx hash => done (db.upsertProposalBlob e action tx hash)
    | .upsertEscrowAdmissionArtifact row => done (db.upsertEscrowAdmissionArtifact row)
    | .upsertQuorumSignProof e role round hash jti reqId =>
      done (db.upsertQuorumSignProof e role round hash jti reqId)
where
  done (out : Except String Unit × ControlDb) : Reply × ControlDb := (.done out.1, out.2)

/-- The database after a history that starts with empty tables. -/
def controlled (sha3 : List UInt8 → List UInt8) (calls : List ControlCall) : ControlDb :=
  (control sha3).after .empty calls

/-! ## 2. What is in the table of proposals -/

/-- The proposal a call stores. -/
def stores (db : ControlDb) : ControlCall → List ProposalBlob
  | .upsertProposalBlob e action tx hash => (db.checkProposal e action tx hash).toOption.toList
  | _ => []

/-- The proposals stored along a history, in order. -/
def storedProposals (sha3 : List UInt8 → List UInt8) (calls : List ControlCall) :
    List ProposalBlob :=
  (control sha3).collect stores .empty calls

/-- The one stored last for the escrow. -/
def lastStored (sha3 : List UInt8 → List UInt8) (calls : List ControlCall) (escrowIdHex : String) :
    Option ProposalBlob :=
  (storedProposals sha3 calls).reverse.find? (·.escrowIdHex = escrowIdHex)

/-- A row as the checks let it through. -/
structure WellFormed (row : ProposalBlob) : Prop where
  escrow : normalizeHexExact row.escrowIdHex 32 "escrow_id_hex" = .ok row.escrowIdHex
  action : row.action = "release" ∨ row.action = "refund"
  txData : ∃ bytes, hexDecode row.txDataHex = some bytes
  hash : normalizeHexExact row.txsetHashHex 64 "txset_hash_hex" = .ok row.txsetHashHex

theorem hexDecodeChars_isSome {cs : List Char} (hall : ∀ c ∈ cs, isAsciiHexdigit c = true)
    (heven : cs.length % 2 = 0) : ∃ bytes, hexDecodeChars cs = some bytes := by
  induction cs using hexDecodeChars.induct with
  | case1 => exact ⟨[], rfl⟩
  | case2 c => cases heven
  | case3 hi lo rest ih =>
    have hrest : rest.length % 2 = 0 := by
      simp only [List.length_cons] at heven
      omega
    obtain ⟨bytes, hbytes⟩ := ih (fun c hc => hall c (by simp [hc])) hrest
    have hvalue : ∀ c, isAsciiHexdigit c = true → ∃ n, hexValue c = some n := by
      intro c hc
      rw [isAsciiHexdigit_iff] at hc
      unfold hexValue
      dsimp only
      split_ifs <;> first | exact ⟨_, rfl⟩ | omega
    obtain ⟨m, hm⟩ := hvalue hi (hall hi (by simp))
    obtain ⟨n, hn⟩ := hvalue lo (hall lo (by simp))
    simp [hexDecodeChars, hm, hn, hbytes]

theorem normalizeEvenHex_decodes {value label s : String}
    (h : normalizeEvenHex value label = .ok s) : ∃ bytes, hexDecode s = some bytes := by
  simp only [normalizeEvenHex, bind_eq_ok, failIf_eq_ok, pure_eq_ok, exists_unit, not_or,
    not_not] at h
  obtain ⟨⟨-, heven, hall⟩, rfl⟩ := h
  have hdigits : ∀ c ∈ (trim value).toList, isAsciiHexdigit c = true := by
    simpa [chars_eq] using hall
  have hlen := length_of_digits hdigits
  rw [String.ofList_toList] at hlen
  unfold hexDecode toAsciiLowercase
  rw [chars_eq, chars_eq, String.toList_ofList, hexDecodeChars_toLower hdigits]
  exact hexDecodeChars_isSome hdigits (by omega)

theorem checkProposal_wellFormed {db : ControlDb} {e action tx hash : String} {row : ProposalBlob}
    (h : db.checkProposal e action tx hash = .ok row) : WellFormed row := by
  simp only [ControlDb.checkProposal, bind_eq_ok, okOr_eq_ok, failIf_eq_ok, pure_eq_ok,
    exists_unit] at h
  obtain ⟨escrow, hescrow, act, haction, txData, htx, txset, htxset, _, -, -, rfl⟩ := h
  refine ⟨normalizeHex_idem hescrow, ?_, normalizeEvenHex_decodes htx, normalizeHex_idem htxset⟩
  simp only [normalizeAction, bind_eq_ok, failIf_eq_ok, pure_eq_ok, exists_unit] at haction
  obtain ⟨hknown, rfl⟩ := haction
  by_contra hneither
  exact hknown (not_or.mp hneither)

section
variable {sha3 : List UInt8 → List UInt8} {calls : List ControlCall} {row : ProposalBlob}

/-- What a call does to the table of proposals: it puts what it stores, if anything. -/
theorem serve_proposals (sha3 : List UInt8 → List UInt8) (db : ControlDb) (call : ControlCall) :
    (stores db call = [] ∧ ((control sha3).serve db call).2.proposals = db.proposals)
    ∨ ∃ new, stores db call = [new] ∧ WellFormed new
      ∧ ((control sha3).serve db call).2.proposals = (db.putProposal new).proposals := by
  simp only [control, control.done]
  cases call with
  | flow call => exact .inl ⟨rfl, rfl⟩
  | upsertQuorumSignProof e role round hash jti reqId =>
    dsimp only [ControlDb.upsertQuorumSignProof]
    exact .inl ⟨rfl, rfl⟩
  | upsertEscrowAdmissionArtifact row =>
    refine .inl ⟨rfl, ?_⟩
    simp only [ControlDb.upsertEscrowAdmissionArtifact, ControlDb.write]
    cases db.checkAdmission row <;> rfl
  | upsertProposalBlob e action tx hash =>
    simp only [stores, ControlDb.upsertProposalBlob, ControlDb.write]
    cases hcheck : db.checkProposal e action tx hash with
    | error err => exact .inl ⟨rfl, rfl⟩
    | ok new => exact .inr ⟨new, rfl, checkProposal_wellFormed hcheck, rfl⟩

theorem mem_putProposal {db : ControlDb} {new : ProposalBlob} :
    row ∈ (db.putProposal new).proposals
      ↔ row = new ∨ row ∈ db.proposals ∧ row.escrowIdHex ≠ new.escrowIdHex := by
  constructor
  · intro h
    refine (mem_upsert h).imp_right fun hold => ⟨hold.1, ?_⟩
    simpa using hold.2
  · intro h
    have hfound : ∀ p : ProposalBlob → Bool, (db.putProposal new).proposals.find? p = some row →
        row ∈ (db.putProposal new).proposals := fun _ => List.mem_of_find?_eq_some
    rcases h with rfl | ⟨hold, hne⟩
    · exact hfound _ (find?_upsert (by simp))
    · unfold ControlDb.putProposal upsert
      dsimp only
      split
      · exact List.mem_map.mpr ⟨row, hold, by simp [hne]⟩
      · exact List.mem_append_left _ hold

/-- **The table holds, for every escrow, the proposal stored for it last.** -/
theorem proposals_iff : row ∈ (controlled sha3 calls).proposals
    ↔ lastStored sha3 calls row.escrowIdHex = some row := by
  induction calls using List.reverseRecOn with
  | nil =>
    constructor
    · intro h
      cases h
    · intro h
      cases h
  | append_singleton calls call ih =>
    unfold controlled lastStored storedProposals at ih ⊢
    rw [Server.after_snoc, Server.collect_snoc, List.reverse_append]
    rcases serve_proposals sha3 ((control sha3).after .empty calls) call with
      ⟨hnone, hsame⟩ | ⟨new, hnew, -, hput⟩
    · rw [hsame, hnone]
      exact ih
    · rw [hput, hnew, mem_putProposal, ih]
      by_cases hescrow : new.escrowIdHex = row.escrowIdHex
      · simp [hescrow, eq_comm]
      · have hne : row ≠ new := by
          rintro rfl
          exact hescrow rfl
        simp [hescrow, hne, Ne.symm hescrow]

theorem wellFormed_of_stored (h : row ∈ storedProposals sha3 calls) : WellFormed row := by
  induction calls using List.reverseRecOn with
  | nil => cases h
  | append_singleton calls call ih =>
    unfold storedProposals at ih h
    rw [Server.collect_snoc, List.mem_append] at h
    rcases h with h | h
    · exact ih h
    · rcases serve_proposals sha3 ((control sha3).after .empty calls) call with
        ⟨hnone, -⟩ | ⟨new, hnew, hwell, -⟩
      · rw [hnone] at h
        cases h
      · rw [hnew, List.mem_singleton] at h
        exact h ▸ hwell

end

/-! ## 3. Tokens and bytes -/

/-- The digest of a row is the digest of its bytes. -/
def Digested (sha256Hex : List UInt8 → String) (row : ProposalBlob) : Prop :=
  ∃ bytes, hexDecode row.txDataHex = some bytes ∧ row.txsetHashHex = sha256Hex bytes

/-- **The bytes behind a token are those that came with its digest.** In every database that calls
    can lead to, the row of an escrow is the one stored last for it, of the right form; a token is
    issued for the digest of that row; and rows whose digests were given truthfully are right about
    their bytes. -/
theorem proposals_as_given (sha256Hex : List UInt8 → String) (sha3 : List UInt8 → List UInt8)
    (calls : List ControlCall) :
    (∀ row, row ∈ (controlled sha3 calls).proposals
      ↔ lastStored sha3 calls row.escrowIdHex = some row)
    ∧ (∀ row ∈ (controlled sha3 calls).proposals, WellFormed row)
    ∧ (∀ encode params m out, issueActionToken encode (controlled sha3 calls) params m = .ok out →
      ∃ row, lastStored sha3 calls out.claims.escrowId = some row
        ∧ row.txsetHashHex = out.claims.txsetHash
        ∧ (Digested sha256Hex row ↔ ∃ bytes, hexDecode row.txDataHex = some bytes
          ∧ out.claims.txsetHash = sha256Hex bytes))
    ∧ ((∀ row ∈ storedProposals sha3 calls, Digested sha256Hex row) →
      ∀ row ∈ (controlled sha3 calls).proposals, Digested sha256Hex row) := by
  have hstored : ∀ row ∈ (controlled sha3 calls).proposals, row ∈ storedProposals sha3 calls := by
    intro row hrow
    exact List.mem_reverse.mp (List.mem_of_find?_eq_some (proposals_iff.mp hrow))
  refine ⟨fun row => proposals_iff, fun row hrow => wellFormed_of_stored (hstored row hrow), ?_,
    fun h row hrow => h row (hstored row hrow)⟩
  intro encode params m out hissue
  obtain ⟨_, row, _, _, hissuable, -, ⟨hescrow, htxset⟩, -⟩ := issue_inv hissue
  have hrow : row.escrowIdHex = params.escrowIdHex ∧ row.txsetHashHex = params.txsetHashHex := by
    simpa using List.find?_some hissuable.blob
  have hhash : row.txsetHashHex = out.claims.txsetHash := hrow.2.trans htxset.symm
  refine ⟨row, ?_, hhash, ?_⟩
  · rw [hescrow, ← hrow.1]
    exact proposals_iff.mp (List.mem_of_find?_eq_some hissuable.blob)
  · rw [Digested, hhash]

/-! ## 4. One set of bytes, two digests -/

def historyEscrow : String := "00112233445566778899aabbccddeeff"

/-- A workflow is created and funded, and the byte `aa` is stored under the digest
    `digit64 hash`. -/
def fundedHistory (hash : Char) : List ControlCall :=
  .flow (.createWorkflow historyEscrow (digit64 '5') ["buyer", "seller", "arbiter"])
    :: ([.prepareCollected, .makeCollected, .exchangeR1Collected, .exchangeR2Collected,
        .finalizedReady, .funded].map fun state =>
      .flow (.transitionWorkflow historyEscrow state none))
    ++ [.upsertProposalBlob historyEscrow "release" "aa" (digit64 hash)]

/-- A token for signing what is stored under the digest. -/
def signParams (hash : Char)
    (h : normalizeHexExact (digit64 hash) 64 "txset_hash_hex" = .ok (digit64 hash)) :
    IssueActionTokenParams where
  escrowIdHex := historyEscrow
  txsetHashHex := digit64 hash
  role := .arbiter
  op := .signMultisig
  issuer := "orchestrator"
  ttlSecs := 60
  subject := "arbiter"
  walletId := "wallet"
  sandboxId := "sandbox"
  audience := "sandbox:sandbox"
  nettype := "stagenet"
  runtimeTrustEpoch := none
  escrow_normal := by decide +kernel
  hash_normal := h
  ttl_bounds := by decide
  subject_normal := by decide +kernel

def historyMoment : Moment := ⟨990, 990, List.replicate 16 0, rfl⟩

theorem historyHash_normal :
    normalizeHexExact (digit64 'a') 64 "txset_hash_hex" = .ok (digit64 'a') := by
  decide +kernel

theorem proposals_as_given_once :
    ∃ out row, issueActionToken (fun _ => .ok "token")
        (controlled (fun _ => []) (fundedHistory 'a')) (signParams 'a' historyHash_normal)
        historyMoment = .ok out
      ∧ lastStored (fun _ => []) (fundedHistory 'a') out.claims.escrowId = some row
      ∧ row.txsetHashHex = out.claims.txsetHash := by
  obtain ⟨out, hout⟩ : ∃ out, issueActionToken (fun _ => .ok "token")
      (controlled (fun _ => []) (fundedHistory 'a')) (signParams 'a' historyHash_normal)
        historyMoment = .ok out := exists_of_isOk (by decide +kernel)
  obtain ⟨-, -, htoken, -⟩ :=
    proposals_as_given (fun _ => digit64 'a') (fun _ => []) (fundedHistory 'a')
  obtain ⟨row, hlast, hhash, -⟩ := htoken _ _ _ out hout
  exact ⟨out, row, hout, hlast, hhash⟩

/-- **Whatever the digest function is, some token is for other bytes than those it was issued
    for**: the same byte is stored under two digests, and a token is issued for either. -/
theorem digest_not_checked :
    ¬ ∃ sha256Hex : List UInt8 → String, ∀ calls params out,
      issueActionToken (fun _ => .ok "token") (controlled (fun _ => []) calls) params historyMoment
        = .ok out →
      ∃ row ∈ (controlled (fun _ => []) calls).proposals,
        row.txsetHashHex = out.claims.txsetHash ∧ Digested sha256Hex row := by
  intro hchecked
  obtain ⟨sha256Hex, hchecked⟩ := hchecked
  have hdigest : ∀ (hash : Char)
      (h : normalizeHexExact (digit64 hash) 64 "txset_hash_hex" = .ok (digit64 hash)),
      (issueActionToken (fun _ => .ok "token") (controlled (fun _ => []) (fundedHistory hash))
        (signParams hash h) historyMoment).isOk = true →
      (controlled (fun _ => []) (fundedHistory hash)).proposals
        = [⟨historyEscrow, "release", "aa", digit64 hash⟩] →
      digit64 hash = sha256Hex [0xaa] := by
    intro hash h hok hrows
    obtain ⟨out, hout⟩ := exists_of_isOk hok
    obtain ⟨row, hrow, -, bytes, hbytes, hsame⟩ := hchecked _ _ out hout
    rw [hrows, List.mem_singleton] at hrow
    subst hrow
    have haa : hexDecode "aa" = some [0xaa] := by decide +kernel
    cases haa.symm.trans hbytes
    exact hsame
  have ha := hdigest 'a' (by decide +kernel) (by decide +kernel) (by decide +kernel)
  have hb := hdigest 'b' (by decide +kernel) (by decide +kernel) (by decide +kernel)
  exact absurd (ha.trans hb.symm) (by decide +kernel)

end Nexum.Orchestrator.ActionToken
