import Nexum.Orchestrator.Control

/-!
# The integrity check

`integrity_check` goes through three tables and reports what is not as it should be: rows without a
workflow, and fields that their own normalisers would refuse. The calls store what the normalisers
give, and **normalising again refuses nothing**, so a database that was only written by the calls is
reported to be in order, however many calls failed. A list that may hold one finding at least is
empty only if there is none.

The other way round the report has a gap. The fields are looked at as the calls look at them, after
**trimming**, so an id or a hash with blanks around it passes for the "32 hex chars" that the finding
and the runbook speak of (`padded_id_unreported`). That is the only gap: a table is well formed
exactly if nothing is found and nothing is padded (`integrity_check_exact`).
-/

namespace Nexum.Orchestrator.ActionToken

open Nexum.Lib Nexum.Lib.Check

/-! ## 1. The check -/

/-- The JSON of a list of participants. -/
structure ParticipantsJson where
  toString : List String → String
  fromStr : String → Except String (List String)
  reads : ∀ participants, fromStr (toString participants) = .ok participants

/-- A simple text for a list: a backslash before every character, a comma after every entry. -/
def escapeList : List String → List Char
  | [] => []
  | p :: rest => p.toList.flatMap (fun c => ['\\', c]) ++ ',' :: escapeList rest

/-- Its reader; `entry` is what was read of an entry, newest first. -/
def unescapeList (entry : List Char) : List Char → Option (List String)
  | [] => if entry = [] then some [] else none
  | '\\' :: c :: rest => unescapeList (c :: entry) rest
  | ',' :: rest => (unescapeList [] rest).map (String.ofList entry.reverse :: ·)
  | _ => none

theorem unescapeList_entry (cs entry tail : List Char) :
    unescapeList entry (cs.flatMap (fun c => ['\\', c]) ++ tail)
      = unescapeList (cs.reverse ++ entry) tail := by
  induction cs generalizing entry with
  | nil => rfl
  | cons c cs ih =>
    simp only [List.flatMap_cons, List.cons_append, List.nil_append, unescapeList, ih,
      List.reverse_cons, List.append_assoc]

theorem unescapeList_escapeList (participants : List String) :
    unescapeList [] (escapeList participants) = some participants := by
  induction participants with
  | nil => rfl
  | cons p rest ih =>
    rw [escapeList, unescapeList_entry, unescapeList, ih]
    simp

instance : Inhabited ParticipantsJson where
  default :=
    { toString := fun participants => String.ofList (escapeList participants)
      fromStr := fun text => okOr (unescapeList [] text.toList) "invalid participants"
      reads := by
        intro participants
        rw [String.toList_ofList, unescapeList_escapeList]
        rfl }

/-- The columns of `workflow_instances` that are read. -/
structure WorkflowRow where
  escrowIdHex : String
  snapshotHashHex : String
  participantsJson : String

/-- Three tables, in the order of the queries. -/
structure CheckedTables where
  workflows : List WorkflowRow
  proposals : List ProposalBlob
  proofs : List QuorumSignProof

structure IntegrityFinding where
  table : String
  escrowIdHex : Option String
  issue : String
  detail : String
  deriving DecidableEq

def flagIf (bad : Bool) (table escrowIdHex issue detail : String) : List IntegrityFinding :=
  if bad then [⟨table, some escrowIdHex, issue, detail⟩] else []

def isErr {α : Type} (x : Except String α) : Bool := !x.isOk

def participantsFindings (escrowIdHex : String) :
    Except String (List String) → List IntegrityFinding
  | .error e => [⟨"workflow_instances", some escrowIdHex, "invalid_participants_json", e⟩]
  | .ok participants =>
    match normalizeParticipants participants with
    | .error e => [⟨"workflow_instances", some escrowIdHex, "invalid_participants", e⟩]
    | .ok _ => []

def workflowFindings (json : ParticipantsJson) (row : WorkflowRow) : List IntegrityFinding :=
  flagIf (isErr (normalizeHexExact row.escrowIdHex 32 "escrow_id_hex")) "workflow_instances"
    row.escrowIdHex "invalid_escrow_id" "workflow escrow_id_hex is not 32 hex chars"
  ++ flagIf (isErr (normalizeHexExact row.snapshotHashHex 64 "snapshot_hash_hex"))
    "workflow_instances" row.escrowIdHex "invalid_snapshot_hash"
    "snapshot_hash_hex is not 64 hex chars"
  ++ participantsFindings row.escrowIdHex (json.fromStr row.participantsJson)

def proposalFindings (workflowIds : List String) (row : ProposalBlob) : List IntegrityFinding :=
  flagIf (row.escrowIdHex ∉ workflowIds) "proposal_blobs" row.escrowIdHex "orphan_workflow"
    "proposal row has no matching workflow_instances row"
  ++ flagIf (isErr (normalizeAction row.action)) "proposal_blobs" row.escrowIdHex "invalid_action"
    "proposal action must be release|refund"
  ++ flagIf (isErr (normalizeEvenHex row.txDataHex "tx_data_hex")) "proposal_blobs" row.escrowIdHex
    "invalid_tx_data_hex" "proposal tx_data_hex is not even-length hex"
  ++ flagIf (isErr (normalizeHexExact row.txsetHashHex 64 "txset_hash_hex")) "proposal_blobs"
    row.escrowIdHex "invalid_txset_hash" "proposal txset_hash_hex is not 64 hex chars"

/-- The round is looked at only if the role is one. -/
def roundFindings (row : QuorumSignProof) : List IntegrityFinding :=
  match normalizeWorkerRole row.key.role with
  | .error _ => flagIf true "quorum_sign_proofs" row.key.escrowIdHex "invalid_role"
      "role must be buyer|seller|arbiter"
  | .ok role =>
    flagIf (isErr (normalizeQuorumSignRoundForRole role row.key.signRound)) "quorum_sign_proofs"
      row.key.escrowIdHex "invalid_sign_round"
      s!"sign_round '{row.key.signRound}' does not match role '{role}'"

def proofFindings (workflowIds : List String) (row : QuorumSignProof) : List IntegrityFinding :=
  flagIf (row.key.escrowIdHex ∉ workflowIds) "quorum_sign_proofs" row.key.escrowIdHex
    "orphan_workflow" s!"quorum proof sign_round '{row.key.signRound}' has no matching workflow"
  ++ roundFindings row
  ++ flagIf (isErr (normalizeHexExact row.key.txsetHashHex 64 "txset_hash_hex"))
    "quorum_sign_proofs" row.key.escrowIdHex "invalid_txset_hash"
    "txset_hash_hex is not 64 hex chars"
  ++ flagIf (isErr (normalizeJti row.jti "jti")) "quorum_sign_proofs" row.key.escrowIdHex
    "invalid_jti" "jti is empty or too long"
  ++ flagIf (isErr (normalizeHexExact row.reqId 64 "req_id")) "quorum_sign_proofs"
    row.key.escrowIdHex "invalid_req_id" "req_id is not 64 hex chars"

def pushIntegrityFinding (limit : Nat) (out : List IntegrityFinding) (new : IntegrityFinding) :
    List IntegrityFinding :=
  if limit ≤ out.length then out else out ++ [new]

/-- Everything that is offered to `push_integrity_finding`, in order. -/
def CheckedTables.offered (json : ParticipantsJson) (t : CheckedTables) : List IntegrityFinding :=
  let ids := t.workflows.map (·.escrowIdHex)
  t.workflows.flatMap (workflowFindings json) ++ t.proposals.flatMap (proposalFindings ids)
    ++ t.proofs.flatMap (proofFindings ids)

def integrityCheck (json : ParticipantsJson) (limit : UInt32) (t : CheckedTables) :
    List IntegrityFinding :=
  (t.offered json).foldl (pushIntegrityFinding (min (max limit.toNat 1) 10000)) []

/-- The tables of the orchestrator, as the check reads them. -/
def ControlDb.checked (json : ParticipantsJson) (db : ControlDb) : CheckedTables where
  workflows := db.flows.workflows.map fun wf =>
    ⟨wf.escrowIdHex, wf.snapshotHashHex, json.toString wf.participants⟩
  proposals := db.proposals
  proofs := db.proofs

/-! ## 2. No finding -/

theorem flagIf_eq_nil {bad : Bool} {table e issue detail : String} :
    flagIf bad table e issue detail = [] ↔ bad = false := by
  cases bad <;> simp [flagIf]

theorem isErr_eq_false {α : Type} {x : Except String α} : isErr x = false ↔ ∃ a, x = .ok a := by
  cases x <;> simp [isErr, Except.isOk, Except.toBool]

theorem foldl_push_ne_nil {limit : Nat} (hlimit : 0 < limit) (new out : List IntegrityFinding)
    (h : new ≠ [] ∨ out ≠ []) : new.foldl (pushIntegrityFinding limit) out ≠ [] := by
  induction new generalizing out with
  | nil => exact h.resolve_left fun hnil => hnil rfl
  | cons f new ih =>
    refine ih _ (.inr ?_)
    unfold pushIntegrityFinding
    split
    · rename_i hfull
      intro hempty
      rw [hempty] at hfull
      exact absurd hfull (Nat.not_le.mpr hlimit)
    · simp

/-- **The limit hides no trouble**: it is at least one. -/
theorem integrityCheck_eq_nil {json : ParticipantsJson} {limit : UInt32} {t : CheckedTables} :
    integrityCheck json limit t = [] ↔ t.offered json = [] := by
  constructor
  · intro h
    by_contra hne
    exact foldl_push_ne_nil (by omega) _ _ (.inl hne) h
  · intro h
    rw [integrityCheck, h]
    rfl

theorem normalizeParticipantsFrom_eq_ok {out ps r : List String} :
    normalizeParticipantsFrom out ps = .ok r ↔ (∀ p ∈ ps, trim p ≠ "")
      ∧ (∀ q ∈ out, ∀ p ∈ ps, q ≠ trim p) ∧ (ps.map trim).Nodup ∧ r = out ++ ps.map trim := by
  induction ps generalizing out with
  | nil =>
    rw [normalizeParticipantsFrom, pure_eq_ok]
    exact ⟨fun h => ⟨nofun, fun _ _ => nofun, List.nodup_nil, by simp [h]⟩,
      fun h => by simpa using h.2.2.2.symm⟩
  | cons p ps ih =>
    simp only [normalizeParticipantsFrom, Orchestrator.normalizeNonEmpty_eq_ok, bind_eq_ok,
      failIf_eq_ok, exists_unit, ih, List.forall_mem_cons, List.map_cons, List.nodup_cons,
      List.mem_append, List.mem_singleton, List.mem_map]
    constructor
    · rintro ⟨_, ⟨hp, rfl⟩, hnew, hall, hout, hnodup, rfl⟩
      refine ⟨⟨hp, hall⟩, fun q hq => ⟨?_, fun p' hp' => hout q (.inl hq) p' hp'⟩,
        ⟨?_, hnodup⟩, by simp⟩
      · rintro rfl
        exact hnew hq
      · rintro ⟨p', hp', heq⟩
        exact hout _ (.inr rfl) p' hp' heq.symm
    · rintro ⟨⟨hp, hall⟩, hout, ⟨hfirst, hnodup⟩, rfl⟩
      refine ⟨_, ⟨hp, rfl⟩, fun hmem => (hout _ hmem).1 rfl, hall, ?_, hnodup, by simp⟩
      rintro q (hq | rfl) p' hp'
      · exact (hout q hq).2 p' hp'
      · exact fun heq => hfirst ⟨p', hp', heq.symm⟩

/-- Some participants, none of them blank, no two alike. -/
def GoodParticipants (ps : List String) : Prop :=
  ps ≠ [] ∧ (∀ p ∈ ps, trim p ≠ "") ∧ (ps.map trim).Nodup

theorem normalizeParticipants_eq_ok {ps r : List String} :
    normalizeParticipants ps = .ok r ↔ GoodParticipants ps ∧ r = ps.map trim := by
  simp only [normalizeParticipants, bind_eq_ok, failIf_eq_ok, exists_unit,
    normalizeParticipantsFrom_eq_ok, GoodParticipants, List.nil_append, List.not_mem_nil,
    false_implies, implies_true, true_and, and_assoc]

theorem GoodParticipants.trimmed {ps : List String} (h : GoodParticipants ps) :
    GoodParticipants (ps.map trim) := by
  have htrim : (ps.map trim).map trim = ps.map trim := by
    rw [List.map_map]
    exact List.map_congr_left fun p _ => trim_trim p
  refine ⟨fun hnil => h.1 (List.map_eq_nil_iff.mp hnil), ?_, by rw [htrim]; exact h.2.2⟩
  intro q hq
  obtain ⟨p, hp, rfl⟩ := List.mem_map.mp hq
  rw [trim_trim]
  exact h.2.1 p hp

/-- Exactly `n` hexadecimal digits. -/
def HexDigits (n : Nat) (s : String) : Prop :=
  s.utf8ByteSize = n ∧ ∀ c ∈ s.toList, isAsciiHexdigit c = true

/-- The same up to blanks around them. -/
def HexText (n : Nat) (s : String) : Prop := HexDigits n (trim s)

theorem hexDigits_iff {n : Nat} {s : String} : HexDigits n s ↔ HexText n s ∧ trim s = s := by
  constructor
  · intro h
    have htrim : trim s = s := trim_of_digits h.2
    exact ⟨by rw [HexText, htrim]; exact h, htrim⟩
  · rintro ⟨h, htrim⟩
    rw [HexText, htrim] at h
    exact h

theorem hex_ok_iff {value label : String} {n : Nat} :
    (∃ s, normalizeHexExact value n label = .ok s) ↔ HexText n value := by
  simp only [normalizeHexExact, normalizeHex_eq_ok, HexText, HexDigits]
  exact ⟨fun ⟨_, hlen, hall, _⟩ => ⟨hlen, hall⟩, fun ⟨hlen, hall⟩ => ⟨_, hlen, hall, rfl⟩⟩

theorem HexText.normalized {value label s : String} {n : Nat}
    (h : normalizeHexExact value n label = .ok s) : HexText n s := by
  have hidem : normalizeHexExact s n label = .ok s := normalizeHex_idem h
  exact hex_ok_iff.mp ⟨s, hidem⟩

section
variable (hex : Nat → String → Prop)

def GoodProposal (p : ProposalBlob) : Prop :=
  (∃ s, normalizeAction p.action = .ok s)
    ∧ (∃ s, normalizeEvenHex p.txDataHex "tx_data_hex" = .ok s)
    ∧ hex 64 p.txsetHashHex

/-- The round is the one of the role. -/
def GoodProof (q : QuorumSignProof) : Prop :=
  quorumRound (toAsciiLowercase (trim q.key.role)) = some (toAsciiLowercase (trim q.key.signRound))
    ∧ hex 64 q.key.txsetHashHex ∧ (trim q.jti ≠ "" ∧ (trim q.jti).utf8ByteSize ≤ 256)
    ∧ hex 64 q.reqId

/-- **Tables in order**, with the texts that `hex` takes for hexadecimal: `HexText` where they are
    only looked at after trimming, and `HexDigits` for tables that are well formed. -/
structure InOrder (json : ParticipantsJson) (t : CheckedTables) : Prop where
  workflows : ∀ w ∈ t.workflows, hex 32 w.escrowIdHex ∧ hex 64 w.snapshotHashHex
    ∧ ∃ ps, json.fromStr w.participantsJson = .ok ps ∧ GoodParticipants ps
  proposals : ∀ p ∈ t.proposals,
    p.escrowIdHex ∈ t.workflows.map (·.escrowIdHex) ∧ GoodProposal hex p
  proofs : ∀ q ∈ t.proofs,
    q.key.escrowIdHex ∈ t.workflows.map (·.escrowIdHex) ∧ GoodProof hex q

end

/-- No stored id, hash or request id has blanks around it. -/
structure Unpadded (t : CheckedTables) : Prop where
  workflows : ∀ w ∈ t.workflows,
    trim w.escrowIdHex = w.escrowIdHex ∧ trim w.snapshotHashHex = w.snapshotHashHex
  proposals : ∀ p ∈ t.proposals, trim p.txsetHashHex = p.txsetHashHex
  proofs : ∀ q ∈ t.proofs, trim q.key.txsetHashHex = q.key.txsetHashHex ∧ trim q.reqId = q.reqId

theorem wellFormed_iff {json : ParticipantsJson} {t : CheckedTables} :
    InOrder HexDigits json t ↔ InOrder HexText json t ∧ Unpadded t := by
  constructor
  · rintro ⟨hw, hp, hq⟩
    simp only [GoodProposal, GoodProof, hexDigits_iff] at hw hp hq
    exact ⟨⟨by grind, by grind [GoodProposal], by grind [GoodProof]⟩, by grind, by grind, by grind⟩
  · rintro ⟨⟨hw, hp, hq⟩, hwt, hpt, hqt⟩
    simp only [GoodProposal, GoodProof] at hp hq
    refine ⟨fun w h => ?_, fun p h => ?_, fun q h => ?_⟩ <;>
      simp only [GoodProposal, GoodProof, hexDigits_iff] <;> grind

theorem participantsFindings_eq_nil {e : String} {x : Except String (List String)} :
    participantsFindings e x = [] ↔ ∃ ps, x = .ok ps ∧ GoodParticipants ps := by
  cases x with
  | error err => simp [participantsFindings]
  | ok ps =>
    simp only [participantsFindings, Except.ok.injEq, exists_eq_left']
    cases h : normalizeParticipants ps with
    | error err =>
      simp only [List.cons_ne_nil, false_iff]
      intro hgood
      rw [normalizeParticipants_eq_ok.mpr ⟨hgood, rfl⟩] at h
      cases h
    | ok r => simp [(normalizeParticipants_eq_ok.mp h).1]

theorem quorumRound_some {role round : String} (h : quorumRound role = some round) :
    (role = "buyer" ∨ role = "seller" ∨ role = "arbiter") ∧ round ≠ "" := by
  unfold quorumRound at h
  split at h <;> simp_all <;> (rw [← h]; decide)

theorem roundFindings_eq_nil {row : QuorumSignProof} :
    roundFindings row = [] ↔ quorumRound (toAsciiLowercase (trim row.key.role))
      = some (toAsciiLowercase (trim row.key.signRound)) := by
  unfold roundFindings
  cases h : normalizeWorkerRole row.key.role with
  | error err =>
    simp only [flagIf_eq_nil, Bool.true_eq_false, false_iff]
    intro hround
    have hrole : normalizeWorkerRole row.key.role = .ok (toAsciiLowercase (trim row.key.role)) := by
      have hknown := (quorumRound_some hround).1
      simp only [normalizeWorkerRole, bind_eq_ok, failIf_eq_ok, exists_unit, pure_eq_ok, and_true]
      rintro ⟨hbuyer, hseller, harbiter⟩
      exact hknown.elim hbuyer fun h => h.elim hseller harbiter
    rw [hrole] at h
    cases h
  | ok role =>
    simp only [normalizeWorkerRole, bind_eq_ok, failIf_eq_ok, exists_unit, pure_eq_ok] at h
    obtain ⟨-, rfl⟩ := h
    simp only [flagIf_eq_nil, isErr_eq_false, normalizeQuorumSignRoundForRole, bind_eq_ok,
      failIf_eq_ok, exists_unit, okOr_eq_ok, pure_eq_ok, not_not]
    constructor
    · rintro ⟨_, -, expected, hexpected, heq, -⟩
      rw [heq]
      exact hexpected
    · intro hround
      exact ⟨_, (quorumRound_some hround).2, _, hround, rfl, rfl⟩

theorem jti_ok_iff {value label : String} :
    (∃ s, normalizeJti value label = .ok s)
      ↔ trim value ≠ "" ∧ (trim value).utf8ByteSize ≤ 256 := by
  simp only [normalizeJti_eq_ok, exists_and_left, exists_eq', and_true]

/-- **Nothing is offered exactly if everything is in order** up to blanks. -/
theorem offered_eq_nil {json : ParticipantsJson} {t : CheckedTables} :
    t.offered json = [] ↔ InOrder HexText json t := by
  simp only [CheckedTables.offered, List.append_eq_nil_iff, List.flatMap_eq_nil_iff,
    workflowFindings, proposalFindings, proofFindings, flagIf_eq_nil, isErr_eq_false, hex_ok_iff,
    participantsFindings_eq_nil, roundFindings_eq_nil, jti_ok_iff, decide_eq_false_iff_not, not_not,
    and_assoc]
  constructor <;> rintro ⟨hw, hp, hq⟩ <;>
    exact ⟨hw, hp, fun q hmem => by simpa only [GoodProof, and_assoc] using hq q hmem⟩

/-! ## 3. What the calls leave -/

def GoodWorkflow (wf : WorkflowInstance) : Prop :=
  HexText 32 wf.escrowIdHex ∧ HexText 64 wf.snapshotHashHex ∧ GoodParticipants wf.participants

/-- **The invariant of the three tables.** -/
structure Tidy (db : ControlDb) : Prop where
  workflows : ∀ wf ∈ db.flows.workflows, GoodWorkflow wf
  proposals : ∀ p ∈ db.proposals,
    p.escrowIdHex ∈ db.flows.workflows.map (·.escrowIdHex) ∧ GoodProposal HexText p
  proofs : ∀ q ∈ db.proofs,
    q.key.escrowIdHex ∈ db.flows.workflows.map (·.escrowIdHex) ∧ GoodProof HexText q

section
variable {sha3 : List UInt8 → List UInt8} {db : ControlDb}

theorem normalizeEvenHex_eq_ok {value label s : String} :
    normalizeEvenHex value label = .ok s ↔ (trim value ≠ "" ∧ (trim value).utf8ByteSize % 2 = 0
      ∧ ∀ c ∈ (trim value).toList, isAsciiHexdigit c = true)
      ∧ toAsciiLowercase (trim value) = s := by
  simp only [normalizeEvenHex, bind_eq_ok, failIf_eq_ok, pure_eq_ok, exists_unit, not_or, not_not,
    chars_eq, List.all_eq_true, ne_eq]

theorem normalizeEvenHex_idem {value label s : String} (h : normalizeEvenHex value label = .ok s)
    (label' : String) : ∃ s', normalizeEvenHex s label' = .ok s' := by
  obtain ⟨⟨hne, heven, hall⟩, rfl⟩ := normalizeEvenHex_eq_ok.mp h
  -- it is an exact text of its own length
  have hnorm : normalizeHex value (trim value).utf8ByteSize ""
      = .ok (toAsciiLowercase (trim value)) :=
    normalizeHex_eq_ok.mpr ⟨rfl, hall, rfl⟩
  have hidem : normalizeHex (toAsciiLowercase (trim value)) (trim value).utf8ByteSize ""
      = .ok (toAsciiLowercase (trim value)) := normalizeHex_idem hnorm
  obtain ⟨hsize, hdigits, -⟩ := normalizeHex_eq_ok.mp hidem
  have hagain : trim (toAsciiLowercase (trim value)) ≠ "" := by
    intro hempty
    rw [hempty, String.utf8ByteSize_empty] at hsize
    exact hne (String.utf8ByteSize_eq_zero_iff.mp hsize.symm)
  rw [← hsize] at heven
  exact ⟨_, normalizeEvenHex_eq_ok.mpr ⟨⟨hagain, heven, hdigits⟩, rfl⟩⟩

theorem goodWorkflow_created {flows : FlowDb} {e snapshot : String} {ps : List String}
    {wf : WorkflowInstance} (h : flows.checkCreate e snapshot ps = .ok wf) : GoodWorkflow wf := by
  simp only [FlowDb.checkCreate, bind_eq_ok, failIf_eq_ok, exists_unit, pure_eq_ok] at h
  obtain ⟨_, he, _, hsnapshot, _, hps, -, rfl⟩ := h
  obtain ⟨hgood, rfl⟩ := normalizeParticipants_eq_ok.mp hps
  exact ⟨.normalized he, .normalized hsnapshot, hgood.trimmed⟩

/-- A call on the workflows keeps their rows, but for the state, or adds one. -/
theorem workflows_effect {flows flows' : FlowDb} {call : Call} {reply : Reply}
    (h : Effect sha3 flows call reply flows') (hgood : ∀ wf ∈ flows.workflows, GoodWorkflow wf) :
    (∀ wf ∈ flows'.workflows, GoodWorkflow wf)
      ∧ flows.workflows.map (·.escrowIdHex) ⊆ flows'.workflows.map (·.escrowIdHex) := by
  cases h with
  | created hcheck =>
    refine ⟨fun wf hwf => ?_, fun e he => ?_⟩
    · rcases List.mem_append.mp hwf with hwf | hwf
      · exact hgood wf hwf
      · rw [List.mem_singleton.mp hwf]
        exact goodWorkflow_created hcheck
    · rw [List.map_append]
      exact List.mem_append_left _ he
  | @moved raw e toState reason hcheck =>
    have hrow : ∀ wf : WorkflowInstance, (if wf.escrowIdHex = e then { wf with state := toState }
        else wf).escrowIdHex = wf.escrowIdHex := by
      intro wf
      split <;> rfl
    refine ⟨fun wf hwf => ?_, ?_⟩
    · obtain ⟨old, hold, rfl⟩ := List.mem_map.mp hwf
      split
      · exact hgood old hold
      · exact hgood old hold
    · have hsame : (flows.setState e toState).workflows.map (·.escrowIdHex)
          = flows.workflows.map (·.escrowIdHex) := by
        rw [FlowDb.setState, List.map_map]
        exact List.map_congr_left fun wf _ => hrow wf
      rw [hsame]
      exact fun _ he => he
  | _ => exact ⟨hgood, fun _ he => he⟩

theorem mem_ids {flows : FlowDb} {e : String} {wf : WorkflowInstance}
    (h : flows.workflow e = some wf) : e ∈ flows.workflows.map (·.escrowIdHex) :=
  List.mem_map.mpr ⟨wf, List.mem_of_find?_eq_some h, by simpa using List.find?_some h⟩

theorem goodProposal_checked {e action tx hash : String} {p : ProposalBlob}
    (h : db.checkProposal e action tx hash = .ok p) :
    p.escrowIdHex ∈ db.flows.workflows.map (·.escrowIdHex) ∧ GoodProposal HexText p := by
  simp only [ControlDb.checkProposal, bind_eq_ok, okOr_eq_ok, failIf_eq_ok, pure_eq_ok,
    exists_unit] at h
  obtain ⟨_, -, act, haction, _, htx, _, hhash, wf, hwf, -, rfl⟩ := h
  refine ⟨mem_ids hwf, ?_, normalizeEvenHex_idem htx _, .normalized hhash⟩
  simp only [normalizeAction, bind_eq_ok, failIf_eq_ok, pure_eq_ok, exists_unit] at haction
  obtain ⟨hknown, heq⟩ := haction
  rw [heq] at hknown
  have hone : act = "release" ∨ act = "refund" := by
    by_contra hneither
    exact hknown (not_or.mp hneither)
  clear heq hknown
  rcases hone with rfl | rfl
  · exact ⟨"release", by dsimp only; decide⟩
  · exact ⟨"refund", by dsimp only; decide⟩

/-- The round of a role stays the round of the role when both are normalised again. -/
theorem goodRound {role round round' : String}
    (h : normalizeQuorumSignRoundForRole role round = .ok round') :
    quorumRound (toAsciiLowercase (trim role)) = some (toAsciiLowercase (trim round')) := by
  simp only [normalizeQuorumSignRoundForRole, bind_eq_ok, failIf_eq_ok, exists_unit, okOr_eq_ok,
    pure_eq_ok, not_not] at h
  obtain ⟨-, expected, hexpected, heq, hround⟩ := h
  rw [← hround, heq]
  clear hround heq
  rcases (quorumRound_some hexpected).1 with rfl | rfl | rfl
  · obtain rfl : "buyer_second" = expected := Option.some.inj hexpected
    decide
  · obtain rfl : "seller_second" = expected := Option.some.inj hexpected
    decide
  · obtain rfl : "arbiter_first" = expected := Option.some.inj hexpected
    decide

theorem goodProof_checked {e role round hash jti reqId : String} {q : QuorumSignProof}
    (h : db.quorum.checkProof e role round hash jti reqId = .ok q) :
    q.key.escrowIdHex ∈ db.flows.workflows.map (·.escrowIdHex) ∧ GoodProof HexText q := by
  simp only [OrchestratorDb.checkProof, OrchestratorDb.normalizeProof, OrchestratorDb.checkWorkflow,
    bind_eq_ok, okOr_eq_ok, failIf_eq_ok, exists_unit, pure_eq_ok] at h
  obtain ⟨_, ⟨_, -, role', -, round', hround, _, hhash, jti', hjti, _, hreq, rfl⟩,
    ⟨state, hstate, -⟩, -, rfl⟩ := h
  obtain ⟨wf, hwf, -⟩ := Option.map_eq_some_iff.mp hstate
  refine ⟨mem_ids hwf, goodRound hround, .normalized hhash, ?_, .normalized hreq⟩
  obtain ⟨hne, hlen, rfl⟩ := normalizeJti_eq_ok.mp hjti
  rw [trim_trim]
  exact ⟨hne, hlen⟩

theorem Tidy.serve (h : Tidy db) (call : ControlCall) : Tidy ((control sha3).serve db call).2 := by
  cases call with
  | flow call =>
    obtain ⟨hworkflows, hids⟩ :=
      workflows_effect (serve_effect sha3 db.flows call) h.workflows
    exact ⟨hworkflows, fun p hp => ⟨hids (h.proposals p hp).1, (h.proposals p hp).2⟩,
      fun q hq => ⟨hids (h.proofs q hq).1, (h.proofs q hq).2⟩⟩
  | upsertProposalBlob e action tx hash =>
    simp only [control, control.done, ControlDb.upsertProposalBlob, ControlDb.write]
    cases hcheck : db.checkProposal e action tx hash with
    | error err => exact h
    | ok new =>
      refine ⟨h.workflows, fun p hp => ?_, h.proofs⟩
      rcases mem_upsert hp with rfl | ⟨hp, -⟩
      · exact goodProposal_checked hcheck
      · exact h.proposals p hp
  | upsertEscrowAdmissionArtifact row =>
    simp only [control, control.done, ControlDb.upsertEscrowAdmissionArtifact, ControlDb.write]
    cases db.checkAdmission row with
    | error err => exact h
    | ok new => exact ⟨h.workflows, h.proposals, h.proofs⟩
  | upsertQuorumSignProof e role round hash jti reqId =>
    simp only [control, control.done, ControlDb.upsertQuorumSignProof,
      OrchestratorDb.upsertQuorumSignProof]
    cases hcheck : db.quorum.checkProof e role round hash jti reqId with
    | error err => exact h
    | ok new =>
      refine ⟨h.workflows, h.proposals, fun q hq => ?_⟩
      rcases List.mem_append.mp hq with hq | hq
      · exact h.proofs q (List.mem_filter.mp hq).1
      · have hgood := goodProof_checked hcheck
        rw [List.mem_singleton.mp hq]
        exact hgood

theorem tidy_controlled (sha3 : List UInt8 → List UInt8) (calls : List ControlCall) :
    Tidy (controlled sha3 calls) := by
  induction calls using List.reverseRecOn with
  | nil => exact ⟨nofun, nofun, nofun⟩
  | append_singleton calls call ih =>
    rw [controlled, Server.after_snoc]
    exact ih.serve call

theorem Tidy.inOrder (h : Tidy db) (json : ParticipantsJson) :
    InOrder HexText json (db.checked json) := by
  have hids : (db.checked json).workflows.map (·.escrowIdHex)
      = db.flows.workflows.map (·.escrowIdHex) := by
    rw [ControlDb.checked, List.map_map]
    rfl
  refine ⟨fun w hw => ?_, by rw [hids]; exact h.proposals, by rw [hids]; exact h.proofs⟩
  obtain ⟨wf, hwf, rfl⟩ := List.mem_map.mp hw
  obtain ⟨hid, hsnapshot, hps⟩ := h.workflows wf hwf
  exact ⟨hid, hsnapshot, _, json.reads _, hps⟩

end

/-- **The integrity check.** What the calls leave, failing ones included, is never reported; and
    tables are well formed exactly if nothing is reported, under any limit, and nothing is padded. -/
theorem integrity_check_exact (json : ParticipantsJson) :
    (∀ sha3 calls limit, integrityCheck json limit ((controlled sha3 calls).checked json) = [])
      ∧ ∀ limit t, InOrder HexDigits json t ↔ integrityCheck json limit t = [] ∧ Unpadded t := by
  constructor
  · intro sha3 calls limit
    exact integrityCheck_eq_nil.mpr
      (offered_eq_nil.mpr ((tidy_controlled sha3 calls).inOrder json))
  · intro limit t
    rw [wellFormed_iff, integrityCheck_eq_nil, offered_eq_nil]

/-- A workflow whose id has a blank in front. -/
def paddedTables : CheckedTables :=
  ⟨[⟨" 00112233445566778899aabbccddeeff",
    "00112233445566778899aabbccddeeff00112233445566778899aabbccddeeff", "\\a,"⟩], [], []⟩

/-- **A padded id is not reported.** It has 33 characters, and not 32 digits. -/
theorem padded_id_unreported :
    (∀ limit, integrityCheck default limit paddedTables = [])
      ∧ ¬ InOrder HexDigits default paddedTables := by
  constructor
  · intro limit
    exact integrityCheck_eq_nil.mpr (by decide +kernel)
  · intro h
    exact absurd (h.workflows _ List.mem_cons_self).1.1 (by decide +kernel)

end Nexum.Orchestrator.ActionToken
