import Nexum.Lib.Digest
import Nexum.Signer.Lifecycle

/-!
# Names that mean one thing

Requests and rows of evidence are found again by text: a request id is the digest of
`escrow|op|round|hash`, a row is keyed by escrow, role, round and hash, and the orchestrator
normalises every one of these before it stores it. Here it is shown, for collision-free digests
and normalised escrow ids, that these names can be relied on: a request id belongs to one escrow
and one transaction set, and **a row reaches the orchestrator under the key it has here**.
-/

namespace Nexum.Signer

open Nexum.Lib Nexum.Lib.Check
open Nexum.Orchestrator (ProofKey QuorumSignProof OrchestratorDb)

/-! ## 1. Request ids -/

/-- An escrow id that normalising leaves as it is. -/
def NormalEscrow (escrowIdHex : String) : Prop :=
  normalizeHexExact escrowIdHex 32 "escrow_id_hex" = .ok escrowIdHex

/-- **A request id names one escrow and one transaction set.** -/
theorem signReqId_inj {cr : Crypto} (hsha : Function.Injective cr.sha256Hex)
    {e e' op round h h' : String} (he : NormalEscrow e) (he' : NormalEscrow e')
    (heq : signReqId cr e op round h = signReqId cr e' op round h') : e = e' ∧ h = h' := by
  have htext := congrArg String.toList (utf8_injective (hsha heq))
  simp only [toString, String.toList_append, List.append_assoc] at htext
  have hlen : e.toList.length = e'.toList.length :=
    (length_of_normalizeHex he).trans (length_of_normalizeHex he').symm
  obtain ⟨hescrow, hrest⟩ := List.append_inj htext hlen
  refine ⟨String.toList_injective hescrow, String.toList_injective ?_⟩
  simpa only [List.append_cancel_left_eq] using hrest

/-! ## 2. Transaction sets -/

theorem txsetSha256Hex_of_valid {cr : Crypto} {tx tx' hash : String} {n : Nat}
    (hv : validateTxDataHex tx n = .ok tx') (h : txsetSha256Hex cr tx' = .ok hash) :
    txsetSha256Hex cr tx = .ok hash := by
  simp only [validateTxDataHex, checkTxHex, bind_eq_ok, failIf_eq_ok, pure_eq_ok, exists_unit] at hv
  obtain ⟨⟨hne, -, hhex⟩, rfl⟩ := hv
  have hall : ∀ c ∈ (trim tx).toList, isAsciiHexdigit c = true := by
    simpa [chars_eq] using (not_or.mp hhex).2
  simp only [txsetSha256Hex, txsetBytes, bind_eq_ok, failIf_eq_ok, okOr_eq_ok, pure_eq_ok,
    exists_unit, hexDecode_toAsciiLowercase hall] at h ⊢
  exact ⟨hne, h.2⟩

variable {agent : SignerAgent} {a : Authority} {token : Option String} {op tx : String}

theorem hash_canonical (hd : DigestLike agent.crypto.sha256Hex) {hash : String}
    (h : txsetSha256Hex agent.crypto tx = .ok hash) : toAsciiLowercase (trim hash) = hash := by
  obtain ⟨bytes, -, rfl⟩ := txsetSha256Hex_ok h
  exact hd.canonical bytes

theorem Granted.reqId_eq (hd : DigestLike agent.crypto.sha256Hex) (hg : Granted agent token op a)
    (hh : txsetSha256Hex agent.crypto tx = .ok a.txsetHashHex) :
    a.reqId = signReqId agent.crypto a.escrowIdHex op a.claims.signRound a.txsetHashHex := by
  obtain ⟨hash, hnorm, hreq⟩ := hg.reqId
  obtain ⟨-, -, rfl⟩ := normalizeHex_eq_ok.mp hnorm
  rw [hreq, hash_canonical hd hh]

theorem Granted.unique {a' : Authority} (h : Granted agent token op a)
    (h' : Granted agent token op a') (hhash : a.txsetHashHex = a'.txsetHashHex) : a = a' := by
  obtain ⟨t, rfl, hjwt⟩ := h.claims
  obtain ⟨t', ht, hjwt'⟩ := h'.claims
  cases ht
  have hclaims : a.claims = a'.claims := Except.ok.inj (hjwt.symm.trans hjwt')
  have hescrow : a.escrowIdHex = a'.escrowIdHex := by rw [← h.escrow, ← h'.escrow, hclaims]
  obtain ⟨hash, hnorm, hreq⟩ := h.reqId
  obtain ⟨hash', hnorm', hreq'⟩ := h'.reqId
  have hsame : hash = hash' := Except.ok.inj (hnorm.symm.trans (hhash ▸ hnorm'))
  have hreqId : a.reqId = a'.reqId := by rw [hreq, hreq', hescrow, hclaims, hsame]
  cases a
  cases a'
  exact (Authority.mk.injEq ..).mpr ⟨hreqId, hclaims, hescrow, hhash⟩

/-! ## 3. Keys of evidence -/

/-- A key all of whose parts are normalised, of a signature made in the signer's own role. -/
structure NormalKey (own : SignerRole) (key : ProofKey) : Prop where
  escrow : NormalEscrow key.escrowIdHex
  role : key.role = roleKey own
  round : key.signRound = expectedSignRound own
  hash : toAsciiLowercase (trim key.txsetHashHex) = key.txsetHashHex

theorem normalKey_requested (hd : DigestLike agent.crypto.sha256Hex) {v : ActionTokenVerifier}
    (hv : agent.verifier = some v) (hg : Granted agent token "sign_multisig" a)
    (he : NormalEscrow a.escrowIdHex) (hh : txsetSha256Hex agent.crypto tx = .ok a.txsetHashHex) :
    NormalKey v.signerRole (requestedEvent a).key := by
  obtain ⟨v', hv', hrole, hround⟩ := hg.role
  rw [hv] at hv'
  cases hv'
  exact ⟨he, hrole, hround rfl, hash_canonical hd hh⟩

theorem normalKey_artifact (hd : DigestLike agent.crypto.sha256Hex) {v : ActionTokenVerifier}
    (hv : agent.verifier = some v) (hg : Granted agent token "sign_multisig" a)
    (he : NormalEscrow a.escrowIdHex) {hash : String}
    (hh : txsetSha256Hex agent.crypto tx = .ok hash) :
    NormalKey v.signerRole (artifactEvent agent.crypto a hash).key := by
  obtain ⟨v', hv', hrole, hround⟩ := hg.role
  rw [hv] at hv'
  cases hv'
  exact ⟨he, hrole, hround rfl, hash_canonical hd hh⟩

theorem normalize_role (role : SignerRole) :
    Orchestrator.normalizeNonEmpty (roleKey role) "role" = .ok (roleKey role)
      ∧ Orchestrator.normalizeNonEmpty (expectedSignRound role) "sign_round"
        = .ok (expectedSignRound role)
      ∧ Orchestrator.normalizeWorkerRole (roleKey role) = .ok (roleKey role)
      ∧ Orchestrator.normalizeQuorumSignRoundForRole (roleKey role) (expectedSignRound role)
        = .ok (expectedSignRound role) := by
  cases role <;> exact ⟨rfl, rfl, rfl, rfl⟩

variable {role : SignerRole}

theorem normalizeForStore_ok {ev row : SignEvent} (hk : NormalKey role ev.key)
    (h : normalizeForStore ev = .ok row) :
    row = ⟨ev.key, trim ev.jti, toAsciiLowercase (trim ev.reqId)⟩ := by
  obtain ⟨⟨escrow, r, round, hash⟩, jti, reqId⟩ := ev
  obtain ⟨hescrow, rfl, rfl, hhash⟩ := hk
  obtain ⟨hrole, hround, -, -⟩ := normalize_role role
  simp only [normalizeForStore, bind_eq_ok, failIf_eq_ok, pure_eq_ok, exists_unit, hrole, hround,
    Except.ok.injEq, exists_eq_left'] at h
  obtain ⟨escrow', he, hash', hh, jti', hj, -, reqId', hr, rfl⟩ := h
  obtain ⟨-, hj⟩ := Orchestrator.normalizeNonEmpty_eq_ok.mp hj
  have he : escrow' = escrow := Except.ok.inj (he.symm.trans hescrow)
  obtain ⟨-, -, hh⟩ := normalizeHex_eq_ok.mp hh
  obtain ⟨-, -, hr⟩ := normalizeHex_eq_ok.mp hr
  rw [← hj, ← hh, ← hr, he, hhash]

theorem normalizeForStore_reqId {ev row : SignEvent} (h : normalizeForStore ev = .ok row) :
    trimmedNonEmpty (some row.reqId) = some row.reqId := by
  simp only [normalizeForStore, bind_eq_ok, failIf_eq_ok, pure_eq_ok, exists_unit] at h
  obtain ⟨_, -, _, -, _, -, _, -, _, -, -, reqId, hreq, rfl⟩ := h
  exact trimmedNonEmpty_of_normalizeHex (by decide) hreq

theorem normalizeProof_ok {ev : SignEvent} {pr : QuorumSignProof} (hk : NormalKey role ev.key)
    (h : OrchestratorDb.normalizeProof ev.key.escrowIdHex ev.key.role ev.key.signRound
      ev.key.txsetHashHex ev.jti ev.reqId = .ok pr) :
    pr = ⟨ev.key, trim ev.jti, toAsciiLowercase (trim ev.reqId)⟩ := by
  obtain ⟨⟨escrow, r, round, hash⟩, jti, reqId⟩ := ev
  obtain ⟨hescrow, rfl, rfl, hhash⟩ := hk
  obtain ⟨-, -, hrole, hround⟩ := normalize_role role
  simp only [OrchestratorDb.normalizeProof, bind_eq_ok, pure_eq_ok, hrole, hround, Except.ok.injEq,
    exists_eq_left'] at h
  obtain ⟨escrow', he, hash', hh, jti', hj, reqId', hr, rfl⟩ := h
  obtain ⟨-, -, hj⟩ := Orchestrator.normalizeJti_eq_ok.mp hj
  have he : escrow' = escrow := Except.ok.inj (he.symm.trans hescrow)
  obtain ⟨-, -, hh⟩ := normalizeHex_eq_ok.mp hh
  obtain ⟨-, -, hr⟩ := normalizeHex_eq_ok.mp hr
  rw [← hj, ← hh, ← hr, he, hhash]

end Nexum.Signer
