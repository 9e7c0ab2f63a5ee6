import Nexum.Signer.History
import Nexum.Signer.Rehearsal

/-!
# Where submitted bytes come from

Before it submits, the flow looks for the arbiter's evidence on the transaction set and holds the
token against it. The row of evidence may have been written at any time, by any flow, through
either of the two writes that follow a signature. `submit_provenance` follows it back: the bytes
that are submitted were signed by this signer, or are what it signed something into.
-/

namespace Nexum.Signer

open Nexum.Lib

variable {agent : SignerAgent}

theorem txsetBytes_of_hash (hsha : Function.Injective agent.crypto.sha256Hex) {tx tx' hash : String}
    (h : txsetSha256Hex agent.crypto tx = .ok hash)
    (h' : txsetSha256Hex agent.crypto tx' = .ok hash) {bytes : List UInt8}
    (hb : txsetBytes tx = some bytes) : txsetBytes tx' = some bytes := by
  obtain ⟨b, hbytes, rfl⟩ := txsetSha256Hex_ok h
  obtain ⟨b', hbytes', heq⟩ := txsetSha256Hex_ok h'
  rw [hbytes', ← hsha heq, ← hbytes, hb]

/-- What a row of the arbiter's evidence on a transaction set says about its signature. -/
theorem signature_of_evidence (hsha : Function.Injective agent.crypto.sha256Hex)
    {l : List Event} {ev : SignEvent} (hev : Evidence agent [] l ev) {escrow hash : String}
    (hkey : ev.key = arbiterKey escrow hash) {tx : String}
    (hhash : txsetSha256Hex agent.crypto tx = .ok hash) {bytes : List UInt8}
    (hbytes : txsetBytes tx = some bytes) :
    ∃ a tx' out, SignedIn agent l a tx' out ∧ a.escrowIdHex = escrow
      ∧ a.claims.role = "arbiter" ∧ a.claims.signRound = "arbiter_first" ∧ ev.jti = a.jti
      ∧ (txsetBytes tx' = some bytes ∨ txsetBytes out.txDataHex = some bytes) := by
  rcases hev with hnone | ⟨a, tx', out, hsigned, hof⟩
  · cases hnone
  have hhash' : txsetSha256Hex agent.crypto tx' = .ok a.txsetHashHex := by
    obtain ⟨_, _, _, _, _, _, h, _⟩ := hsigned
    exact h
  rcases hof with rfl | ⟨signedHash, hout, rfl⟩
  · injection hkey with hescrow hrole hround htx
    refine ⟨a, tx', out, hsigned, hescrow, hrole, hround, rfl, .inl ?_⟩
    exact txsetBytes_of_hash hsha hhash (htx ▸ hhash') hbytes
  · injection hkey with hescrow hrole hround htx
    refine ⟨a, tx', out, hsigned, hescrow, hrole, hround, rfl, .inr ?_⟩
    exact txsetBytes_of_hash hsha hhash (htx ▸ hout) hbytes

/-- **Whatever is submitted was signed before.** In every run from a database without evidence, at
    every submit call of the wallet: before it, the wallet signed for the same escrow, as the
    arbiter in its first round, under a granting token and after a policy check; the bytes
    submitted are the bytes it was asked to sign or the bytes it returned; and the accepted submit
    token quotes the token id of that signature. -/
theorem submit_provenance (hv : agent.verifier ≠ none)
    (hsha : Function.Injective agent.crypto.sha256Hex) {w₀ : World}
    (hempty : w₀.db.signEvents = []) {p : Pool World Request Call Call.Out String Reply}
    (hrun : Pool.Run (node agent) Pool.anyStep w₀ p) {after before : List Event} {i : Nat}
    {q : Request} {on : Option Authority} {tx : String} {r : Except String (List String)}
    (hlog : p.log = after ++ .did i q (.submitMultisig on tx) r :: before) :
    ∃ a bytes, on = some a ∧ Granted agent q.token "submit_multisig" a
      ∧ txsetBytes tx = some bytes
      ∧ ∃ a' tx' out, SignedIn agent before a' tx' out ∧ a'.escrowIdHex = a.escrowIdHex
        ∧ a'.claims.role = "arbiter" ∧ a'.claims.signRound = "arbiter_first"
        ∧ (txsetBytes tx' = some bytes ∨ txsetBytes out.txDataHex = some bytes)
        ∧ trimmedNonEmpty a.claims.proofArbiterJti = some a'.jti := by
  obtain ⟨G, hacc⟩ := run_accounted hv hrun
  rw [hempty] at hacc
  obtain ⟨g, hback, hmay⟩ := hacc.lawful after before i q (.submitMultisig on tx) r hlog
  cases on with
  | none => exact hmay.elim
  | some a =>
    obtain ⟨hcleared, ev, hproof, hkey, hjti⟩ := hmay
    obtain ⟨bytes, hbytes, -⟩ := txsetSha256Hex_ok hcleared.hash
    obtain ⟨a', tx', out, hsigned, hescrow, hrole, hround, hj, hb⟩ :=
      signature_of_evidence hsha (hback.proof ev hproof) hkey hcleared.hash hbytes
    refine ⟨a, bytes, rfl, hback.token ▸ hcleared.granted, hbytes, a', tx', out, hsigned, hescrow,
      hrole, hround, hb, ?_⟩
    rw [hjti, hj]

/-- The first transaction set is signed, which gives the second, and that one is submitted. -/
def signedThenSubmitted : List (Act Request Mode) :=
  [.start 0 (signReq "aa" "sign-a-1"), .calls 0 (List.replicate 15 .works), .close 0,
    .start 1 (.submit sampleEscrow .release "bb" (some "submit-b-4")),
    .calls 1 (List.replicate 11 .works)]

/-- The last event is a submit call of the wallet. -/
def justSubmitted (tx : String) : List Event → Bool
  | .did _ _ (.submitMultisig _ tx') _ :: _ => tx' = tx
  | _ => false

/-- The submit call is found again by `hlog`. -/
theorem submit_provenance_signed :
    ∃ (before : List Event) (q : Request) (a : Authority) (bytes : List UInt8),
      Granted sampleAgent q.token "submit_multisig" a ∧ txsetBytes "bb" = some bytes
      ∧ ∃ a' tx' out, SignedIn sampleAgent before a' tx' out ∧ a'.escrowIdHex = a.escrowIdHex
        ∧ a'.claims.role = "arbiter" ∧ a'.claims.signRound = "arbiter_first"
        ∧ (txsetBytes tx' = some bytes ∨ txsetBytes out.txDataHex = some bytes)
        ∧ trimmedNonEmpty a.claims.proofArbiterJti = some a'.jti := by
  have hplay : (rehearse freely signedThenSubmitted).any (fun p => justSubmitted "bb" p.log)
      = true := by
    decide +kernel
  obtain ⟨p, hrun, hp⟩ := rehearse_anyStep hplay
  unfold justSubmitted at hp
  split at hp
  · rename_i i q on tx r before hlog
    cases of_decide_eq_true hp
    obtain ⟨a, bytes, -, h⟩ := submit_provenance (Option.some_ne_none _) sampleDigest.injective
      rfl hrun (show p.log = [] ++ _ from hlog)
    exact ⟨before, q, a, bytes, h⟩
  · cases hp

end Nexum.Signer
