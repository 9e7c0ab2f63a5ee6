import Nexum.Trust.Identity

/-!
# The quorum of the guards

A bundle, or an admission artifact under a bundle, needs two signatures: one by a host with the
role `ag-01` and one by a host with the role `ag-02`. What the two checks have in common is
`GuardQuorum`; each of them is exactly that, with conditions of its own on the document
(`verifyGuardQuorum_eq_ok`, `verifyAgainstBundle_eq_ok`).

The hosts that sign are told apart by their ids and their roles. **Nothing tells their keys
apart**: a bundle may list one key twice, and then the holder of that key makes both signatures
(`one_key_makes_the_quorum`). The quorum stands for two keys exactly if the two signatures do not
name the same one (`signed_under_two_keys_iff`).
-/

namespace Nexum.Trust

open Nexum.Lib Nexum.Lib.Check
open Nexum.Transport (EscrowAdmissionArtifact EscrowAdmissionSignature requiredGuardRoles
  normalizeNonEmpty validateHexExact escrowAdmissionSigAlg)

/-! ## 1. What the checks ask for -/

theorem normalizeNonEmpty_eq_ok {value field s : String} {maxLen : Nat} :
    normalizeNonEmpty value field maxLen = .ok s
      ↔ (trim value ≠ "" ∧ (trim value).utf8ByteSize ≤ maxLen) ∧ s = trim value := by
  have hcond : ¬ (trim value = "" ∨ (trim value).utf8ByteSize > maxLen)
      ↔ trim value ≠ "" ∧ (trim value).utf8ByteSize ≤ maxLen := by
    rw [not_or, Nat.not_lt]
  rw [← hcond]
  by_cases h : trim value = "" ∨ (trim value).utf8ByteSize > maxLen
  · simp [normalizeNonEmpty, h]
  · simp only [normalizeNonEmpty, h, if_false, not_false_eq_true, true_and, Except.ok.injEq]
    exact eq_comm

theorem decodeB64_eq_ok {s : String} {bytes : List UInt8} :
    decodeB64 s = .ok bytes ↔ s = b64Encode bytes := by
  rw [decodeB64, okOr_eq_ok, b64Decode_eq_some]

/-- A signature of either kind of document, as far as the quorum is concerned. -/
structure Voucher where
  id : String
  role : String
  sigPkB64 : String
  sigB64 : String

def RuntimeTrustSignature.voucher (s : RuntimeTrustSignature) : Voucher :=
  ⟨trim s.signerId, trim s.signerRole, s.sigPkB64, s.sigB64⟩

def admissionVoucher (s : EscrowAdmissionSignature) : Voucher :=
  ⟨trim s.signerId, trim s.signerRole, s.sigPkB64, s.sigB64⟩

/-- Two vouchers have neither the id nor the role in common. -/
def Voucher.Apart (v w : Voucher) : Prop := v.id ≠ w.id ∧ v.role ≠ w.role

section
variable {ρ : Type} {cr : TrustCrypto ρ} {peers : List RuntimeTrustPeer} {b : RuntimeTrustBundle}
  {hash : String} {msg : List UInt8}

/-- The voucher is a guard's: the host listed under its id has its role and its key, and the
    signature verifies under that key. -/
structure Vouches (cr : TrustCrypto ρ) (peers : List RuntimeTrustPeer) (msg : List UInt8)
    (v : Voucher) (peer : RuntimeTrustPeer) (pk sig : List UInt8) : Prop where
  found : peers.find? (·.id == v.id) = some peer
  guard : v.role ∈ requiredGuardRoles
  sameRole : peer.role = v.role
  sameKey : peer.sigPkB64 = v.sigPkB64
  key : v.sigPkB64 = b64Encode pk
  signature : v.sigB64 = b64Encode sig
  verified : falconVerify cr pk msg sig = .ok ()

/-- **The quorum**: two vouchers of guards, by two ids and for two roles. -/
structure GuardQuorum (cr : TrustCrypto ρ) (peers : List RuntimeTrustPeer) (msg : List UInt8)
    (vs : List Voucher) : Prop where
  two : vs.length = 2
  apart : vs.Pairwise Voucher.Apart
  vouched : ∀ v ∈ vs, ∃ peer pk sig, Vouches cr peers msg v peer pk sig

theorem mem_requiredGuardRoles {role : String} :
    role ∈ requiredGuardRoles ↔ role = "ag-01" ∨ role = "ag-02" := by
  simp [requiredGuardRoles]

theorem GuardQuorum.pair {vs : List Voucher}
    (h : GuardQuorum cr peers msg vs) : ∃ v₁ v₂, v₁.role = "ag-01" ∧ v₂.role = "ag-02"
      ∧ (vs = [v₁, v₂] ∨ vs = [v₂, v₁]) := by
  obtain ⟨v, w, rfl⟩ := List.length_eq_two.mp h.two
  obtain ⟨_, _, _, hv⟩ := h.vouched v (by simp)
  obtain ⟨_, _, _, hw⟩ := h.vouched w (by simp)
  have hne : v.role ≠ w.role := (List.rel_of_pairwise_cons h.apart (by simp)).2
  rcases mem_requiredGuardRoles.mp hv.guard with h₁ | h₁
  · rcases mem_requiredGuardRoles.mp hw.guard with h₂ | h₂
    · exact absurd (h₁.trans h₂.symm) hne
    · exact ⟨v, w, h₁, h₂, .inl rfl⟩
  · rcases mem_requiredGuardRoles.mp hw.guard with h₂ | h₂
    · exact ⟨w, v, h₂, h₁, .inr rfl⟩
    · exact absurd (h₁.trans h₂.symm) hne

theorem GuardQuorum.covers {vs : List Voucher}
    (h : GuardQuorum cr peers msg vs) : ∀ role ∈ requiredGuardRoles, role ∈ vs.map (·.role) := by
  obtain ⟨v₁, v₂, h₁, h₂, hvs⟩ := h.pair
  intro role hrole
  rcases mem_requiredGuardRoles.mp hrole with rfl | rfl <;> rcases hvs with rfl | rfl <;>
    simp [h₁, h₂]

/-! ### The two loops

Both loops pass on the ids and roles they have seen; `Apart` on those is `Voucher.Apart`. -/

theorem not_seen_iff {seen : List (String × String)} {id role : String} :
    (id ∉ seen.map Prod.fst ∧ role ∉ seen.map Prod.snd) ↔ ∀ k ∈ seen, k.1 ≠ id ∧ k.2 ≠ role := by
  simp only [List.mem_map, not_exists, not_and]
  constructor
  · intro h k hk
    exact ⟨h.1 k hk, h.2 k hk⟩
  · intro h
    exact ⟨fun k hk => (h k hk).1, fun k hk => (h k hk).2⟩

theorem checkGuard_eq_ok
    {seen : List (String × String)} {s : RuntimeTrustSignature} {key : String × String} :
    checkGuard cr peers hash msg seen s = .ok key ↔
      ((validateSignatureMetadata s = .ok () ∧ toAsciiLowercase (trim s.hashHex) = hash)
        ∧ ∃ peer pk sig, Vouches cr peers msg s.voucher peer pk sig)
      ∧ (∀ k ∈ seen, k.1 ≠ trim s.signerId ∧ k.2 ≠ trim s.signerRole)
      ∧ key = (trim s.signerId, trim s.signerRole) := by
  simp only [checkGuard, bind_eq_ok, failIf_eq_ok, okOr_eq_ok, pure_eq_ok, exists_unit, not_not,
    decodeB64_eq_ok, ne_eq]
  rw [← not_seen_iff]
  constructor
  · rintro ⟨hmeta, hguard, hid, hrole, hhash, peer, hfound, hsame, hkey, pk, hpk, sig, hsig,
      hverified, rfl⟩
    exact ⟨⟨⟨hmeta, hhash⟩, peer, pk, sig, hfound, hguard, hsame, hkey, hpk, hsig, hverified⟩,
      ⟨hid, hrole⟩, rfl⟩
  · rintro ⟨⟨⟨hmeta, hhash⟩, peer, pk, sig, h⟩, ⟨hid, hrole⟩, rfl⟩
    exact ⟨hmeta, h.guard, hid, hrole, hhash, peer, h.found, h.sameRole, h.sameKey, pk, h.key, sig,
      h.signature, h.verified, rfl⟩

theorem checkGuards_eq_seenM (seen : List (String × String)) (sigs : List RuntimeTrustSignature) :
    checkGuards cr peers hash msg seen sigs = seenM (checkGuard cr peers hash msg) seen sigs := by
  induction sigs generalizing seen with
  | nil => rfl
  | cons s sigs ih =>
    simp only [checkGuards, seenM]
    congr 1
    funext key
    exact ih _

theorem forAdmission_find {id : String} {q : Transport.RuntimeTrustPeer} :
    b.forAdmission.peers.find? (·.id == id) = some q
      ↔ ∃ p, b.peers.find? (·.id == id) = some p ∧ (⟨p.id, p.role, p.sigPkB64⟩ : _) = q := by
  simp only [RuntimeTrustBundle.forAdmission, List.find?_map, Function.comp_def,
    Option.map_eq_some_iff]

/-- What admission asks of a signature beside the voucher. -/
structure AdmissionMetadata (hash : String) (s : EscrowAdmissionSignature) : Prop where
  id : (trim s.signerId).utf8ByteSize ≤ 128 ∧ trim s.signerId ≠ ""
  role : (trim s.signerRole).utf8ByteSize ≤ 128 ∧ trim s.signerRole ≠ ""
  alg : trim s.alg = escrowAdmissionSigAlg
  hash : toAsciiLowercase (trim s.hashHex) = hash

theorem checkSignature_eq_ok
    {seen : List (String × String)} {s : EscrowAdmissionSignature} {key : String × String} :
    EscrowAdmissionArtifact.checkSignature cr.admission b.forAdmission hash msg seen s = .ok key ↔
      (AdmissionMetadata hash s
        ∧ ∃ peer pk sig, Vouches cr b.peers msg (admissionVoucher s) peer pk sig)
      ∧ (∀ k ∈ seen, k.1 ≠ trim s.signerId ∧ k.2 ≠ trim s.signerRole)
      ∧ key = (trim s.signerId, trim s.signerRole) := by
  simp only [EscrowAdmissionArtifact.checkSignature, bind_eq_ok, failIf_eq_ok, okOr_eq_ok,
    pure_eq_ok, exists_unit, not_not, ne_eq, normalizeNonEmpty_eq_ok, forAdmission_find,
    TrustCrypto.admission, decodeB64_eq_ok]
  rw [← not_seen_iff]
  constructor
  · rintro ⟨_, ⟨hid, rfl⟩, _, ⟨hrole, rfl⟩, hguard, hnew, hnew', halg, hhash, _,
      ⟨peer, hfound, rfl⟩, hsame, hkey, pk, hpk, sig, hsig, hverified, rfl⟩
    exact ⟨⟨⟨hid.symm, hrole.symm, halg, hhash⟩, peer, pk, sig, hfound, hguard, hsame, hkey, hpk,
      hsig, hverified⟩, ⟨hnew, hnew'⟩, rfl⟩
  · rintro ⟨⟨hmeta, peer, pk, sig, h⟩, ⟨hnew, hnew'⟩, rfl⟩
    exact ⟨_, ⟨hmeta.id.symm, rfl⟩, _, ⟨hmeta.role.symm, rfl⟩, h.guard, hnew, hnew', hmeta.alg,
      hmeta.hash, _, ⟨peer, h.found, rfl⟩, h.sameRole, h.sameKey, pk, h.key, sig, h.signature,
      h.verified, rfl⟩

theorem checkSignatures_eq_seenM
    (seen : List (String × String)) (sigs : List EscrowAdmissionSignature) :
    EscrowAdmissionArtifact.checkSignatures cr.admission b.forAdmission hash msg seen sigs
      = seenM (EscrowAdmissionArtifact.checkSignature cr.admission b.forAdmission hash msg)
          seen sigs := by
  induction sigs generalizing seen with
  | nil => rfl
  | cons s sigs ih =>
    simp only [EscrowAdmissionArtifact.checkSignatures, seenM]
    congr 1
    funext key
    exact ih _

/-! ### The two checks -/

/-- What both checks do after their loop: if every item is vouched for and the keys are apart, the
    roles are covered, so the last look finds nothing missing. -/
theorem quorum_of_loop {α : Type}
    (f : List (String × String) → α → Except String (String × String)) (P : α → Prop)
    (voucher : α → Voucher) (text : String → String) (items : List α)
    (hf : ∀ seen a k, f seen a = .ok k ↔
      (P a ∧ ∃ peer pk sig, Vouches cr peers msg (voucher a) peer pk sig)
      ∧ (∀ k' ∈ seen, k'.1 ≠ (voucher a).id ∧ k'.2 ≠ (voucher a).role)
      ∧ k = ((voucher a).id, (voucher a).role)) :
    (items.length = requiredGuardRoles.length ∧ ∃ seen, seenM f [] items = .ok seen
        ∧ (requiredGuardRoles.forM fun role =>
            failIf (role ∉ seen.map Prod.snd) (text role)) = .ok ())
      ↔ (∀ a ∈ items, P a) ∧ GuardQuorum cr peers msg (items.map voucher) := by
  have hloop : ∀ seen, seenM f [] items = .ok seen
      ↔ (∀ a ∈ items, P a ∧ ∃ peer pk sig, Vouches cr peers msg (voucher a) peer pk sig)
        ∧ (items.map voucher).Pairwise Voucher.Apart
        ∧ seen = items.map fun a => ((voucher a).id, (voucher a).role) := by
    intro seen
    rw [seenM_eq_ok f (fun a => P a ∧ ∃ peer pk sig, Vouches cr peers msg (voucher a) peer pk sig)
      (fun a => ((voucher a).id, (voucher a).role)) (fun k k' => k.1 ≠ k'.1 ∧ k.2 ≠ k'.2) hf]
    simp only [List.not_mem_nil, false_implies, implies_true, true_and, List.nil_append,
      List.pairwise_map, Voucher.Apart]
  have hcover : ∀ role, role ∈ (items.map fun a => ((voucher a).id, (voucher a).role)).map Prod.snd
      ↔ role ∈ (items.map voucher).map (·.role) := by
    intro role
    simp only [List.map_map, Function.comp_def]
  constructor
  · rintro ⟨hlen, seen, hseen, -⟩
    obtain ⟨hall, hapart, -⟩ := (hloop seen).mp hseen
    refine ⟨fun a ha => (hall a ha).1, by rw [List.length_map, hlen]; rfl, hapart, ?_⟩
    intro v hv
    obtain ⟨a, ha, rfl⟩ := List.mem_map.mp hv
    exact (hall a ha).2
  · rintro ⟨hall, hquorum⟩
    refine ⟨(List.length_map ..).symm.trans hquorum.two, _,
      (hloop _).mpr ⟨?_, hquorum.apart, rfl⟩, ?_⟩
    · intro a ha
      exact ⟨hall a ha, hquorum.vouched _ (List.mem_map_of_mem ha)⟩
    · rw [forM_eq_ok]
      intro role hrole
      rw [failIf_eq_ok, not_not, hcover]
      exact hquorum.covers role hrole

theorem hexDecode_hashHex (b : RuntimeTrustBundle) :
    hexDecode (b.hashHex cr) = some (b.digest cr).data :=
  hexDecode_hexEncode _

/-- **What a bundle is accepted for**: it is in order, its signatures name its hash, and they are a
    quorum on its digest. -/
theorem verifyGuardQuorum_eq_ok : b.verifyGuardQuorum cr = .ok () ↔ b.validate = .ok ()
      ∧ (∀ s ∈ b.signatures, validateSignatureMetadata s = .ok ()
        ∧ toAsciiLowercase (trim s.hashHex) = b.hashHex cr)
      ∧ GuardQuorum cr b.peers (b.digest cr).data
          (b.signatures.map RuntimeTrustSignature.voucher) := by
  have hloop := quorum_of_loop (checkGuard cr b.peers (b.hashHex cr) (b.digest cr).data)
    (fun s => validateSignatureMetadata s = .ok ()
      ∧ toAsciiLowercase (trim s.hashHex) = b.hashHex cr) RuntimeTrustSignature.voucher
    (fun role => s!"missing runtime trust signature for guard role '{role}'") b.signatures
    (fun seen s k => checkGuard_eq_ok)
  simp only [RuntimeTrustBundle.verifyGuardQuorum, bind_eq_ok, failIf_eq_ok, okOr_eq_ok,
    exists_unit, not_not, ne_eq, hexDecode_hashHex, Option.some.injEq, exists_eq_left',
    checkGuards_eq_seenM]
  rw [hloop]

theorem hexDecode_admissionHash (a : EscrowAdmissionArtifact) :
    hexDecode (a.hashHex cr.admission) = some (admissionDigest cr a).data :=
  hexDecode_hexEncode _

/-- **What an artifact is accepted for**, in the same terms. -/
theorem verifyAgainstBundle_eq_ok {a : EscrowAdmissionArtifact} :
    a.verifyAgainstBundle cr.admission b.forAdmission = .ok () ↔ a.validateUnsigned = .ok ()
      ∧ trim a.runtimeTrustEpoch = trim b.trustEpoch
      ∧ (∀ s ∈ a.signatures, AdmissionMetadata (a.hashHex cr.admission) s)
      ∧ GuardQuorum cr b.peers (admissionDigest cr a).data
          (a.signatures.map admissionVoucher) := by
  have hloop := quorum_of_loop
    (EscrowAdmissionArtifact.checkSignature cr.admission b.forAdmission (a.hashHex cr.admission)
      (admissionDigest cr a).data)
    (AdmissionMetadata (a.hashHex cr.admission)) admissionVoucher
    (fun role => s!"missing escrow admission signature for guard role '{role}'") a.signatures
    (fun seen s k => checkSignature_eq_ok)
  simp only [EscrowAdmissionArtifact.verifyAgainstBundle, bind_eq_ok, failIf_eq_ok, okOr_eq_ok,
    exists_unit, not_not, ne_eq, hexDecode_admissionHash, Option.some.injEq, exists_eq_left',
    checkSignatures_eq_seenM]
  rw [hloop]
  rfl

/-! ### Validated bundles -/

/-- What the loop over the hosts asks of each of them, whatever came before. -/
def ValidPeer (p : RuntimeTrustPeer) : Prop := validatePeer [] p = .ok (trim p.id)

theorem validatePeer_eq_ok {seen : List String} {p : RuntimeTrustPeer} {id : String} :
    validatePeer seen p = .ok id
      ↔ ValidPeer p ∧ (∀ id' ∈ seen, id' ≠ trim p.id) ∧ id = trim p.id := by
  have hseen : trim p.id ∉ seen ↔ ∀ id' ∈ seen, id' ≠ trim p.id := by
    constructor
    · intro h id' hid' heq
      exact h (heq ▸ hid')
    · intro h hmem
      exact h _ hmem rfl
  simp only [ValidPeer, validatePeer, bind_eq_ok, failIf_eq_ok, exists_unit, pure_eq_ok, hseen,
    List.not_mem_nil, not_false_eq_true, true_and, and_true]
  constructor
  · rintro ⟨hid, hnew, hrest, h₁, h₂, h₃, h₄, h₅, h₆, rfl⟩
    exact ⟨⟨hid, hrest, h₁, h₂, h₃, h₄, h₅, h₆⟩, hnew, rfl⟩
  · rintro ⟨⟨hid, hrest, h₁, h₂, h₃, h₄, h₅, h₆⟩, hnew, rfl⟩
    exact ⟨hid, hnew, hrest, h₁, h₂, h₃, h₄, h₅, h₆, rfl⟩

theorem validatePeers_eq_seenM (seen : List String) (peers : List RuntimeTrustPeer) :
    validatePeers seen peers = .ok () ↔ ∃ out, seenM validatePeer seen peers = .ok out := by
  induction peers generalizing seen with
  | nil => simp [validatePeers, seenM]
  | cons p peers ih =>
    simp only [validatePeers, seenM, bind_eq_ok, ih]
    constructor
    · rintro ⟨id, hid, out, hout⟩
      exact ⟨out, id, hid, hout⟩
    · rintro ⟨out, id, hid, hout⟩
      exact ⟨id, hid, out, hout⟩

theorem validatePeers_eq_ok : validatePeers [] peers = .ok ()
    ↔ (∀ p ∈ peers, ValidPeer p) ∧ (peers.map fun p => trim p.id).Nodup := by
  rw [validatePeers_eq_seenM]
  simp only [seenM_eq_ok validatePeer ValidPeer (fun p => trim p.id) (fun i j => i ≠ j)
    (fun seen p id => validatePeer_eq_ok), List.not_mem_nil, false_implies, implies_true, true_and,
    List.nil_append, exists_and_left, exists_eq, and_true]
  rfl

theorem id_of_find {id : String} {p : RuntimeTrustPeer}
    (h : peers.find? (·.id == id) = some p) : p.id = id := by
  simpa using List.find?_some h

/-- **What makes a bundle valid**, the signatures apart. -/
structure ValidContent (b : RuntimeTrustBundle) : Prop where
  schema : trim b.schema = runtimeTrustBundleSchemaV1
  epoch : trim b.trustEpoch ≠ "" ∧ (trim b.trustEpoch).utf8ByteSize ≤ 128
  nonempty : b.peers ≠ []
  peers : ∀ p ∈ b.peers, ValidPeer p
  ids : (b.peers.map fun p => trim p.id).Nodup
  issuer : b.actionToken.validate = .ok ()

theorem validate_eq_ok : b.validate = .ok ()
    ↔ ValidContent b ∧ ∀ s ∈ b.signatures, validateSignatureMetadata s = .ok () := by
  simp only [RuntimeTrustBundle.validate, bind_eq_ok, failIf_eq_ok, exists_unit, not_not, ne_eq,
    validatePeers_eq_ok, forM_eq_ok, not_or, Nat.not_lt, gt_iff_lt]
  constructor
  · rintro ⟨hschema, hepoch, hne, ⟨hpeers, hids⟩, hissuer, hsigs⟩
    exact ⟨⟨hschema, hepoch, hne, hpeers, hids, hissuer⟩, hsigs⟩
  · rintro ⟨h, hsigs⟩
    exact ⟨h.schema, h.epoch, h.nonempty, ⟨h.peers, h.ids⟩, h.issuer, hsigs⟩

theorem ValidContent.eq_of_id (h : ValidContent b)
    {p q : RuntimeTrustPeer} (hp : p ∈ b.peers) (hq : q ∈ b.peers) (hid : trim p.id = trim q.id) :
    p = q :=
  List.inj_on_of_nodup_map h.ids hp hq hid

end

/-! ## 2. Two keys -/

section
variable {ρ : Type} (cr : TrustCrypto ρ) (keyPair : List UInt8 → List UInt8 → Prop)

/-- The signature was made with a secret key of `pk`. -/
def MadeUnder (pk msg sig : List UInt8) : Prop :=
  ∃ sk coins, keyPair sk pk ∧ falconSignCt cr coins sk msg = .ok sig

/-- The host is listed for the role with the key `pk`, and one of the vouchers, by its id, was made
    under that key. -/
def SignedAs (peers : List RuntimeTrustPeer) (msg : List UInt8) (vs : List Voucher) (role : String)
    (pk : List UInt8) : Prop :=
  ∃ p ∈ peers, p.role = role ∧ p.sigPkB64 = b64Encode pk
    ∧ ∃ v ∈ vs, v.id = p.id ∧ ∃ sig, v.sigB64 = b64Encode sig ∧ MadeUnder cr keyPair pk msg sig

/-- **Two keys signed**: one listed for each role, and not the same. -/
def SignedUnderTwoKeys (peers : List RuntimeTrustPeer) (msg : List UInt8) (vs : List Voucher) :
    Prop :=
  ∃ pk₁ pk₂, pk₁ ≠ pk₂ ∧ SignedAs cr keyPair peers msg vs "ag-01" pk₁
    ∧ SignedAs cr keyPair peers msg vs "ag-02" pk₂

variable {cr keyPair}

theorem Vouches.signedAs (hverify : ∀ pk msg sig, falconVerify cr pk msg sig = .ok () →
      MadeUnder cr keyPair pk msg sig)
    {peers : List RuntimeTrustPeer} {msg : List UInt8} {vs : List Voucher} {v : Voucher}
    {p : RuntimeTrustPeer} {pk sig : List UInt8} (h : Vouches cr peers msg v p pk sig)
    (hv : v ∈ vs) : SignedAs cr keyPair peers msg vs v.role pk := by
  exact ⟨p, List.mem_of_find?_eq_some h.found, h.sameRole, h.sameKey.trans h.key, v, hv,
    (id_of_find h.found).symm, sig, h.signature, hverify _ _ _ h.verified⟩

/-- **A quorum of two keys** is a quorum whose signatures do not name one key twice. -/
theorem GuardQuorum.two_keys_iff (hverify : ∀ pk msg sig, falconVerify cr pk msg sig = .ok () →
      MadeUnder cr keyPair pk msg sig)
    {b : RuntimeTrustBundle} {msg : List UInt8} {vs : List Voucher} (hb : ValidContent b)
    (h : GuardQuorum cr b.peers msg vs) :
    SignedUnderTwoKeys cr keyPair b.peers msg vs ↔ (vs.map (·.sigPkB64)).Nodup := by
  have hpair : ∃ v₁ v₂, v₁.role = "ag-01" ∧ v₂.role = "ag-02" ∧ (∀ v, v ∈ vs ↔ v = v₁ ∨ v = v₂)
      ∧ ((vs.map (·.sigPkB64)).Nodup ↔ v₁.sigPkB64 ≠ v₂.sigPkB64) := by
    obtain ⟨v₁, v₂, h₁, h₂, rfl | rfl⟩ := h.pair
    · exact ⟨v₁, v₂, h₁, h₂, by simp, by simp⟩
    · exact ⟨v₁, v₂, h₁, h₂, by simp [or_comm], by simp [eq_comm]⟩
  obtain ⟨v₁, v₂, hrole₁, hrole₂, hmem, hnodup⟩ := hpair
  rw [hnodup]
  constructor
  · -- the voucher by a host's id names the host's key, and its role is the host's
    have hvoucher : ∀ {role pk}, SignedAs cr keyPair b.peers msg vs role pk →
        ∃ v ∈ vs, v.role = role ∧ v.sigPkB64 = b64Encode pk := by
      rintro role pk ⟨p, hp, hrole, hkey, v, hv, hid, -⟩
      obtain ⟨q, pk', sig, hvouch⟩ := h.vouched v hv
      obtain rfl : p = q := hb.eq_of_id hp (List.mem_of_find?_eq_some hvouch.found)
        (by rw [← hid, id_of_find hvouch.found])
      exact ⟨v, hv, hvouch.sameRole.symm.trans hrole, hvouch.sameKey.symm.trans hkey⟩
    rintro ⟨pk₁, pk₂, hne, hs₁, hs₂⟩ heq
    obtain ⟨w₁, hw₁, hr₁, hk₁⟩ := hvoucher hs₁
    obtain ⟨w₂, hw₂, hr₂, hk₂⟩ := hvoucher hs₂
    have hw₁ : w₁ = v₁ := by
      rcases (hmem w₁).mp hw₁ with hw | rfl
      · exact hw
      · exact absurd (hrole₂.symm.trans hr₁) (by decide)
    have hw₂ : w₂ = v₂ := by
      rcases (hmem w₂).mp hw₂ with rfl | hw
      · exact absurd (hrole₁.symm.trans hr₂) (by decide)
      · exact hw
    subst hw₁ hw₂
    exact hne (b64Encode_injective (hk₁.symm.trans (heq.trans hk₂)))
  · intro hne
    obtain ⟨p₁, pk₁, sig₁, h₁⟩ := h.vouched v₁ ((hmem v₁).mpr (.inl rfl))
    obtain ⟨p₂, pk₂, sig₂, h₂⟩ := h.vouched v₂ ((hmem v₂).mpr (.inr rfl))
    refine ⟨pk₁, pk₂, ?_, hrole₁ ▸ h₁.signedAs hverify ((hmem v₁).mpr (.inl rfl)),
      hrole₂ ▸ h₂.signedAs hverify ((hmem v₂).mpr (.inr rfl))⟩
    rintro rfl
    exact hne (h₁.key.trans h₂.key.symm)

/-- **The quorum and the keys.** A bundle that is accepted, and an artifact that is accepted for a
    valid bundle, carry signatures on their own digest under two different keys, one listed for
    each role, exactly if their signatures do not name the same key twice. What verifies under a
    key is taken to be made with it. -/
theorem signed_under_two_keys_iff (cr : TrustCrypto ρ) (keyPair : List UInt8 → List UInt8 → Prop)
    (hverify : ∀ pk msg sig, falconVerify cr pk msg sig = .ok () →
      MadeUnder cr keyPair pk msg sig) :
    (∀ b : RuntimeTrustBundle, b.verifyGuardQuorum cr = .ok () →
      (SignedUnderTwoKeys cr keyPair b.peers (b.digest cr).data
          (b.signatures.map RuntimeTrustSignature.voucher)
        ↔ (b.signatures.map (·.sigPkB64)).Nodup))
    ∧ ∀ (a : EscrowAdmissionArtifact) (b : RuntimeTrustBundle), b.validate = .ok () →
      a.verifyAgainstBundle cr.admission b.forAdmission = .ok () →
      (SignedUnderTwoKeys cr keyPair b.peers (admissionDigest cr a).data
          (a.signatures.map admissionVoucher)
        ↔ (a.signatures.map (·.sigPkB64)).Nodup) := by
  constructor
  · intro b h
    obtain ⟨hvalid, -, hquorum⟩ := verifyGuardQuorum_eq_ok.mp h
    rw [hquorum.two_keys_iff hverify (validate_eq_ok.mp hvalid).1, List.map_map]
    rfl
  · intro a b hvalid h
    obtain ⟨-, -, -, hquorum⟩ := verifyAgainstBundle_eq_ok.mp h
    rw [hquorum.two_keys_iff hverify (validate_eq_ok.mp hvalid).1, List.map_map]
    rfl

end

/-! ### Samples -/

/-- The sample bundle, signed by both guards: `k` is the key of the second. -/
def signedBundle (peers : List RuntimeTrustPeer) (k : UInt8) :
    Except String RuntimeTrustBundle := do
  let b ← (sampleBundle peers).sign sampleTrust "ag-one" "ag-01" [1] [1] 5 ()
  b.sign sampleTrust "ag-two" "ag-02" [k] [k] 6 ()

def signedArtifact (k : UInt8) : Except String EscrowAdmissionArtifact := do
  let a ← signAdmission sampleTrust sampleArtifact "ag-one" "ag-01" [1] [1] 5 ()
  signAdmission sampleTrust a "ag-two" "ag-02" [k] [k] 6 ()

theorem sample_madeUnder (pk msg sig : List UInt8)
    (h : falconVerify sampleTrust pk msg sig = .ok ()) :
    MadeUnder sampleTrust (fun sk pk => sk = pk) pk msg sig := by
  simp only [falconVerify, bind_eq_ok, failIf_eq_ok, exists_unit, not_or, not_not, ne_eq] at h
  obtain ⟨⟨hpk, hlen⟩, -, hrc⟩ := h
  have hsig : sig = pk ++ msg := by
    by_contra hne
    simp [sampleTrust, hne] at hrc
  refine ⟨pk, (), rfl, ?_⟩
  simp only [falconSignCt, bind_eq_ok, failIf_eq_ok, exists_unit, sampleTrust, pure_eq_ok, not_or,
    hsig, and_true]
  exact ⟨hpk, hlen⟩

theorem signed_under_two_keys_iff_sample :
    ∃ b a, signedBundle samplePeers 2 = .ok b ∧ signedArtifact 2 = .ok a
      ∧ b.verifyGuardQuorum sampleTrust = .ok ()
      ∧ a.verifyAgainstBundle sampleTrust.admission b.forAdmission = .ok ()
      ∧ SignedUnderTwoKeys sampleTrust (fun sk pk => sk = pk) b.peers (b.digest sampleTrust).data
          (b.signatures.map RuntimeTrustSignature.voucher)
      ∧ SignedUnderTwoKeys sampleTrust (fun sk pk => sk = pk) b.peers
          (admissionDigest sampleTrust a).data (a.signatures.map admissionVoucher) := by
  have hiff := signed_under_two_keys_iff sampleTrust (fun sk pk => sk = pk) sample_madeUnder
  let b := (signedBundle samplePeers 2).toOption.getD (sampleBundle [])
  let a := (signedArtifact 2).toOption.getD sampleArtifact
  have hok : (signedBundle samplePeers 2 = .ok b ∧ signedArtifact 2 = .ok a)
      ∧ (b.verifyGuardQuorum sampleTrust = .ok () ∧ b.validate = .ok ())
      ∧ a.verifyAgainstBundle sampleTrust.admission b.forAdmission = .ok ()
      ∧ (b.signatures.map (·.sigPkB64)).Nodup ∧ (a.signatures.map (·.sigPkB64)).Nodup := by
    decide +kernel
  obtain ⟨⟨hb, ha⟩, ⟨hquorum, hvalid⟩, hadmitted, hkeys, hkeys'⟩ := hok
  exact ⟨b, a, hb, ha, hquorum, hadmitted, (hiff.1 b hquorum).mpr hkeys,
    (hiff.2 a b hvalid hadmitted).mpr hkeys'⟩

/-- **One key makes the quorum.** The bundle lists it for both guards; its holder signs the bundle
    under either id, and an artifact as well, and both are accepted. -/
theorem one_key_makes_the_quorum :
    ∃ b a, signedBundle sameKeyPeers 1 = .ok b ∧ signedArtifact 1 = .ok a
      ∧ b.verifyGuardQuorum sampleTrust = .ok ()
      ∧ a.verifyAgainstBundle sampleTrust.admission b.forAdmission = .ok ()
      ∧ (∀ msg vs, ¬ SignedUnderTwoKeys sampleTrust (fun sk pk => sk = pk) b.peers msg vs) := by
  let b := (signedBundle sameKeyPeers 1).toOption.getD (sampleBundle [])
  let a := (signedArtifact 1).toOption.getD sampleArtifact
  have hok : signedBundle sameKeyPeers 1 = .ok b ∧ signedArtifact 1 = .ok a
      ∧ b.verifyGuardQuorum sampleTrust = .ok ()
      ∧ a.verifyAgainstBundle sampleTrust.admission b.forAdmission = .ok ()
      ∧ ∀ p ∈ b.peers, p.sigPkB64 = b64Encode [1] := by
    decide +kernel
  obtain ⟨hb, ha, hquorum, hadmitted, hsame⟩ := hok
  refine ⟨b, a, hb, ha, hquorum, hadmitted, ?_⟩
  rintro msg vs ⟨pk₁, pk₂, hne, ⟨p₁, hp₁, -, hk₁, -⟩, ⟨p₂, hp₂, -, hk₂, -⟩⟩
  have h₁ : pk₁ = [1] := b64Encode_injective (hk₁.symm.trans (hsame p₁ hp₁))
  have h₂ : pk₂ = [1] := b64Encode_injective (hk₂.symm.trans (hsame p₂ hp₂))
  exact hne (h₁.trans h₂.symm)

end Nexum.Trust
