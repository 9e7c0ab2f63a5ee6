import Nexum.Trust.Quorum

/-!
# Signing by the guards

The other half of the quorum: what the guards sign is accepted. A run of `sign` calls collects one
signature of each signer, the last one it made (`collect`), so that after both guards have signed,
in whatever order and however often, there are two signatures with all the checks ask for.

All but one thing. `validate` and `sign` take ids and roles **without the blanks around them**, but
the hosts are looked up by what the bundle lists, blanks and all. A host listed with a blank before
its id is valid, may sign, and is found by nobody (`padded_id_is_not_found`). The guards'
signatures are accepted and every host is found exactly if what is listed has no such blanks
(`signing_completes_iff`).
-/

namespace Nexum.Trust

open Nexum.Lib Nexum.Lib.Check
open Nexum.Transport (EscrowAdmissionArtifact EscrowAdmissionSignature requiredGuardRoles
  normalizeNonEmpty validateHexExact escrowAdmissionSigAlg)

/-! ## 1. Collecting signatures -/

section
variable {α : Type}

theorem mem_replaceOrPush {p : α → Bool} {new x : α} {l : List α}
    (h : x ∈ replaceOrPush p new l) : x = new ∨ x ∈ l := by
  induction l with
  | nil => simpa [replaceOrPush] using h
  | cons y l ih =>
    rw [replaceOrPush] at h
    split at h
    · rcases List.mem_cons.mp h with h | h
      · exact .inl h
      · exact .inr (List.mem_cons_of_mem _ h)
    · rcases List.mem_cons.mp h with h | h
      · exact .inr (h ▸ List.mem_cons_self)
      · exact (ih h).imp_right (List.mem_cons_of_mem _)

theorem map_replaceOrPush (key : α → String) (new : α) (l : List α) :
    (replaceOrPush (fun x => decide (key x = key new)) new l).map key
      = if key new ∈ l.map key then l.map key else l.map key ++ [key new] := by
  induction l with
  | nil => simp [replaceOrPush]
  | cons y l ih =>
    by_cases hy : key y = key new
    · simp [replaceOrPush, hy]
    · have hmem : key new ∈ (y :: l).map key ↔ key new ∈ l.map key := by
        simp [Ne.symm hy]
      simp only [hmem, replaceOrPush, hy, decide_false, Bool.false_eq_true, if_false]
      rw [List.map_cons, ih, List.map_cons]
      split <;> rfl

/-- What a run of signing calls leaves: `none` is a call that failed. -/
def collect (key : α → String) : List (Option α) → List α → List α
  | [], sigs => sigs
  | none :: rest, sigs => collect key rest sigs
  | some s :: rest, sigs =>
    collect key rest (replaceOrPush (fun x => decide (key x = key s)) s sigs)

theorem mem_collect {key : α → String} {stamps : List (Option α)} {sigs : List α} {s : α}
    (h : s ∈ collect key stamps sigs) : s ∈ sigs ∨ some s ∈ stamps := by
  induction stamps generalizing sigs with
  | nil => exact .inl h
  | cons stamp rest ih =>
    cases stamp with
    | none => exact (ih h).imp_right (List.mem_cons_of_mem _)
    | some new =>
      rcases ih h with h | h
      · rcases mem_replaceOrPush h with rfl | h
        · exact .inr List.mem_cons_self
        · exact .inl h
      · exact .inr (List.mem_cons_of_mem _ h)

theorem nodup_collect {key : α → String} {stamps : List (Option α)} {sigs : List α}
    (h : (sigs.map key).Nodup) : ((collect key stamps sigs).map key).Nodup := by
  induction stamps generalizing sigs with
  | nil => exact h
  | cons stamp rest ih =>
    cases stamp with
    | none => exact ih h
    | some new =>
      apply ih
      rw [map_replaceOrPush]
      split
      · exact h
      · rename_i hnew
        rw [← List.concat_eq_append]
        exact h.concat hnew

theorem key_mem_collect {key : α → String} {stamps : List (Option α)} {sigs : List α} {k : String} :
    k ∈ (collect key stamps sigs).map key
      ↔ k ∈ sigs.map key ∨ ∃ s, some s ∈ stamps ∧ key s = k := by
  induction stamps generalizing sigs with
  | nil => simp [collect]
  | cons stamp rest ih =>
    cases stamp with
    | none => simp [collect, ih]
    | some new =>
      have hkeys : k ∈ (replaceOrPush (fun x => decide (key x = key new)) new sigs).map key
          ↔ k ∈ sigs.map key ∨ key new = k := by
        rw [map_replaceOrPush]
        split
        · rename_i hnew
          constructor
          · exact .inl
          · rintro (h | rfl)
            · exact h
            · exact hnew
        · simp [eq_comm]
      rw [collect, ih, hkeys]
      simp only [List.mem_cons, Option.some.injEq, or_and_right, exists_or, exists_eq_left,
        or_assoc]

end

/-! ## 2. The guards and their calls -/

/-- The two parties of the quorum. -/
inductive Guard
  | ag01 | ag02
  deriving DecidableEq

def Guard.role : Guard → String
  | .ag01 => "ag-01"
  | .ag02 => "ag-02"

theorem Guard.role_injective {g g' : Guard} (h : g.role = g'.role) : g = g' := by
  cases g <;> cases g' <;> first | rfl | exact absurd h (by decide)

theorem Guard.role_mem (g : Guard) : g.role ∈ requiredGuardRoles := by
  cases g <;> decide

theorem trim_role (g : Guard) : trim g.role = g.role := by
  cases g <;> decide +kernel

section
variable {ρ : Type}

/-- A pair of keys that works, on digests: signing can succeed, and what it makes verifies. -/
structure WorkingPair (cr : TrustCrypto ρ) (sk pk : List UInt8) : Prop where
  signs : ∀ digest : Bytes 32, ∃ coins sig, falconSignCt cr coins sk digest.data = .ok sig
  verifies : ∀ (digest : Bytes 32) coins sig, falconSignCt cr coins sk digest.data = .ok sig →
    falconVerify cr pk digest.data sig = .ok ()

/-- Exactly one of the hosts is listed for each role, with a key of its own that works. -/
structure Guards (cr : TrustCrypto ρ) (peers : List RuntimeTrustPeer) where
  peer : Guard → RuntimeTrustPeer
  listed : ∀ g, peer g ∈ peers
  only : ∀ g, ∀ p ∈ peers, trim p.role = g.role ↔ p = peer g
  sk : Guard → List UInt8
  pk : Guard → List UInt8
  key : ∀ g, (peer g).sigPkB64 = b64Encode (pk g)
  works : ∀ g, WorkingPair cr (sk g) (pk g)

/-- One call of `sign` by a guard. -/
structure SignCall (ρ : Type) where
  signer : Guard
  createdAtUnixMs : Nat
  coins : ρ

/-- The guard makes one of the calls, and the Falcon code succeeds in it. -/
def Signed {cr : TrustCrypto ρ} {peers : List RuntimeTrustPeer} (G : Guards cr peers)
    (digest : Bytes 32) (calls : List (SignCall ρ)) (g : Guard) : Prop :=
  ∃ call ∈ calls, call.signer = g
    ∧ ∃ sig, falconSignCt cr call.coins (G.sk g) digest.data = .ok sig

variable {cr : TrustCrypto ρ} {b : RuntimeTrustBundle} (G : Guards cr b.peers)

/-- A guard signs under its listed id and role and with its listed key; a call that fails changes
    nothing. -/
def signNext (b' : RuntimeTrustBundle) (call : SignCall ρ) : RuntimeTrustBundle :=
  match b'.sign cr (G.peer call.signer).id (G.peer call.signer).role (G.sk call.signer)
    (G.pk call.signer) call.createdAtUnixMs call.coins with
  | .ok signed => signed
  | .error _ => b'

def signNextAdmission (a : EscrowAdmissionArtifact) (call : SignCall ρ) :
    EscrowAdmissionArtifact :=
  match signAdmission cr a (G.peer call.signer).id (G.peer call.signer).role (G.sk call.signer)
    (G.pk call.signer) call.createdAtUnixMs call.coins with
  | .ok signed => signed
  | .error _ => a

/-! ### What the calls leave -/

/-- The signature of one call on a bundle, if the Falcon code makes one. -/
def bundleStamp (hash : String) (digest : Bytes 32) (call : SignCall ρ) :
    Option RuntimeTrustSignature :=
  (falconSignCt cr call.coins (G.sk call.signer) digest.data).toOption.map fun sig =>
    ⟨trim (G.peer call.signer).id, trim (G.peer call.signer).role, b64Encode (G.pk call.signer),
      b64Encode sig, hash, runtimeTrustSigAlg, call.createdAtUnixMs⟩

/-- The same on an artifact. -/
def admissionStamp (hash : String) (digest : Bytes 32) (call : SignCall ρ) :
    Option EscrowAdmissionSignature :=
  (falconSignCt cr call.coins (G.sk call.signer) digest.data).toOption.map fun sig =>
    ⟨trim (G.peer call.signer).id, trim (G.peer call.signer).role, b64Encode (G.pk call.signer),
      b64Encode sig, hash, escrowAdmissionSigAlg, call.createdAtUnixMs⟩

variable {G}

theorem ValidPeer.normalized {p : RuntimeTrustPeer} (h : ValidPeer p) :
    (trim p.id ≠ "" ∧ (trim p.id).utf8ByteSize ≤ 128)
      ∧ (trim p.role ≠ "" ∧ (trim p.role).utf8ByteSize ≤ 128) ∧ trim p.sigPkB64 ≠ "" := by
  simp only [ValidPeer, validatePeer, bind_eq_ok, failIf_eq_ok, exists_unit, not_or, Nat.not_lt,
    gt_iff_lt] at h
  obtain ⟨hid, -, hrole, -, -, -, -, -, hkey, -⟩ := h
  exact ⟨hid, hrole, hkey⟩

theorem falconVerify_ne_nil {pk msg sig : List UInt8} (h : falconVerify cr pk msg sig = .ok ()) :
    sig ≠ [] := by
  simp only [falconVerify, bind_eq_ok, failIf_eq_ok, exists_unit, not_or] at h
  exact h.2.1.1

theorem trim_sigAlg : trim runtimeTrustSigAlg = runtimeTrustSigAlg := by
  decide +kernel

theorem validateHexExact_hexEncode (bytes : Bytes 32) (field : String) :
    validateHexExact (hexEncode bytes.data) 64 field = .ok () := by
  simp only [validateHexExact, failIf_eq_ok, trim_hexEncode, utf8ByteSize_hexEncode, bytes.len,
    not_or, not_not, List.all_eq_true, chars_eq, ne_eq, true_and]
  exact fun c hc => hexdigit_of_mem_hexEncode hc

theorem toOption_map_eq_some {ε α β : Type} {x : Except ε α} {f : α → β} {b : β} :
    x.toOption.map f = some b ↔ ∃ a, x = .ok a ∧ b = f a := by
  cases x with
  | ok a => simp [Except.toOption, eq_comm]
  | error e => simp [Except.toOption]

theorem bundleStamp_eq_some {hash : String} {digest : Bytes 32} {call : SignCall ρ}
    {s : RuntimeTrustSignature} : bundleStamp G hash digest call = some s
      ↔ ∃ sig, falconSignCt cr call.coins (G.sk call.signer) digest.data = .ok sig
        ∧ s = ⟨trim (G.peer call.signer).id, trim (G.peer call.signer).role,
          b64Encode (G.pk call.signer), b64Encode sig, hash, runtimeTrustSigAlg,
          call.createdAtUnixMs⟩ :=
  toOption_map_eq_some

theorem admissionStamp_eq_some {hash : String} {digest : Bytes 32} {call : SignCall ρ}
    {s : EscrowAdmissionSignature} : admissionStamp G hash digest call = some s
      ↔ ∃ sig, falconSignCt cr call.coins (G.sk call.signer) digest.data = .ok sig
        ∧ s = ⟨trim (G.peer call.signer).id, trim (G.peer call.signer).role,
          b64Encode (G.pk call.signer), b64Encode sig, hash, escrowAdmissionSigAlg,
          call.createdAtUnixMs⟩ :=
  toOption_map_eq_some

theorem bundleStamp_metadata (hb : ValidContent b) {digest : Bytes 32} {call : SignCall ρ}
    {s : RuntimeTrustSignature} (h : bundleStamp G (hexEncode digest.data) digest call = some s) :
    validateSignatureMetadata s = .ok () := by
  obtain ⟨sig, hsig, rfl⟩ := bundleStamp_eq_some.mp h
  obtain ⟨hid, hrole, hkey⟩ := (hb.peers _ (G.listed call.signer)).normalized
  have hverified := (G.works call.signer).verifies digest call.coins sig hsig
  simp only [validateSignatureMetadata, bind_eq_ok, failIf_eq_ok, exists_unit, not_not, ne_eq,
    normalizeNonEmpty_eq_ok, trim_trim]
  rw [G.key] at hkey
  exact ⟨_, ⟨hid, rfl⟩, _, ⟨hrole, rfl⟩, trim_sigAlg, validateHexExact_hexEncode _ _, hkey,
    trim_b64Encode_ne (falconVerify_ne_nil hverified)⟩

theorem ValidContent.with_signatures (h : ValidContent b) (sigs : List RuntimeTrustSignature) :
    ValidContent { b with signatures := sigs } :=
  ⟨h.schema, h.epoch, h.nonempty, h.peers, h.ids, h.issuer⟩

theorem normalize_guard (hb : ValidContent b) (g : Guard) (field : String) :
    normalizeNonEmpty (G.peer g).id field 128 = .ok (trim (G.peer g).id)
      ∧ normalizeNonEmpty (G.peer g).role field 128 = .ok (trim (G.peer g).role) := by
  obtain ⟨hid, hrole, -⟩ := (hb.peers _ (G.listed g)).normalized
  exact ⟨normalizeNonEmpty_eq_ok.mpr ⟨hid, rfl⟩, normalizeNonEmpty_eq_ok.mpr ⟨hrole, rfl⟩⟩

theorem signNext_eq (hb : ValidContent b) {b' : RuntimeTrustBundle} (hvalid : b'.validate = .ok ())
    (call : SignCall ρ) : signNext G b' call = { b' with
      signatures := collect (·.signerId) [bundleStamp G (b'.hashHex cr) (b'.digest cr) call]
        b'.signatures } := by
  obtain ⟨hid, -⟩ := normalize_guard (G := G) hb call.signer "signer_id"
  obtain ⟨-, hrole⟩ := normalize_guard (G := G) hb call.signer "signer_role"
  simp only [signNext, RuntimeTrustBundle.sign, hvalid, hid, hrole, hexDecode_hashHex, bundleStamp,
    okOr, bind, Except.bind]
  cases falconSignCt cr call.coins (G.sk call.signer) (b'.digest cr).data with
  | ok sig => rfl
  | error e => rfl

theorem signNextAdmission_eq (hb : ValidContent b) {a : EscrowAdmissionArtifact}
    (hvalid : a.validateUnsigned = .ok ()) (call : SignCall ρ) :
    signNextAdmission G a call = { a with
      signatures := collect (·.signerId)
        [admissionStamp G (a.hashHex cr.admission) (admissionDigest cr a) call] a.signatures } := by
  obtain ⟨hid, -⟩ := normalize_guard (G := G) hb call.signer "signer_id"
  obtain ⟨-, hrole⟩ := normalize_guard (G := G) hb call.signer "signer_role"
  simp only [signNextAdmission, signAdmission, hvalid, hid, hrole, hexDecode_admissionHash,
    admissionStamp, okOr, bind, Except.bind]
  cases falconSignCt cr call.coins (G.sk call.signer) (admissionDigest cr a).data with
  | ok sig => rfl
  | error e => rfl

theorem collect_cons {α : Type} (key : α → String) (stamp : Option α) (rest : List (Option α))
    (sigs : List α) :
    collect key (stamp :: rest) sigs = collect key rest (collect key [stamp] sigs) := by
  cases stamp <;> rfl

/-- **A run of calls leaves the collected stamps**, on a bundle. -/
theorem foldl_signNext (hb : ValidContent b) (calls : List (SignCall ρ))
    {sigs : List RuntimeTrustSignature} (hsigs : ∀ s ∈ sigs, validateSignatureMetadata s = .ok ()) :
    calls.foldl (signNext G) { b with signatures := sigs } = { b with
      signatures := collect (·.signerId)
        (calls.map (bundleStamp G (b.hashHex cr) (b.digest cr))) sigs } := by
  induction calls generalizing sigs with
  | nil => rfl
  | cons call rest ih =>
    have hvalid := validate_eq_ok.mpr ⟨hb.with_signatures sigs, hsigs⟩
    rw [List.foldl_cons, signNext_eq hb hvalid]
    refine (ih ?_).trans ?_
    · intro s hs
      rcases mem_collect hs with hs | hs
      · exact hsigs s hs
      · exact bundleStamp_metadata hb (List.mem_singleton.mp hs).symm
    · rw [List.map_cons, collect_cons _ _ (List.map _ rest)]
      rfl

theorem foldl_signNextAdmission (hb : ValidContent b) {a : EscrowAdmissionArtifact}
    (ha : a.validateUnsigned = .ok ()) (calls : List (SignCall ρ))
    (sigs : List EscrowAdmissionSignature) :
    calls.foldl (signNextAdmission G) { a with signatures := sigs } = { a with
      signatures := collect (·.signerId)
        (calls.map (admissionStamp G (a.hashHex cr.admission) (admissionDigest cr a))) sigs } := by
  induction calls generalizing sigs with
  | nil => rfl
  | cons call rest ih =>
    have hvalid : { a with signatures := sigs }.validateUnsigned = .ok () := ha
    rw [List.foldl_cons, signNextAdmission_eq hb hvalid]
    refine (ih _).trans ?_
    rw [List.map_cons, collect_cons _ _ (List.map _ rest)]
    rfl

/-! ## 3. The collected signatures are a quorum -/

/-- The voucher of a guard's own making. -/
structure MadeBy (G : Guards cr b.peers) (digest : Bytes 32) (g : Guard) (v : Voucher) : Prop where
  id : v.id = trim (G.peer g).id
  role : v.role = g.role
  key : v.sigPkB64 = b64Encode (G.pk g)
  signature : ∃ sig, v.sigB64 = b64Encode sig ∧ falconVerify cr (G.pk g) digest.data sig = .ok ()

theorem Guards.trim_peer_role (G : Guards cr b.peers) (g : Guard) :
    trim (G.peer g).role = g.role :=
  (G.only g _ (G.listed g)).mpr rfl

theorem Guards.peer_injective (G : Guards cr b.peers) {g g' : Guard} (h : G.peer g = G.peer g') :
    g = g' :=
  Guard.role_injective (by rw [← G.trim_peer_role g, h, G.trim_peer_role])

theorem Guards.eq_of_trim_id (hb : ValidContent b) (G : Guards cr b.peers) {g g' : Guard}
    (h : trim (G.peer g).id = trim (G.peer g').id) : g = g' :=
  G.peer_injective (hb.eq_of_id (G.listed g) (G.listed g') h)

theorem find_trim_id (hb : ValidContent b) {p : RuntimeTrustPeer} (hp : p ∈ b.peers) :
    b.peers.find? (·.id == trim p.id) = some p ↔ trim p.id = p.id := by
  constructor
  · intro h
    exact (id_of_find h).symm
  · intro h
    have hsome : (b.peers.find? (·.id == trim p.id)).isSome := by
      rw [List.find?_isSome]
      exact ⟨p, hp, by simp [h]⟩
    obtain ⟨q, hq⟩ := Option.isSome_iff_exists.mp hsome
    have hid : trim q.id = trim p.id := by rw [id_of_find hq, trim_trim]
    rw [hq, hb.eq_of_id (List.mem_of_find?_eq_some hq) hp hid]

/-- A guard's voucher vouches exactly if the guard is listed without blanks around its id and
    role. -/
theorem MadeBy.vouches_iff (hb : ValidContent b) {digest : Bytes 32} {g : Guard} {v : Voucher}
    (h : MadeBy G digest g v) : (∃ peer pk sig, Vouches cr b.peers digest.data v peer pk sig)
      ↔ trim (G.peer g).id = (G.peer g).id ∧ trim (G.peer g).role = (G.peer g).role := by
  constructor
  · rintro ⟨p, pk, sig, hv⟩
    have hfound := hv.found
    rw [h.id] at hfound
    have hid : trim p.id = trim (G.peer g).id := by rw [id_of_find hfound, trim_trim]
    obtain rfl : p = G.peer g :=
      hb.eq_of_id (List.mem_of_find?_eq_some hfound) (G.listed g) hid
    exact ⟨(id_of_find hfound).symm, by rw [hv.sameRole, h.role, trim_role]⟩
  · rintro ⟨hid, hrole⟩
    obtain ⟨sig, hsig, hverified⟩ := h.signature
    exact ⟨G.peer g, G.pk g, sig, h.id ▸ (find_trim_id hb (G.listed g)).mpr hid,
      h.role ▸ g.role_mem, by rw [← hrole, G.trim_peer_role, h.role], (G.key g).trans h.key.symm,
      h.key, hsig, hverified⟩

/-- **One voucher of each guard is a quorum** exactly if both are listed without such blanks. -/
theorem quorum_iff_trimmed (hb : ValidContent b) (G : Guards cr b.peers) {digest : Bytes 32}
    {vs : List Voucher}
    (hnodup : (vs.map (·.id)).Nodup) (hmade : ∀ v ∈ vs, ∃ g, MadeBy G digest g v)
    (hboth : ∀ g, ∃ v ∈ vs, MadeBy G digest g v) :
    GuardQuorum cr b.peers digest.data vs
      ↔ ∀ g, trim (G.peer g).id = (G.peer g).id ∧ trim (G.peer g).role = (G.peer g).role := by
  constructor
  · intro h g
    obtain ⟨v, hv, hg⟩ := hboth g
    exact (hg.vouches_iff hb).mp (h.vouched v hv)
  · intro h
    refine ⟨?_, ?_, ?_⟩
    · -- the ids are those of the two guards, in some order
      have hids : (vs.map (·.id)).Perm [trim (G.peer .ag01).id, trim (G.peer .ag02).id] := by
        refine (List.perm_ext_iff_of_nodup hnodup ?_).mpr ?_
        · simp only [List.nodup_cons, List.mem_singleton, List.not_mem_nil, not_false_eq_true,
            List.nodup_nil, and_true]
          intro heq
          exact absurd (G.eq_of_trim_id hb heq) (by decide)
        · intro id
          simp only [List.mem_map, List.mem_cons, List.not_mem_nil, or_false]
          constructor
          · rintro ⟨v, hv, rfl⟩
            obtain ⟨g, hg⟩ := hmade v hv
            cases g with
            | ag01 => exact .inl hg.id
            | ag02 => exact .inr hg.id
          · rintro (rfl | rfl)
            · obtain ⟨v, hv, hg⟩ := hboth .ag01
              exact ⟨v, hv, hg.id⟩
            · obtain ⟨v, hv, hg⟩ := hboth .ag02
              exact ⟨v, hv, hg.id⟩
      simpa using hids.length_eq
    · refine (List.pairwise_map.mp hnodup).imp_of_mem ?_
      intro v w hv hw hne
      obtain ⟨g, hg⟩ := hmade v hv
      obtain ⟨g', hg'⟩ := hmade w hw
      refine ⟨hne, fun hrole => hne ?_⟩
      obtain rfl : g = g' := Guard.role_injective (by rw [← hg.role, hrole, hg'.role])
      rw [hg.id, hg'.id]
    · intro v hv
      obtain ⟨g, hg⟩ := hmade v hv
      exact (hg.vouches_iff hb).mpr (h g)

theorem collect_quorum_iff {σ : Type} (hb : ValidContent b) (G : Guards cr b.peers)
    (digest : Bytes 32) (stamp : SignCall ρ → Option σ) (key : σ → String) (voucher : σ → Voucher)
    (hstamp : ∀ call sig, falconSignCt cr call.coins (G.sk call.signer) digest.data = .ok sig →
      ∃ s, stamp call = some s)
    (hmade : ∀ call s, stamp call = some s → MadeBy G digest call.signer (voucher s)
      ∧ (voucher s).id = key s) (calls : List (SignCall ρ))
    (hboth : ∀ g, Signed G digest calls g) :
    GuardQuorum cr b.peers digest.data ((collect key (calls.map stamp) []).map voucher)
      ↔ ∀ g, trim (G.peer g).id = (G.peer g).id ∧ trim (G.peer g).role = (G.peer g).role := by
  have hfrom : ∀ s ∈ collect key (calls.map stamp) [], ∃ call, stamp call = some s := by
    intro s hs
    rcases mem_collect hs with hs | hs
    · exact absurd hs List.not_mem_nil
    · obtain ⟨call, -, hcall⟩ := List.mem_map.mp hs
      exact ⟨call, hcall⟩
  have hkeys : ((collect key (calls.map stamp) []).map voucher).map (·.id)
      = (collect key (calls.map stamp) []).map key := by
    rw [List.map_map]
    refine List.map_congr_left fun s hs => ?_
    obtain ⟨call, hcall⟩ := hfrom s hs
    exact (hmade call s hcall).2
  apply quorum_iff_trimmed hb G
  · rw [hkeys]
    exact nodup_collect List.nodup_nil
  · intro v hv
    obtain ⟨s, hs, rfl⟩ := List.mem_map.mp hv
    obtain ⟨call, hcall⟩ := hfrom s hs
    exact ⟨call.signer, (hmade call s hcall).1⟩
  · intro g
    obtain ⟨call, hcall, rfl, sig, hsig⟩ := hboth g
    obtain ⟨s, hs⟩ := hstamp call sig hsig
    -- the signer has a stamp in the end, though it may be that of a later call
    obtain ⟨t, ht, hkey⟩ := List.mem_map.mp
      (key_mem_collect.mpr (.inr ⟨s, hs ▸ List.mem_map_of_mem hcall, rfl⟩) :
        key s ∈ (collect key (calls.map stamp) []).map key)
    obtain ⟨call', hcall'⟩ := hfrom t ht
    obtain ⟨hmade₁, hid₁⟩ := hmade call s hs
    obtain ⟨hmade₂, hid₂⟩ := hmade call' t hcall'
    have hsame : call'.signer = call.signer :=
      G.eq_of_trim_id hb (by rw [← hmade₁.id, ← hmade₂.id, hid₁, hid₂, hkey])
    exact ⟨voucher t, List.mem_map_of_mem ht, hsame ▸ hmade₂⟩

/-! ## 4. Looking hosts up -/

/-- A host is found under its id, as listed or without blanks, exactly if the two are the same. -/
theorem localPeer_eq_ok (hb : ValidContent b) {p : RuntimeTrustPeer} (hp : p ∈ b.peers)
    {id : String} (hid : trim id = trim p.id) : b.localPeer id = .ok p ↔ trim p.id = p.id := by
  rw [RuntimeTrustBundle.localPeer, okOr_eq_ok, hid]
  exact find_trim_id hb hp

theorem peerBookFor_eq_ok (hb : ValidContent b) {p : RuntimeTrustPeer} (hp : p ∈ b.peers)
    {id : String} (hid : trim id = trim p.id) (htrim : trim p.id = p.id)
    (hothers : ∃ q ∈ b.peers, q ≠ p) :
    b.peerBookFor id = .ok ⟨(b.peers.filter (· ≠ p)).map RuntimeTrustPeer.entry⟩ := by
  have hlocal : b.localPeer (trim p.id) = .ok p := (localPeer_eq_ok hb hp (trim_trim _)).mpr htrim
  have hfilter : b.peers.filter (·.id != trim p.id) = b.peers.filter (· ≠ p) := by
    refine List.filter_congr fun q hq => ?_
    rw [Bool.eq_iff_iff, bne_iff_ne, decide_eq_true_iff, htrim]
    exact not_congr ⟨fun h => hb.eq_of_id hq hp (congrArg trim h), fun h => h ▸ rfl⟩
  obtain ⟨q, hq, hne⟩ := hothers
  have hbook : (b.peers.filter (· ≠ p)).map RuntimeTrustPeer.entry ≠ [] := by
    intro hnil
    have hmem : q ∈ b.peers.filter (· ≠ p) := List.mem_filter.mpr ⟨hq, decide_eq_true hne⟩
    rw [List.map_eq_nil_iff.mp hnil] at hmem
    exact absurd hmem List.not_mem_nil
  simp only [RuntimeTrustBundle.peerBookFor, bind_eq_ok, hid, hlocal, failIf_eq_ok, exists_unit,
    pure_eq_ok, hfilter]
  exact ⟨p, rfl, hbook, trivial⟩

/-! ## 5. Signing completes -/

theorem Guards.exists_other (G : Guards cr b.peers) (p : RuntimeTrustPeer) :
    ∃ q ∈ b.peers, q ≠ p := by
  by_cases hp : G.peer .ag01 = p
  · refine ⟨G.peer .ag02, G.listed _, fun h => ?_⟩
    exact absurd (G.peer_injective (hp.trans h.symm)) (by decide)
  · exact ⟨G.peer .ag01, G.listed _, hp⟩

theorem Guards.exists_calls (G : Guards cr b.peers) (digest : Bytes 32) :
    ∃ calls, ∀ g, Signed G digest calls g := by
  obtain ⟨coins₁, sig₁, h₁⟩ := (G.works .ag01).signs digest
  obtain ⟨coins₂, sig₂, h₂⟩ := (G.works .ag02).signs digest
  refine ⟨[⟨.ag01, 0, coins₁⟩, ⟨.ag02, 0, coins₂⟩], fun g => ?_⟩
  cases g with
  | ag01 => exact ⟨_, List.mem_cons_self, rfl, sig₁, h₁⟩
  | ag02 => exact ⟨_, List.mem_cons_of_mem _ List.mem_cons_self, rfl, sig₂, h₂⟩

theorem bundleStamp_madeBy {hash : String} {digest : Bytes 32} {call : SignCall ρ}
    {s : RuntimeTrustSignature} (h : bundleStamp G hash digest call = some s) :
    MadeBy G digest call.signer s.voucher ∧ s.voucher.id = s.signerId := by
  obtain ⟨sig, hsig, rfl⟩ := bundleStamp_eq_some.mp h
  refine ⟨⟨trim_trim _, ?_, rfl, sig, rfl, (G.works _).verifies digest _ sig hsig⟩, trim_trim _⟩
  exact (trim_trim _).trans (G.trim_peer_role _)

theorem admissionStamp_madeBy {hash : String} {digest : Bytes 32} {call : SignCall ρ}
    {s : EscrowAdmissionSignature} (h : admissionStamp G hash digest call = some s) :
    MadeBy G digest call.signer (admissionVoucher s) ∧ (admissionVoucher s).id = s.signerId := by
  obtain ⟨sig, hsig, rfl⟩ := admissionStamp_eq_some.mp h
  refine ⟨⟨trim_trim _, ?_, rfl, sig, rfl, (G.works _).verifies digest _ sig hsig⟩, trim_trim _⟩
  exact (trim_trim _).trans (G.trim_peer_role _)

/-- A signed bundle is accepted exactly if the guards are listed without blanks. -/
theorem verify_signed_iff (hb : ValidContent b) (hnone : b.signatures = []) (G : Guards cr b.peers)
    {calls : List (SignCall ρ)} (hboth : ∀ g, Signed G (b.digest cr) calls g) :
    (calls.foldl (signNext G) b).verifyGuardQuorum cr = .ok ()
      ↔ ∀ g, trim (G.peer g).id = (G.peer g).id ∧ trim (G.peer g).role = (G.peer g).role := by
  have hrun := foldl_signNext (G := G) hb calls
    (fun s hs => absurd hs (List.not_mem_nil (a := s)))
  rw [← hnone] at hrun
  have hstamps : ∀ s ∈ (calls.foldl (signNext G) b).signatures,
      validateSignatureMetadata s = .ok () ∧ toAsciiLowercase (trim s.hashHex) = b.hashHex cr := by
    intro s hs
    rw [hrun] at hs
    rcases mem_collect hs with hs | hs
    · exact absurd (hnone ▸ hs) List.not_mem_nil
    · obtain ⟨call, -, hcall⟩ := List.mem_map.mp hs
      refine ⟨bundleStamp_metadata hb hcall, ?_⟩
      obtain ⟨sig, -, rfl⟩ := bundleStamp_eq_some.mp hcall
      exact (congrArg _ (trim_hexEncode _)).trans (toAsciiLowercase_hexEncode _)
  have hquorum := collect_quorum_iff hb G (b.digest cr) (bundleStamp G (b.hashHex cr) (b.digest cr))
    (·.signerId) RuntimeTrustSignature.voucher
    (fun call sig hsig => ⟨_, bundleStamp_eq_some.mpr ⟨sig, hsig, rfl⟩⟩)
    (fun call s hs => bundleStamp_madeBy hs) calls hboth
  rw [← hquorum, ← hnone, verifyGuardQuorum_eq_ok, validate_eq_ok]
  constructor
  · rintro ⟨-, -, h⟩
    rwa [hrun] at h
  · intro h
    refine ⟨⟨?_, fun s hs => (hstamps s hs).1⟩, ?_, ?_⟩
    · rw [hrun]
      exact hb.with_signatures _
    · rw [hrun] at hstamps ⊢
      exact hstamps
    · rw [hrun]
      exact h

theorem verify_admitted_iff (hb : ValidContent b) (G : Guards cr b.peers)
    {a : EscrowAdmissionArtifact} (ha : a.validateUnsigned = .ok ()) (hnone : a.signatures = [])
    (hepoch : trim a.runtimeTrustEpoch = trim b.trustEpoch) {calls : List (SignCall ρ)}
    (hboth : ∀ g, Signed G (admissionDigest cr a) calls g) :
    (calls.foldl (signNextAdmission G) a).verifyAgainstBundle cr.admission b.forAdmission = .ok ()
      ↔ ∀ g, trim (G.peer g).id = (G.peer g).id ∧ trim (G.peer g).role = (G.peer g).role := by
  have hrun := foldl_signNextAdmission (G := G) hb ha calls []
  rw [← hnone] at hrun
  have hstamps : ∀ s ∈ (calls.foldl (signNextAdmission G) a).signatures,
      AdmissionMetadata (a.hashHex cr.admission) s := by
    intro s hs
    rw [hrun] at hs
    rcases mem_collect hs with hs | hs
    · exact absurd (hnone ▸ hs) List.not_mem_nil
    · obtain ⟨call, -, hcall⟩ := List.mem_map.mp hs
      obtain ⟨sig, -, rfl⟩ := admissionStamp_eq_some.mp hcall
      obtain ⟨hid, hrole, -⟩ := (hb.peers _ (G.listed call.signer)).normalized
      exact ⟨by simpa only [trim_trim] using hid.symm, by simpa only [trim_trim] using hrole.symm,
        trim_sigAlg, (congrArg _ (trim_hexEncode _)).trans (toAsciiLowercase_hexEncode _)⟩
  have hquorum := collect_quorum_iff hb G (admissionDigest cr a)
    (admissionStamp G (a.hashHex cr.admission) (admissionDigest cr a)) (·.signerId) admissionVoucher
    (fun call sig hsig => ⟨_, admissionStamp_eq_some.mpr ⟨sig, hsig, rfl⟩⟩)
    (fun call s hs => admissionStamp_madeBy hs) calls hboth
  rw [← hquorum, ← hnone, verifyAgainstBundle_eq_ok]
  constructor
  · rintro ⟨-, -, -, h⟩
    rwa [hrun] at h
  · intro h
    rw [hrun] at hstamps ⊢
    exact ⟨ha, hepoch, hstamps, h⟩

/-- **Signing completes.** The bundle is valid, has no signatures yet, and lists one host for each
    role. The guards sign it in any order and any number of times, each at least once with success;
    then it is accepted, every host is found under its id with blanks or without, and its book
    lists the others. All this holds exactly if the listed ids and the guards' roles have no blanks
    around them; for an artifact of the bundle's epoch, if the guards' ids and roles have none. -/
theorem signing_completes_iff (cr : TrustCrypto ρ) (b : RuntimeTrustBundle)
    (hvalid : b.validate = .ok ()) (hnone : b.signatures = []) (G : Guards cr b.peers) :
    (((∀ calls, (∀ g, Signed G (b.digest cr) calls g) →
        (calls.foldl (signNext G) b).verifyGuardQuorum cr = .ok ())
      ∧ ∀ p ∈ b.peers, ∀ id, id = p.id ∨ id = trim p.id → b.localPeer id = .ok p
        ∧ b.peerBookFor id = .ok ⟨(b.peers.filter (· ≠ p)).map RuntimeTrustPeer.entry⟩)
      ↔ (∀ p ∈ b.peers, trim p.id = p.id) ∧ ∀ g, trim (G.peer g).role = (G.peer g).role)
    ∧ ∀ a : EscrowAdmissionArtifact, a.validateUnsigned = .ok () → a.signatures = [] →
      trim a.runtimeTrustEpoch = trim b.trustEpoch →
      ((∀ calls, (∀ g, Signed G (admissionDigest cr a) calls g) →
        (calls.foldl (signNextAdmission G) a).verifyAgainstBundle cr.admission b.forAdmission
          = .ok ())
      ↔ ∀ g, trim (G.peer g).id = (G.peer g).id ∧ trim (G.peer g).role = (G.peer g).role) := by
  have hb := (validate_eq_ok.mp hvalid).1
  refine ⟨⟨?_, ?_⟩, ?_⟩
  · rintro ⟨hverify, hfound⟩
    obtain ⟨calls, hboth⟩ := G.exists_calls (b.digest cr)
    refine ⟨fun p hp => ?_, fun g => ?_⟩
    · exact (localPeer_eq_ok hb hp rfl).mp (hfound p hp p.id (.inl rfl)).1
    · exact ((verify_signed_iff hb hnone G hboth).mp (hverify calls hboth) g).2
  · rintro ⟨hids, hroles⟩
    refine ⟨fun calls hboth => ?_, fun p hp id hid => ?_⟩
    · exact (verify_signed_iff hb hnone G hboth).mpr
        fun g => ⟨hids _ (G.listed g), hroles g⟩
    · have htrim : trim id = trim p.id := by
        rcases hid with rfl | rfl
        · rfl
        · exact trim_trim _
      exact ⟨(localPeer_eq_ok hb hp htrim).mpr (hids p hp),
        peerBookFor_eq_ok hb hp htrim (hids p hp) (G.exists_other p)⟩
  · intro a ha hnone' hepoch
    constructor
    · intro hverify
      obtain ⟨calls, hboth⟩ := G.exists_calls (admissionDigest cr a)
      exact (verify_admitted_iff hb G ha hnone' hepoch hboth).mp (hverify calls hboth)
    · intro h calls hboth
      exact (verify_admitted_iff hb G ha hnone' hepoch hboth).mpr h

end

/-! ### Samples -/

theorem sample_workingPair (k : UInt8) : WorkingPair sampleTrust [k] [k] where
  signs digest := ⟨(), k :: digest.data, rfl⟩
  verifies digest coins sig h := by
    obtain rfl : k :: digest.data = sig := Except.ok.inj h
    simp only [falconVerify, bind_eq_ok, failIf_eq_ok, exists_unit, sampleTrust]
    refine ⟨?_, ?_, by simp⟩
    · simp [MsTransport.nxmsMaxSigPkLen]
    · simp [digest.len, MsTransport.ffFalconSigMax]

/-- The guards of the sample. -/
def sampleGuards : Guards sampleTrust (sampleBundle samplePeers).peers where
  peer
    | .ag01 => sampleGuard "ag-one" "ag-01" "one.onion" 1
    | .ag02 => sampleGuard "ag-two" "ag-02" "two.onion" 2
  listed g := by cases g <;> decide +kernel
  only g := by cases g <;> decide +kernel
  sk
    | .ag01 => [1]
    | .ag02 => [2]
  pk
    | .ag01 => [1]
    | .ag02 => [2]
  key g := by cases g <;> rfl
  works g := by
    cases g with
    | ag01 => exact sample_workingPair 1
    | ag02 => exact sample_workingPair 2

/-- The same, the first of them with a blank before its id. -/
def paddedGuards : Guards sampleTrust (sampleBundle paddedPeers).peers where
  peer
    | .ag01 => sampleGuard " ag-one" "ag-01" "one.onion" 1
    | .ag02 => sampleGuard "ag-two" "ag-02" "two.onion" 2
  listed g := by cases g <;> decide +kernel
  only g := by cases g <;> decide +kernel
  sk
    | .ag01 => [1]
    | .ag02 => [2]
  pk
    | .ag01 => [1]
    | .ag02 => [2]
  key g := by cases g <;> rfl
  works g := by
    cases g with
    | ag01 => exact sample_workingPair 1
    | ag02 => exact sample_workingPair 2

/-- The second guard signs, then the first one twice. -/
def sampleCalls : List (SignCall Unit) :=
  [⟨.ag02, 5, ()⟩, ⟨.ag01, 6, ()⟩, ⟨.ag01, 7, ()⟩]

theorem sampleCalls_signed {peers : List RuntimeTrustPeer} (G : Guards sampleTrust peers)
    (digest : Bytes 32) (hsk : ∀ g, ∃ k, G.sk g = [k]) (g : Guard) :
    Signed G digest sampleCalls g := by
  obtain ⟨k, hk⟩ := hsk g
  refine ⟨⟨g, if g = .ag01 then 6 else 5, ()⟩, ?_, rfl, k :: digest.data, by rw [hk]; rfl⟩
  cases g with
  | ag01 => exact List.mem_cons_of_mem _ List.mem_cons_self
  | ag02 => exact List.mem_cons_self

/-- The sample bundle and the sample artifact are accepted after three calls, and the first guard's
    book has the second in it. -/
theorem signing_completes_iff_sample :
    (sampleCalls.foldl (signNext sampleGuards) (sampleBundle samplePeers)).verifyGuardQuorum
        sampleTrust = .ok ()
      ∧ (sampleCalls.foldl (signNextAdmission sampleGuards) sampleArtifact).verifyAgainstBundle
        sampleTrust.admission (sampleBundle samplePeers).forAdmission = .ok ()
      ∧ (sampleBundle samplePeers).peerBookFor "ag-one"
        = .ok ⟨[(sampleGuard "ag-two" "ag-02" "two.onion" 2).entry]⟩ := by
  have hsk : ∀ g, ∃ k, sampleGuards.sk g = [k] := by
    intro g
    cases g <;> exact ⟨_, rfl⟩
  obtain ⟨hbundle, hadmission⟩ := signing_completes_iff sampleTrust (sampleBundle samplePeers)
    (by decide +kernel) rfl sampleGuards
  obtain ⟨hverify, hfound⟩ := hbundle.mpr
    ⟨by decide +kernel, fun g => by cases g <;> decide +kernel⟩
  have hadmitted := (hadmission sampleArtifact (by decide +kernel) rfl (by decide +kernel)).mpr
    (fun g => by cases g <;> decide +kernel)
  have hbook := (hfound (sampleGuard "ag-one" "ag-01" "one.onion" 1) List.mem_cons_self "ag-one"
    (.inl rfl)).2
  refine ⟨hverify _ (sampleCalls_signed _ _ hsk), hadmitted _ (sampleCalls_signed _ _ hsk), ?_⟩
  rw [hbook]
  decide +kernel

/-- **A blank before an id.** The bundle is valid and both guards sign it, but it is not accepted,
    nor is an artifact they sign, and the first guard is not found under its id. -/
theorem padded_id_is_not_found :
    (sampleBundle paddedPeers).validate = .ok ()
      ∧ (∀ g, Signed paddedGuards ((sampleBundle paddedPeers).digest sampleTrust) sampleCalls g)
      ∧ (sampleCalls.foldl (signNext paddedGuards) (sampleBundle paddedPeers)).verifyGuardQuorum
        sampleTrust = .error "runtime trust signer 'ag-one' not in peers list"
      ∧ (sampleCalls.foldl (signNextAdmission paddedGuards) sampleArtifact).verifyAgainstBundle
        sampleTrust.admission (sampleBundle paddedPeers).forAdmission
          = .error "escrow admission signer 'ag-one' not in runtime trust bundle"
      ∧ (sampleBundle paddedPeers).localPeer " ag-one"
        = .error "local_id 'ag-one' not present in runtime trust bundle" := by
  have hsk : ∀ g, ∃ k, paddedGuards.sk g = [k] := by
    intro g
    cases g <;> exact ⟨_, rfl⟩
  exact ⟨by decide +kernel, sampleCalls_signed _ _ hsk, by decide +kernel, by decide +kernel,
    by decide +kernel⟩

end Nexum.Trust
