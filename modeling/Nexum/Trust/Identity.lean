import Nexum.Trust.Bundle

/-!
# What the hash of a bundle stands for

The guards sign a hash, so everything they agree to has to be in it. **The hash of a bundle is the
hash of its schema, its epoch, its issuer of action tokens and its hosts, the hosts in any order**
(`hash_eq_iff`): sorting by all six fields of a host leaves one list for every set of hosts with
their multiplicities, and the canonical form of a document loses nothing but the order of its
members.
-/

namespace Nexum.Trust

open Nexum.Lib

/-! ## 1. The order of the hosts -/

theorem sortKey_injective : Function.Injective RuntimeTrustPeer.sortKey := by
  intro p q h
  obtain ⟨pid, prole, phost, pport, pkem, psig⟩ := p
  obtain ⟨qid, qrole, qhost, qport, qkem, qsig⟩ := q
  simp only [RuntimeTrustPeer.sortKey, EmbeddingLike.apply_eq_iff_eq, Prod.mk.injEq] at h
  obtain ⟨rfl, rfl, rfl, hport, rfl, rfl⟩ := h
  obtain rfl := UInt16.toNat_inj.mp hport
  rfl

instance : Std.Total fun a b : RuntimeTrustPeer => a.sortKey ≤ b.sortKey :=
  ⟨fun a b => le_total a.sortKey b.sortKey⟩

instance : IsTrans RuntimeTrustPeer fun a b => a.sortKey ≤ b.sortKey :=
  ⟨fun _ _ _ => le_trans⟩

instance : Std.Antisymm fun a b : RuntimeTrustPeer => a.sortKey ≤ b.sortKey :=
  ⟨fun _ _ hab hba => sortKey_injective (le_antisymm hab hba)⟩

theorem sortRuntimeTrustPeers_eq_iff {peers peers' : List RuntimeTrustPeer} :
    sortRuntimeTrustPeers peers = sortRuntimeTrustPeers peers' ↔ peers.Perm peers' :=
  insertionSort_eq_iff _

/-! ## 2. The canonical form -/

theorem canonical_peer_injective :
    Function.Injective fun p : RuntimeTrustPeer => canonicalizeJson p.json := by
  intro p q h
  have h := (canonicalizeJson_record (by decide) rfl rfl).mp h
  obtain ⟨pid, prole, phost, pport, pkem, psig⟩ := p
  obtain ⟨qid, qrole, qhost, qport, qkem, qsig⟩ := q
  simp only [List.map_cons, List.map_nil, canonicalizeJson, List.cons.injEq, JsonValue.str.injEq,
    JsonValue.num.injEq, and_true] at h
  obtain ⟨rfl, rfl, rfl, hport, rfl, rfl⟩ := h
  obtain rfl := UInt16.toNat_inj.mp hport
  rfl

theorem canonical_issuer_injective :
    Function.Injective fun t : RuntimeActionTokenIssuer => canonicalizeJson t.json := by
  intro t u h
  have h := (canonicalizeJson_record (by decide) rfl rfl).mp h
  obtain ⟨tissuer, talgorithm, tpem⟩ := t
  obtain ⟨uissuer, ualgorithm, upem⟩ := u
  simp only [List.map_cons, List.map_nil, canonicalizeJson, List.cons.injEq, JsonValue.str.injEq,
    and_true] at h
  obtain ⟨rfl, rfl, rfl⟩ := h
  rfl

/-- The same content: everything but the order of the hosts and the signatures. -/
structure SameContent (b b' : RuntimeTrustBundle) : Prop where
  schema : b.schema = b'.schema
  trustEpoch : b.trustEpoch = b'.trustEpoch
  actionToken : b.actionToken = b'.actionToken
  peers : b.peers.Perm b'.peers

theorem canonicalUnsignedJson_eq_iff {b b' : RuntimeTrustBundle} :
    b.canonicalUnsignedJson true = b'.canonicalUnsignedJson true ↔ SameContent b b' := by
  unfold RuntimeTrustBundle.canonicalUnsignedJson
  rw [canonicalizeJson_record (by decide) rfl rfl]
  simp only [List.map_cons, List.map_nil, canonicalizeJson, List.cons.injEq, JsonValue.str.injEq,
    JsonValue.arr.injEq, and_true, if_true, canonicalizeItems_eq, List.map_map]
  have hpeers : (sortRuntimeTrustPeers b.peers).map (canonicalizeJson ∘ RuntimeTrustPeer.json)
      = (sortRuntimeTrustPeers b'.peers).map (canonicalizeJson ∘ RuntimeTrustPeer.json)
      ↔ b.peers.Perm b'.peers := by
    rw [← sortRuntimeTrustPeers_eq_iff]
    exact (List.map_injective_iff.mpr canonical_peer_injective).eq_iff
  have hissuer : canonicalizeJson b.actionToken.json = canonicalizeJson b'.actionToken.json
      ↔ b.actionToken = b'.actionToken := canonical_issuer_injective.eq_iff
  rw [hpeers, hissuer]
  constructor
  · intro h
    exact ⟨h.1, h.2.1, h.2.2.2, h.2.2.1⟩
  · intro h
    exact ⟨h.schema, h.trustEpoch, h.peers, h.actionToken⟩

/-! ## 3. The hash -/

/-- **The hash is that of the content.** Two bundles have the same hash exactly if they agree on
    schema, epoch and issuer and list the same hosts, in whatever order; the signatures are not in
    it. The two documents must not collide: not in the text that is written for them, and not in
    the digest of it. -/
theorem hash_eq_iff {ρ : Type} (cr : TrustCrypto ρ) (b b' : RuntimeTrustBundle)
    (hjson : cr.jsonBytes (b.canonicalUnsignedJson true)
      = cr.jsonBytes (b'.canonicalUnsignedJson true) →
      b.canonicalUnsignedJson true = b'.canonicalUnsignedJson true)
    (hsha : b.digest cr = b'.digest cr → cr.jsonBytes (b.canonicalUnsignedJson true)
      = cr.jsonBytes (b'.canonicalUnsignedJson true)) :
    (b.hashHex cr = b'.hashHex cr ↔ b.schema = b'.schema ∧ b.trustEpoch = b'.trustEpoch
      ∧ b.actionToken = b'.actionToken ∧ b.peers.Perm b'.peers)
    ∧ ∀ signatures, { b with signatures := signatures }.hashHex cr = b.hashHex cr := by
  refine ⟨⟨?_, ?_⟩, fun signatures => rfl⟩
  · intro hhash
    have hdigest : b.digest cr = b'.digest cr := Bytes.ext_data (hexEncode_injective hhash)
    have hsame := canonicalUnsignedJson_eq_iff.mp (hjson (hsha hdigest))
    exact ⟨hsame.schema, hsame.trustEpoch, hsame.actionToken, hsame.peers⟩
  · intro h
    have hsame : SameContent b b' := ⟨h.1, h.2.1, h.2.2.1, h.2.2.2⟩
    simp only [RuntimeTrustBundle.hashHex, RuntimeTrustBundle.digest,
      canonicalUnsignedJson_eq_iff.mpr hsame]

/-! ### Sample bundles -/

mutual

/-- What `serde_json` writes for a value whose texts need no escapes. -/
def renderJson : JsonValue → String
  | .null => "null"
  | .bool b => toString b
  | .num n => toString n
  | .str s => "\"" ++ s ++ "\""
  | .arr items => "[" ++ ",".intercalate (renderItems items) ++ "]"
  | .obj members => "\x7b" ++ ",".intercalate (renderMembers members) ++ "\x7d"

def renderItems : List JsonValue → List String
  | [] => []
  | v :: rest => renderJson v :: renderItems rest

def renderMembers : List (String × JsonValue) → List String
  | [] => []
  | member :: rest => renderMember member :: renderMembers rest

def renderMember : String × JsonValue → String
  | (key, v) => "\"" ++ key ++ "\":" ++ renderJson v

end

/-- A guard of the sample: `n` is its key. -/
def sampleGuard (id role host : String) (n : UInt8) : RuntimeTrustPeer :=
  ⟨id, role, host, 9000, b64Encode [n], b64Encode [n]⟩

def sampleBundle (peers : List RuntimeTrustPeer) : RuntimeTrustBundle where
  schema := runtimeTrustBundleSchemaV1
  trustEpoch := "epoch-1"
  peers := peers
  actionToken := ⟨"orchestrator", "EdDSA", "-----BEGIN PUBLIC KEY-----"⟩
  signatures := []

def samplePeers : List RuntimeTrustPeer :=
  [sampleGuard "ag-one" "ag-01" "one.onion" 1, sampleGuard "ag-two" "ag-02" "two.onion" 2]

/-- Both guards with the same key. -/
def sameKeyPeers : List RuntimeTrustPeer :=
  [sampleGuard "ag-one" "ag-01" "one.onion" 1, sampleGuard "ag-two" "ag-02" "two.onion" 1]

/-- A guard with a blank before its id. -/
def paddedPeers : List RuntimeTrustPeer :=
  [sampleGuard " ag-one" "ag-01" "one.onion" 1, sampleGuard "ag-two" "ag-02" "two.onion" 2]

def sampleArtifact : Transport.EscrowAdmissionArtifact where
  schema := Transport.escrowAdmissionSchemaV1
  escrowIdHex := "00112233445566778899aabbccddeeff"
  snapshotHashHex := "5555555555555555555555555555555555555555555555555555555555555555"
  action := .release
  runtimeTrustEpoch := "epoch-1"
  admittedAtUnixMs := 7
  signatures := []

def sampleDigest (hex : String) : Bytes 32 :=
  if h : ((hexDecode hex).getD []).length = 32 then ⟨(hexDecode hex).getD [], h⟩
  else .fill 32 0

/-- The digests of the sample documents. -/
def sampleSha256 (bytes : List UInt8) : Bytes 32 :=
  (List.lookup bytes
    [(utf8 (renderJson ((sampleBundle samplePeers).canonicalUnsignedJson true)),
        sampleDigest "d4a278c0925049fc8dcf071104d647e53a7db9623f8aa43d6434f6564041a2bc"),
      (utf8 (renderJson ((sampleBundle sameKeyPeers).canonicalUnsignedJson true)),
        sampleDigest "4c2808f8c95f10a276c20315b156e54075c8a73670b1e82adbe6ac0fbc7ae53d"),
      (utf8 (renderJson ((sampleBundle paddedPeers).canonicalUnsignedJson true)),
        sampleDigest "a421ee648c7121b174ba546f3473ae87ede22efeb1670db2c17a19669f8d91b5"),
      (utf8 (renderJson (admissionJson sampleArtifact)),
        sampleDigest "a0f9db55ec3a52454f275f7055ff9709797257905da26acd381b278959d06e0d")]).getD
    (sampleDigest "")

/-- Signatures that name their key: the secret key and the public one are the same byte. -/
def sampleTrust : TrustCrypto Unit where
  sha256 := sampleSha256
  jsonBytes v := utf8 (renderJson v)
  ffFalconSignCt _ sk m := .ok (sk ++ m)
  ffFalconVerify pk m sig := if sig = pk ++ m then 0 else -1

theorem hash_eq_iff_swapped :
    (sampleBundle samplePeers).hashHex sampleTrust
        = "d4a278c0925049fc8dcf071104d647e53a7db9623f8aa43d6434f6564041a2bc"
      ∧ (sampleBundle samplePeers).hashHex sampleTrust
        = (sampleBundle samplePeers.reverse).hashHex sampleTrust := by
  have hsame : (sampleBundle samplePeers).canonicalUnsignedJson true
      = (sampleBundle samplePeers.reverse).canonicalUnsignedJson true :=
    canonicalUnsignedJson_eq_iff.mpr ⟨rfl, rfl, rfl, (List.reverse_perm _).symm⟩
  have hiff := hash_eq_iff sampleTrust (sampleBundle samplePeers)
    (sampleBundle samplePeers.reverse) (fun _ => hsame) (fun _ => by rw [hsame])
  exact ⟨by decide +kernel, hiff.1.mpr ⟨rfl, rfl, rfl, (List.reverse_perm _).symm⟩⟩

end Nexum.Trust
