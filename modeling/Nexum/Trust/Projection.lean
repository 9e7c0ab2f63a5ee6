import Nexum.Transport.HostVault
import Nexum.Trust.Bundle

/-!
# The files a host takes from its bundle

`materialize` writes two files for a host: its peer book and the key of the action tokens. `verify`
holds such files against the bundle again. The second reads the key's file with both ends trimmed
and compares it with the key of the bundle, of which only the **end** is stripped, and only of four
kinds of white space; the bundle's own check trims before it looks. A bundle whose key begins with a
blank is accepted and written, and the file that was written is then refused
(`projection_verifies_iff`, `written_and_refused`). The other way a written file is lost is the
temporary one: two paths may differ and the temporary path of the second may be the first.

A path stands for the file it names, and writing and renaming succeed.
-/

namespace Nexum.Trust

open Nexum.Lib Nexum.Lib.Check
open Nexum.Vault (Disk Keys vaultBinPath)

/-! ## 1. Paths and files -/

/-- A file in a directory. -/
structure FilePath where
  dir : String
  name : String
  plain : '/' ∉ chars name ∧ name ∉ ["", ".", ".."]

def FilePath.text (p : FilePath) : String := p.dir ++ "/" ++ p.name

/-- `Path::file_stem`: what is before the last dot, unless that is nothing. -/
def fileStem (name : String) : String :=
  let before := ((chars name).rdropWhile (· ≠ '.')).dropLast
  if before = [] then name else String.ofList before

/-- The text of `path.with_extension("tmp")`. -/
def FilePath.tmp (p : FilePath) : String := p.dir ++ "/" ++ fileStem p.name ++ ".tmp"

def rename (disk : Disk) (src dst : String) : Disk :=
  if src = dst then disk else Function.update (Function.update disk dst (disk src)) src none

def writeBytesAtomic (disk : Disk) (path : FilePath) (value : List UInt8) : Disk :=
  rename (Function.update disk path.tmp (some value)) path.tmp path.text

section
variable {disk : Disk} {path : FilePath} {value : List UInt8}

theorem write_self : writeBytesAtomic disk path value path.text = some value := by
  unfold writeBytesAtomic rename
  split
  · rename_i heq
    rw [heq, Function.update_self]
  · rename_i hne
    rw [Function.update_of_ne (Ne.symm hne), Function.update_self, Function.update_self]

theorem write_other {p : String} (hpath : p ≠ path.text) (htmp : p ≠ path.tmp) :
    writeBytesAtomic disk path value p = disk p := by
  unfold writeBytesAtomic rename
  split <;> simp [Function.update_of_ne, hpath, htmp]

theorem write_tmp (h : path.tmp ≠ path.text) :
    writeBytesAtomic disk path value path.tmp = none := by
  rw [writeBytesAtomic, rename, if_neg h, Function.update_self]

end

/-! ## 2. The two commands -/

/-- Cryptography, the host vault's library, and the JSON of bundles and peer books. -/
structure ProjectionEnv (ρ : Type) where
  crypto : TrustCrypto ρ
  vault : Vault.Env
  parseBundle : List UInt8 → Option RuntimeTrustBundle
  bookJson : PeerBook → List UInt8
  parseBook : List UInt8 → Option PeerBook

section
variable {ρ : Type} (env : ProjectionEnv ρ)

def RuntimeTrustBundle.loadVerified (disk : Disk) (path : String) :
    Except String RuntimeTrustBundle := do
  let raw ← okOr (disk path) s!"failed to read runtime trust bundle {path}"
  let bundle ← okOr (env.parseBundle raw) s!"invalid runtime trust bundle {path}"
  bundle.validate
  bundle.verifyGuardQuorum env.crypto
  pure bundle

def loadHostKeys (disk : Disk) (dir passphrase : String) : Except String Keys := do
  let vault ← okOr (Vault.load env.vault disk dir passphrase).toOption
    s!"failed to load host vault {vaultBinPath dir}"
  pure vault.keys

def RuntimeTrustBundle.validateLocalKeys (b : RuntimeTrustBundle) (localId : String) (keys : Keys) :
    Except String Unit := do
  let peer ← b.localPeer localId
  failIf (keys.kemPkB64 ≠ peer.kemPkB64)
    s!"runtime trust bundle kem_pk mismatch for local_id '{localId}'"
  failIf (keys.sigPkB64 ≠ peer.sigPkB64)
    s!"runtime trust bundle sig_pk mismatch for local_id '{localId}'"

def RuntimeTrustBundle.materializeForLocal (b : RuntimeTrustBundle) (disk : Disk) (localId : String)
    (peersPath pemPath : FilePath) : Except String Disk := do
  let book ← b.peerBookFor localId
  let disk := writeBytesAtomic disk peersPath (env.bookJson book)
  pure (writeBytesAtomic disk pemPath (utf8 b.actionToken.publicKeyPem))

def PeerBook.load (disk : Disk) (path : FilePath) : Except String PeerBook := do
  let data ← okOr (disk path.text) s!"failed to load peers projection {path.text}"
  let book ← okOr (env.parseBook data) s!"failed to load peers projection {path.text}"
  failIf (book.peers = []) s!"failed to load peers projection {path.text}"
  pure book

def readPublicText (disk : Disk) (path : FilePath) (label : String) : Except String String := do
  let bytes ← okOr (disk path.text) s!"{label} failed to open '{path.text}'"
  let raw ← okOr (readUtf8 bytes) s!"{label} failed to read '{path.text}'"
  let out := trim raw
  failIf (out = "") s!"{label} '{path.text}' is empty"
  pure (out ++ "\n")

/-- `trim_end_matches` with these four. -/
def normalizeText (value : String) : String :=
  String.ofList ((chars value).rdropWhile (· ∈ ['\r', '\n', ' ', '\t']))

variable (bundlePath localId dir passphrase : String) (peersPath pemPath : FilePath) (disk : Disk)

def materializeRuntimeTrustForLocal : Except String (RuntimeTrustBundle × Disk) := do
  let keys ← loadHostKeys env disk dir passphrase
  let bundle ← RuntimeTrustBundle.loadVerified env disk bundlePath
  bundle.validateLocalKeys localId keys
  let disk ← bundle.materializeForLocal env disk localId peersPath pemPath
  pure (bundle, disk)

def verifyRuntimeTrustProjectionForLocal : Except String RuntimeTrustBundle := do
  let keys ← loadHostKeys env disk dir passphrase
  let bundle ← RuntimeTrustBundle.loadVerified env disk bundlePath
  bundle.validateLocalKeys localId keys
  let projected ← bundle.peerBookFor localId
  let actual ← PeerBook.load env disk peersPath
  failIf (projected ≠ actual)
    s!"peers.json does not match runtime trust bundle projection for local_id '{localId}'"
  let actualPem ← readPublicText disk pemPath "action_token_public_key_pem_path"
  failIf (normalizeText actualPem ≠ normalizeText bundle.actionToken.publicKeyPem)
    "action_token public key does not match runtime trust bundle projection"
  pure bundle

end

/-! ## 3. White space -/

theorem trimChars_append_white {cs tail : List Char} (h : ∀ c ∈ tail, isWhitespace c = true) :
    trimChars (cs ++ tail) = trimChars cs := by
  rw [trimChars, trimChars, List.dropWhile_append]
  have htail : tail.dropWhile isWhitespace = [] := List.dropWhile_eq_nil_iff.mpr h
  split
  · rename_i hempty
    rw [htail, List.isEmpty_iff.mp hempty]
  · rw [List.reverse_append, List.dropWhile_append_of_pos]
    exact fun c hc => h c (List.mem_reverse.mp hc)

theorem isWhitespace_of_mem {c : Char} (h : c ∈ ['\r', '\n', ' ', '\t']) :
    isWhitespace c = true := by
  simp only [List.mem_cons, List.not_mem_nil, or_false] at h
  rcases h with rfl | rfl | rfl | rfl <;> rfl

theorem trim_normalizeText (s : String) : trim (normalizeText s) = trim s := by
  have hsplit : (chars s).rdropWhile (· ∈ ['\r', '\n', ' ', '\t'])
      ++ (chars s).rtakeWhile (· ∈ ['\r', '\n', ' ', '\t']) = chars s :=
    List.rdropWhile_append_rtakeWhile
  rw [trim, trim, normalizeText, chars_eq (String.ofList _), String.toList_ofList]
  conv_rhs => rw [← hsplit]
  rw [trimChars_append_white]
  intro c hc
  exact isWhitespace_of_mem (by simpa using List.mem_rtakeWhile_imp hc)

/-- A trimmed text with a line feed after it is stripped of nothing else. -/
theorem normalizeText_trim (s : String) : normalizeText (trim s ++ "\n") = trim s := by
  rw [normalizeText, trim, chars_eq, String.toList_append, String.toList_ofList]
  congr 1
  rw [show "\n".toList = ['\n'] from rfl, List.rdropWhile_concat_pos _ _ _ (by decide),
    List.rdropWhile_eq_self_iff]
  intro hne hlast
  have hwhite := isWhitespace_of_mem (of_decide_eq_true hlast)
  have hend : ¬ isWhitespace ((trimChars (chars s)).getLast hne) = true :=
    List.rdropWhile_last_not isWhitespace ((chars s).dropWhile isWhitespace) hne
  exact hend hwhite

/-! ## 4. What is written, and what is verified -/

section
variable {ρ : Type} {env : ProjectionEnv ρ} {disk disk' : Disk} {localId : String}
  {b : RuntimeTrustBundle}

theorem peerBookFor_eq {book : PeerBook} (h : b.peerBookFor localId = .ok book) :
    book.peers = (b.peers.filter (·.id ≠ trim localId)).map RuntimeTrustPeer.entry
      ∧ book.peers ≠ [] := by
  simp only [RuntimeTrustBundle.peerBookFor, bind_eq_ok, failIf_eq_ok, exists_unit,
    pure_eq_ok] at h
  obtain ⟨-, -, hne, rfl⟩ := h
  exact ⟨by simp [bne, Bool.beq_eq_decide_eq], hne⟩

theorem loadVerified_pem {path : String}
    (h : RuntimeTrustBundle.loadVerified env disk path = .ok b) :
    trim b.actionToken.publicKeyPem ≠ "" := by
  simp only [RuntimeTrustBundle.loadVerified, bind_eq_ok, exists_unit, pure_eq_ok] at h
  obtain ⟨raw, -, b', -, hvalid, -, rfl⟩ := h
  simp only [RuntimeTrustBundle.validate, RuntimeActionTokenIssuer.validate, bind_eq_ok,
    failIf_eq_ok, exists_unit] at hvalid
  exact hvalid.2.2.2.2.1.2.2.1

theorem loadVerified_congr {path : String} (h : disk' path = disk path) :
    RuntimeTrustBundle.loadVerified env disk' path
      = RuntimeTrustBundle.loadVerified env disk path := by
  rw [RuntimeTrustBundle.loadVerified, RuntimeTrustBundle.loadVerified, h]

theorem loadHostKeys_congr {dir pass : String}
    (h : disk' (vaultBinPath dir) = disk (vaultBinPath dir)) :
    loadHostKeys env disk' dir pass = loadHostKeys env disk dir pass := by
  rw [loadHostKeys, loadHostKeys, Vault.load, Vault.load, h]

/-- Only the two files and their temporary ones are touched. -/
theorem materialize_other {bundlePath dir pass : String} {peersPath pemPath : FilePath}
    (h : materializeRuntimeTrustForLocal env bundlePath localId dir pass peersPath pemPath disk
      = .ok (b, disk')) {p : String}
    (hp : p ∉ [peersPath.text, pemPath.text, peersPath.tmp, pemPath.tmp]) : disk' p = disk p := by
  simp only [materializeRuntimeTrustForLocal, RuntimeTrustBundle.materializeForLocal, bind_eq_ok,
    exists_unit, pure_eq_ok, Prod.mk.injEq] at h
  obtain ⟨_, -, _, -, -, _, ⟨_, -, rfl⟩, -, rfl⟩ := h
  simp only [List.mem_cons, List.not_mem_nil, or_false, not_or] at hp
  rw [write_other hp.2.1 hp.2.2.2, write_other hp.1 hp.2.2.1]

/-- A file that holds a text is read trimmed, with a line feed. -/
theorem readPublicText_eq {path : FilePath} {label text out : String} {file : List UInt8}
    (hfile : disk path.text = some file) (htext : readUtf8 file = some text) :
    readPublicText disk path label = .ok out ↔ trim text ≠ "" ∧ trim text ++ "\n" = out := by
  simp only [readPublicText, bind_eq_ok, okOr_eq_ok, hfile, htext, Option.some.injEq,
    exists_eq_left', failIf_eq_ok, exists_unit, pure_eq_ok, ne_eq]

end

/-- **The files verify exactly if** the second was not written over the first, and stripping the end
    of the bundle's key is trimming it. And **what verifies is the projection**: the bundle's
    other peers in its order, and its key up to white space around it. -/
theorem projection_verifies_iff {ρ : Type} (env : ProjectionEnv ρ)
    (bundlePath localId dir passphrase : String) (peersPath pemPath : FilePath) :
    (∀ disk disk' b, materializeRuntimeTrustForLocal env bundlePath localId dir passphrase
        peersPath pemPath disk = .ok (b, disk') →
      peersPath.text ≠ pemPath.text → disk' bundlePath = disk bundlePath →
      disk' (vaultBinPath dir) = disk (vaultBinPath dir) →
      (∀ book, b.peerBookFor localId = .ok book → env.parseBook (env.bookJson book) = some book) →
      (verifyRuntimeTrustProjectionForLocal env bundlePath localId dir passphrase peersPath pemPath
          disk' = .ok b
        ↔ pemPath.tmp ≠ peersPath.text
          ∧ normalizeText b.actionToken.publicKeyPem = trim b.actionToken.publicKeyPem))
    ∧ ∀ disk b, verifyRuntimeTrustProjectionForLocal env bundlePath localId dir passphrase peersPath
        pemPath disk = .ok b →
      RuntimeTrustBundle.loadVerified env disk bundlePath = .ok b
      ∧ (∃ raw book, disk peersPath.text = some raw ∧ env.parseBook raw = some book
        ∧ book.peers = (b.peers.filter (·.id ≠ trim localId)).map RuntimeTrustPeer.entry)
      ∧ ∃ file text, disk pemPath.text = some file ∧ readUtf8 file = some text
        ∧ trim text = trim b.actionToken.publicKeyPem := by
  refine ⟨fun disk disk' b hmat hdiff hbundle hvault hjson => ?_, fun disk b hver => ?_⟩
  · simp only [materializeRuntimeTrustForLocal, RuntimeTrustBundle.materializeForLocal, bind_eq_ok,
      exists_unit, pure_eq_ok, Prod.mk.injEq] at hmat
    obtain ⟨keys, hkeys, b', hload, hlocal, d, ⟨book, hbook, rfl⟩, rfl, rfl⟩ := hmat
    have hpem := loadVerified_pem hload
    rw [← loadHostKeys_congr hvault] at hkeys
    rw [← loadVerified_congr hbundle] at hload
    obtain ⟨hpeers, hne⟩ := peerBookFor_eq hbook
    simp only [verifyRuntimeTrustProjectionForLocal, bind_eq_ok, exists_unit, hkeys, hload,
      Except.ok.injEq, exists_eq_left', hlocal, hbook, failIf_eq_ok, not_not, pure_eq_ok, true_and,
      readPublicText_eq write_self (readUtf8_utf8 _), ne_eq, hpem, not_false_eq_true,
      normalizeText_trim, and_true]
    by_cases htmp : pemPath.tmp = peersPath.text
    · -- the peer book was the temporary file of the key, and is gone
      have hgone : writeBytesAtomic (writeBytesAtomic disk peersPath (env.bookJson book)) pemPath
          (utf8 b'.actionToken.publicKeyPem) peersPath.text = none := by
        rw [← htmp]
        exact write_tmp (htmp ▸ hdiff)
      simp [PeerBook.load, hgone, okOr, htmp, bind, Except.bind]
    · have hbytes : writeBytesAtomic (writeBytesAtomic disk peersPath (env.bookJson book)) pemPath
          (utf8 b'.actionToken.publicKeyPem) peersPath.text = some (env.bookJson book) := by
        rw [write_other hdiff (Ne.symm htmp), write_self]
      have hactual : PeerBook.load env (writeBytesAtomic (writeBytesAtomic disk peersPath
          (env.bookJson book)) pemPath (utf8 b'.actionToken.publicKeyPem)) peersPath
          = .ok book := by
        simp only [PeerBook.load, bind_eq_ok, okOr_eq_ok, hbytes, Option.some.injEq,
          exists_eq_left', hjson book hbook, failIf_eq_ok, hne, exists_unit, pure_eq_ok,
          not_false_eq_true, true_and]
      simp only [hactual, Except.ok.injEq, exists_eq_left', true_and, htmp, not_false_eq_true]
      exact eq_comm
  · simp only [verifyRuntimeTrustProjectionForLocal, PeerBook.load, readPublicText, bind_eq_ok,
      exists_unit, okOr_eq_ok, failIf_eq_ok, not_not, pure_eq_ok] at hver
    obtain ⟨keys, -, b', hload, -, projected, hbook, actual, ⟨raw, hraw, book, hparse, -, rfl⟩, rfl,
      out, ⟨file, hfile, text, htext, -, rfl⟩, hsame, rfl⟩ := hver
    refine ⟨hload, ⟨raw, _, hraw, hparse, (peerBookFor_eq hbook).1⟩, file, text, hfile, htext, ?_⟩
    rw [normalizeText_trim] at hsame
    rw [← trim_trim, hsame, trim_normalizeText]

/-! ### Samples -/

/-- A bundle whose key is `pem`, with hashes and signatures that are all the same. -/
def keyBundle (pem : String) : RuntimeTrustBundle where
  schema := runtimeTrustBundleSchemaV1
  trustEpoch := "epoch-1"
  peers := [⟨"ag-one", "ag-01", "one.onion", 9000, Vault.sampleKeys.kemPkB64,
      Vault.sampleKeys.sigPkB64⟩,
    ⟨"ag-two", "ag-02", "two.onion", 9000, b64Encode [2], b64Encode [2]⟩]
  actionToken := ⟨"orchestrator", "EdDSA", pem⟩
  signatures :=
    [("ag-one", "ag-01", Vault.sampleKeys.sigPkB64), ("ag-two", "ag-02", b64Encode [2])].map
      fun (id, role, pk) => ⟨id, role, pk, b64Encode [1], hexEncode (List.replicate 32 0),
        runtimeTrustSigAlg, 0⟩

def keyEnv (pem : String) : ProjectionEnv Unit where
  crypto := ⟨fun _ => .fill 32 0, fun _ => [], fun _ _ _ => .ok [1], fun _ _ _ => 0⟩
  vault := Vault.sampleEnv "ag-one" Vault.sampleKeys
  parseBundle _ := some (keyBundle pem)
  bookJson _ := [1]
  parseBook _ := some ⟨[⟨"ag-two", "two.onion", 9000, b64Encode [2], b64Encode [2]⟩]⟩

/-- A disk with a host vault and a bundle. -/
def keyDisk : Disk :=
  Function.update ((Vault.sampleStore "ag-one").toOption.getD fun _ => none) "bundle.json" (some [])

def jsonPath : FilePath := ⟨"/etc", "peers.json", by decide⟩
def pemPath : FilePath := ⟨"/etc", "token.pem", by decide⟩

/-- The two commands on the sample. -/
def keyRun (pem : String) : Except String RuntimeTrustBundle × Except String RuntimeTrustBundle :=
  let run := materializeRuntimeTrustForLocal (keyEnv pem) "bundle.json" "ag-one" "/var/nxms"
    "correct horse battery" jsonPath pemPath keyDisk
  (run.map Prod.fst, run.bind fun out =>
    verifyRuntimeTrustProjectionForLocal (keyEnv pem) "bundle.json" "ag-one" "/var/nxms"
      "correct horse battery" jsonPath pemPath out.2)

theorem projection_verifies_iff_sample :
    keyRun "-----BEGIN PUBLIC KEY-----" = (.ok (keyBundle "-----BEGIN PUBLIC KEY-----"),
      .ok (keyBundle "-----BEGIN PUBLIC KEY-----")) := by
  have hfirst : (keyRun "-----BEGIN PUBLIC KEY-----").1
      = .ok (keyBundle "-----BEGIN PUBLIC KEY-----") := by
    decide +kernel
  have hlater : ((pemPath.tmp ≠ jsonPath.text ∧ jsonPath.text ≠ pemPath.text)
      ∧ ("bundle.json" ∉ [jsonPath.text, pemPath.text, jsonPath.tmp, pemPath.tmp]
        ∧ vaultBinPath "/var/nxms" ∉ [jsonPath.text, pemPath.text, jsonPath.tmp, pemPath.tmp]))
      ∧ normalizeText "-----BEGIN PUBLIC KEY-----" = trim "-----BEGIN PUBLIC KEY-----"
      ∧ (keyBundle "-----BEGIN PUBLIC KEY-----").peerBookFor "ag-one"
        = .ok ⟨[⟨"ag-two", "two.onion", 9000, b64Encode [2], b64Encode [2]⟩]⟩ := by
    decide +kernel
  obtain ⟨⟨⟨htmp, hdiff⟩, hbundle, hvault⟩, hpem, hbook⟩ := hlater
  refine Prod.ext hfirst ?_
  simp only [keyRun] at hfirst ⊢
  cases hrun : materializeRuntimeTrustForLocal (keyEnv "-----BEGIN PUBLIC KEY-----") "bundle.json"
    "ag-one" "/var/nxms" "correct horse battery" jsonPath pemPath keyDisk with
  | error e =>
    rw [hrun] at hfirst
    cases hfirst
  | ok out =>
    rw [hrun] at hfirst
    obtain ⟨b, disk'⟩ := out
    have hb : b = keyBundle "-----BEGIN PUBLIC KEY-----" := Except.ok.inj hfirst
    subst hb
    refine ((projection_verifies_iff _ _ _ _ _ _ _).1 _ _ _ hrun hdiff
      (materialize_other hrun hbundle) (materialize_other hrun hvault) ?_).mpr ⟨htmp, hpem⟩
    intro book h
    rw [hbook] at h
    cases h
    rfl

/-- **Written and refused.** The bundle's key begins with a blank. -/
theorem written_and_refused :
    keyRun " -----BEGIN PUBLIC KEY-----" = (.ok (keyBundle " -----BEGIN PUBLIC KEY-----"),
      .error "action_token public key does not match runtime trust bundle projection") := by
  decide +kernel

end Nexum.Trust
