import Nexum.Lib.Base64
import Nexum.Lib.Bytes
import Nexum.Lib.Json
import Nexum.Lib.Saturating
import Nexum.Transport.Wire

/-!
# The host vault

A host keeps its keys in one file: a packed header, which is also the associated data, and the
sealed JSON text of the vault. `store` writes it and `load` reads it back, and each has limits of
its own. They agree on all of them but one. `store` holds the **plaintext** against the limit that
`load` has for the **ciphertext**, which is sixteen bytes longer: a payload in the last sixteen
bytes under the limit is stored and never read again (`load_stored`, `stored_and_lost`). The id is
measured trimmed and kept as it is, so such a payload needs no large key.

libsodium and the JSON reader are parameters.
-/

namespace Nexum.Vault

open Nexum.Lib Nexum.Lib.Check

/-! ## 1. What is kept -/

structure Keys where
  kemSkB64 : String
  kemPkB64 : String
  sigSkB64 : String
  sigPkB64 : String
  deriving DecidableEq

structure HostVault where
  schema : String
  localId : String
  kemId : String
  sigId : String
  keys : Keys
  deriving DecidableEq

def hostVaultSchemaV1 : String := "nxms-host-vault/v1"
def hostVaultMagic : Bytes 4 := ⟨[0x4E, 0x58, 0x48, 0x56], rfl⟩
def hostVaultHeaderLen : Nat := 4 + 16 + 8 + 8 + 24 + 4
def hostVaultMaxCtLen : Nat := 16 * 1024 * 1024
def hostVaultAeadTagLen : Nat := 16
def hostVaultKdfPolicyMultiplier : Nat := 8
def nxmsKemId : String := "FrodoKEM-640-SHAKE"
def nxmsSigId : String := "Falcon-1024-CT"

/-- What `store` makes of its arguments. -/
def payload (localId : String) (keys : Keys) : HostVault :=
  ⟨hostVaultSchemaV1, localId, nxmsKemId, nxmsSigId, keys⟩

/-- `serde_json::to_vec`, before it is bytes. -/
def vaultJson (v : HostVault) : String :=
  "\x7b" ++ jsonField "schema" (jsonString v.schema)
    ++ "," ++ jsonField "local_id" (jsonString v.localId)
    ++ "," ++ jsonField "kem_id" (jsonString v.kemId)
    ++ "," ++ jsonField "sig_id" (jsonString v.sigId)
    ++ "," ++ jsonField "keys" ("\x7b" ++ jsonField "kem_sk_b64" (jsonString v.keys.kemSkB64)
      ++ "," ++ jsonField "kem_pk_b64" (jsonString v.keys.kemPkB64)
      ++ "," ++ jsonField "sig_sk_b64" (jsonString v.keys.sigSkB64)
      ++ "," ++ jsonField "sig_pk_b64" (jsonString v.keys.sigPkB64) ++ "\x7d") ++ "\x7d"

/-- libsodium, the JSON reader, and whether the file system takes what is written. -/
structure Env where
  sodiumInit : Bool
  opslimitInteractive : UInt64
  memlimitInteractive : UInt64
  pwhash : List UInt8 → Bytes 16 → UInt64 → UInt64 → Option (Bytes 32)
  aeadEncrypt : Bytes 32 → Bytes 24 → List UInt8 → List UInt8 → Option (List UInt8)
  aeadDecrypt : Bytes 32 → Bytes 24 → List UInt8 → List UInt8 → Option (List UInt8)
  fromSlice : List UInt8 → Option HostVault
  writes : Bool

/-- What is assumed of libsodium. -/
structure Env.Lawful (env : Env) : Prop where
  opslimit : env.opslimitInteractive ≠ 0
  memlimit : env.memlimitInteractive ≠ 0
  decrypts : ∀ {key nonce aad m c}, env.aeadEncrypt key nonce aad m = some c →
    env.aeadDecrypt key nonce aad c = some m
  length : ∀ {key nonce aad m c}, env.aeadEncrypt key nonce aad m = some c →
    c.length = m.length + hostVaultAeadTagLen

/-- The files, by their paths. -/
abbrev Disk := String → Option (List UInt8)

def vaultBinPath (dir : String) : String := dir ++ "/vault.bin"

/-! ## 2. Checks -/

def maxB64LenForDecoded (maxDecodedLen : Nat) : Nat := (maxDecodedLen + 2) / 3 * 4

def decodeKeyB64 (value label : String) (minLen maxLen : Nat) : Except String (List UInt8) := do
  failIf (maxB64LenForDecoded maxLen < value.utf8ByteSize)
    (label ++ " base64 too long: " ++ toString value.utf8ByteSize ++ " > "
      ++ toString (maxB64LenForDecoded maxLen))
  let out ← okOr (b64Decode value) "invalid base64"
  failIf (out.length < minLen ∨ maxLen < out.length)
    ("invalid decoded " ++ label ++ " length " ++ toString out.length ++ " (expected "
      ++ toString minLen ++ "..=" ++ toString maxLen ++ ")")
  pure out

def validateKeys (keys : Keys) : Except String Unit := do
  let _ ← decodeKeyB64 keys.kemPkB64 "kem_pk" 64 32768
  let _ ← decodeKeyB64 keys.sigPkB64 "sig_pk" 1 65536
  let _ ← decodeKeyB64 keys.kemSkB64 "kem_sk" 64 65536
  let _ ← decodeKeyB64 keys.sigSkB64 "sig_sk" 1 65536
  pure ()

def validateLocalId (value : String) : Except String Unit :=
  failIf (trim value = "" ∨ 128 < (trim value).utf8ByteSize)
    "host vault local_id must be 1..=128 chars"

def validatePassphrase (value : String) : Except String Unit :=
  failIf ((trim value).utf8ByteSize < 12) "host vault passphrase must be at least 12 chars"

def HostVault.validate (v : HostVault) : Except String Unit := do
  failIf (trim v.schema ≠ hostVaultSchemaV1)
    ("host vault schema mismatch: expected '" ++ hostVaultSchemaV1 ++ "' got '" ++ v.schema ++ "'")
  validateLocalId v.localId
  failIf (trim v.kemId ≠ nxmsKemId)
    ("host vault kem_id '" ++ v.kemId ++ "' does not match runtime suite '" ++ nxmsKemId ++ "'")
  failIf (trim v.sigId ≠ nxmsSigId)
    ("host vault sig_id '" ++ v.sigId ++ "' does not match runtime suite '" ++ nxmsSigId ++ "'")
  validateKeys v.keys

theorem validate_payload {localId : String} {keys : Keys}
    (hid : validateLocalId localId = .ok ()) (hkeys : validateKeys keys = .ok ()) :
    (payload localId keys).validate = .ok () := by
  have hsuite : trim hostVaultSchemaV1 = hostVaultSchemaV1 ∧ trim nxmsKemId = nxmsKemId
      ∧ trim nxmsSigId = nxmsSigId := by
    decide +kernel
  obtain ⟨hschema, hkem, hsig⟩ := hsuite
  simp only [HostVault.validate, payload, hschema, hkem, hsig, hid, hkeys, bind_eq_ok, failIf_eq_ok,
    exists_unit, ne_eq, not_true_eq_false, not_false_eq_true, and_self]

/-! ## 3. The header -/

structure VaultHeader where
  salt : Bytes 16
  opslimit : UInt64
  memlimit : UInt64
  nonce : Bytes 24
  ctLen : Nat

section
variable (env : Env)

def validateKdfPolicy (opslimit memlimit : UInt64) : Except String Unit := do
  let maxOpslimit := min (env.opslimitInteractive.toNat * hostVaultKdfPolicyMultiplier) (2 ^ 64 - 1)
  let maxMemlimit := min (env.memlimitInteractive.toNat * hostVaultKdfPolicyMultiplier) (2 ^ 64 - 1)
  failIf (opslimit = 0 ∨ maxOpslimit < opslimit.toNat)
    ("host vault opslimit " ++ toString opslimit ++ " exceeds policy max " ++ toString maxOpslimit)
  failIf (memlimit = 0 ∨ maxMemlimit < memlimit.toNat)
    ("host vault memlimit " ++ toString memlimit ++ " exceeds policy max " ++ toString maxMemlimit)

/-- A number in `k` bytes; what does not fit is cut off. -/
def le (k n : Nat) : Bytes k := ⟨leBytes k n, length_leBytes k n⟩

def VaultHeader.writeInto (h : VaultHeader) : List UInt8 :=
  hostVaultMagic.data ++ (h.salt.data ++ ((le 8 h.opslimit.toNat).data
    ++ ((le 8 h.memlimit.toNat).data ++ (h.nonce.data ++ (le 4 h.ctLen).data))))

/-- The slices of the header, one after the other. After the first check none of them is short. -/
def VaultHeader.parse (blob : List UInt8) : Except String VaultHeader := do
  failIf (blob.length < hostVaultHeaderLen) "host vault file too short"
  let (magic, rest) ← okOr (readBytes 4 blob) "slice len"
  failIf (magic ≠ hostVaultMagic) "host vault magic mismatch"
  let (salt, rest) ← okOr (readBytes 16 rest) "slice len"
  let (ops, rest) ← okOr (readBytes 8 rest) "slice len"
  let (mem, rest) ← okOr (readBytes 8 rest) "slice len"
  let opslimit := UInt64.ofNat (leNat ops.data)
  let memlimit := UInt64.ofNat (leNat mem.data)
  validateKdfPolicy env opslimit memlimit
  let (nonce, rest) ← okOr (readBytes 24 rest) "slice len"
  let (len, _) ← okOr (readBytes 4 rest) "slice len"
  let ctLen := leNat len.data
  failIf (ctLen = 0 ∨ hostVaultMaxCtLen < ctLen)
    ("host vault ciphertext length out of bounds: " ++ toString ctLen)
  failIf (blob.length ≠ hostVaultHeaderLen + ctLen)
    ("host vault size mismatch: blob=" ++ toString blob.length ++ " expected="
      ++ toString (hostVaultHeaderLen + ctLen))
  pure ⟨salt, opslimit, memlimit, nonce, ctLen⟩

variable {env}

theorem length_writeInto (h : VaultHeader) : h.writeInto.length = hostVaultHeaderLen := by
  simp [VaultHeader.writeInto, le, Bytes.len, hostVaultHeaderLen]

theorem validateKdfPolicy_interactive (laws : env.Lawful) :
    validateKdfPolicy env env.opslimitInteractive env.memlimitInteractive = .ok () := by
  have hops := env.opslimitInteractive.toNat_lt
  have hmem := env.memlimitInteractive.toNat_lt
  simp only [validateKdfPolicy, hostVaultKdfPolicyMultiplier, bind_eq_ok, failIf_eq_ok, exists_unit,
    laws.opslimit, laws.memlimit, false_or, Nat.not_lt]
  omega

/-- **The header is read back**, unless the ciphertext it announces is over the limit. -/
theorem parse_writeInto (laws : env.Lawful) (salt : Bytes 16) (nonce : Bytes 24)
    {ct : List UInt8} (hpos : ct ≠ []) (hlt : ct.length < 2 ^ 32) (h : VaultHeader)
    (hh : h = ⟨salt, env.opslimitInteractive, env.memlimitInteractive, nonce, ct.length⟩)
    (out : VaultHeader) :
    VaultHeader.parse env (h.writeInto ++ ct) = .ok out
      ↔ ct.length ≤ hostVaultMaxCtLen ∧ h = out := by
  have hlen := length_writeInto h
  have hpolicy := validateKdfPolicy_interactive laws
  have hword : ∀ w : UInt64, UInt64.ofNat (leNat (le 8 w.toNat).data) = w := by
    intro w
    rw [le, leNat_leBytes (by simpa using w.toNat_lt), UInt64.ofNat_toNat]
  have hct : leNat (le 4 ct.length).data = ct.length := leNat_leBytes (by simpa using hlt)
  have hne : ct.length ≠ 0 := fun h => hpos (List.length_eq_zero_iff.mp h)
  have htotal : (h.writeInto ++ ct).length = hostVaultHeaderLen + ct.length := by
    rw [List.length_append, hlen]
  unfold VaultHeader.parse
  rw [htotal]
  subst hh
  simp only [VaultHeader.writeInto, List.append_assoc, readBytes_append, okOr, bind_eq_ok,
    failIf_eq_ok, exists_unit, pure_eq_ok, Except.ok.injEq]
  simp [hword, hct, hpolicy, hne]

end

/-! ## 4. Storing and loading -/

section
variable (env : Env)

def initSodium : Except String Unit := failIf (¬ env.sodiumInit) "sodium_init failed"

def deriveKey (passphrase : String) (salt : Bytes 16) (opslimit memlimit : UInt64) :
    Except String (Bytes 32) :=
  okOr (env.pwhash (utf8 passphrase) salt opslimit memlimit) "host vault crypto_pwhash failed"

/-- `salt` and `nonce` are what `VaultHeader::new` draws. -/
def store (disk : Disk) (dir passphrase localId : String) (keys : Keys) (salt : Bytes 16)
    (nonce : Bytes 24) : Except String Disk := do
  initSodium env
  validatePassphrase passphrase
  validateLocalId localId
  validateKeys keys
  let plaintext := utf8 (vaultJson (payload localId keys))
  failIf (hostVaultMaxCtLen < plaintext.length)
    ("host vault payload too large: " ++ toString plaintext.length ++ " > "
      ++ toString hostVaultMaxCtLen)
  let key ← deriveKey env passphrase salt env.opslimitInteractive env.memlimitInteractive
  let header : VaultHeader :=
    ⟨salt, env.opslimitInteractive, env.memlimitInteractive, nonce,
      plaintext.length + hostVaultAeadTagLen⟩
  let ciphertext ← okOr (env.aeadEncrypt key nonce header.writeInto plaintext)
    "host vault encrypt failed"
  failIf (¬ env.writes) ("failed to write host vault " ++ vaultBinPath dir)
  pure (Function.update disk (vaultBinPath dir) (some (header.writeInto ++ ciphertext)))

def load (disk : Disk) (dir passphrase : String) : Except String HostVault := do
  initSodium env
  validatePassphrase passphrase
  let blob ← okOr (disk (vaultBinPath dir)) ("failed to read host vault " ++ vaultBinPath dir)
  let header ← VaultHeader.parse env blob
  let key ← deriveKey env passphrase header.salt header.opslimit header.memlimit
  let plaintext ← okOr (env.aeadDecrypt key header.nonce (blob.take hostVaultHeaderLen)
    (blob.drop hostVaultHeaderLen)) "host vault decrypt failed"
  let vault ← okOr (env.fromSlice plaintext) "failed to decode host vault payload JSON"
  vault.validate
  pure vault

variable {env} {disk disk' : Disk} {dir passphrase localId : String} {keys : Keys}
  {salt : Bytes 16} {nonce : Bytes 24}

/-- **What was stored is loaded** exactly if the sealed payload is within the limit of `load`. -/
theorem load_stored (laws : env.Lawful)
    (hjson : env.fromSlice (utf8 (vaultJson (payload localId keys))) = some (payload localId keys))
    (h : store env disk dir passphrase localId keys salt nonce = .ok disk') (vault : HostVault) :
    load env disk' dir passphrase = .ok vault
      ↔ (vaultJson (payload localId keys)).utf8ByteSize + hostVaultAeadTagLen ≤ hostVaultMaxCtLen
        ∧ vault = payload localId keys := by
  have hsize : (utf8 (vaultJson (payload localId keys))).length
      = (vaultJson (payload localId keys)).utf8ByteSize := Array.length_toList
  simp only [store, bind_eq_ok, exists_unit, failIf_eq_ok, okOr_eq_ok, pure_eq_ok, hsize] at h
  obtain ⟨hinit, hpass, hid, hkeys, hlimit, key, hkey, ct, hct, -, rfl⟩ := h
  have hlen : ct.length = _ := (laws.length hct).trans (congrArg (· + _) hsize)
  have hpos : ct ≠ [] := by
    rintro rfl
    simp [hostVaultAeadTagLen] at hlen
  have hbound : ct.length < 2 ^ 32 := by
    simp only [hlen, hostVaultAeadTagLen, hostVaultMaxCtLen] at hlimit ⊢
    omega
  have hparse := parse_writeInto laws salt nonce hpos hbound _ rfl
  rw [← hlen] at hct ⊢
  have hheader := fun header => length_writeInto header
  simp only [load, hinit, hpass, bind_eq_ok, exists_unit, okOr_eq_ok, Function.update_self,
    Option.some.injEq, exists_eq_left', hparse, pure_eq_ok, true_and]
  constructor
  · rintro ⟨header, ⟨hmax, rfl⟩, key', hkey', plaintext, hplain, v, hv, -, rfl⟩
    rw [hkey] at hkey'
    cases hkey'
    rw [← hheader, List.take_left, List.drop_left, laws.decrypts hct] at hplain
    cases hplain
    rw [hjson] at hv
    exact ⟨hmax, (Option.some.inj hv).symm⟩
  · rintro ⟨hmax, rfl⟩
    refine ⟨_, ⟨hmax, rfl⟩, key, hkey, _, ?_, _, hjson, validate_payload hid hkeys, rfl⟩
    rw [← hheader, List.take_left, List.drop_left, laws.decrypts hct]

/-- The bytes that the given texts take in the payload, with their quotes and escapes. -/
def textSize (localId : String) (keys : Keys) : Nat :=
  (jsonString localId).utf8ByteSize + (jsonString keys.kemSkB64).utf8ByteSize
    + (jsonString keys.kemPkB64).utf8ByteSize + (jsonString keys.sigSkB64).utf8ByteSize
    + (jsonString keys.sigPkB64).utf8ByteSize

theorem size_payload (localId : String) (keys : Keys) :
    (vaultJson (payload localId keys)).utf8ByteSize = textSize localId keys + 164 := by
  have hsuite : (jsonString hostVaultSchemaV1).utf8ByteSize = 20
      ∧ (jsonString nxmsKemId).utf8ByteSize = 20 ∧ (jsonString nxmsSigId).utf8ByteSize = 16 := by
    decide +kernel
  have hmarks : "\x7b".utf8ByteSize = 1 ∧ "\x7d".utf8ByteSize = 1 ∧ ",".utf8ByteSize = 1
      ∧ "\"".utf8ByteSize = 1 ∧ "\":".utf8ByteSize = 2 := by
    decide +kernel
  have hnames : "schema".utf8ByteSize = 6 ∧ "local_id".utf8ByteSize = 8 ∧ "kem_id".utf8ByteSize = 6
      ∧ "sig_id".utf8ByteSize = 6 ∧ "keys".utf8ByteSize = 4 ∧ "kem_sk_b64".utf8ByteSize = 10
      ∧ "kem_pk_b64".utf8ByteSize = 10 ∧ "sig_sk_b64".utf8ByteSize = 10
      ∧ "sig_pk_b64".utf8ByteSize = 10 := by
    decide +kernel
  simp only [vaultJson, payload, jsonField, String.utf8ByteSize_append, hsuite, hmarks, hnames,
    textSize]
  omega

/-- **The round trip.** What `store` has accepted, `load` gives back, with the same id and keys,
    exactly if the texts leave room for the tag under the limit of the ciphertext. -/
theorem stored_loads_iff (laws : env.Lawful)
    (hjson : env.fromSlice (utf8 (vaultJson (payload localId keys))) = some (payload localId keys))
    (h : store env disk dir passphrase localId keys salt nonce = .ok disk') :
    (∃ vault, load env disk' dir passphrase = .ok vault ∧ vault.localId = localId
        ∧ vault.keys = keys)
      ↔ textSize localId keys + 164 + 16 ≤ 16 * 1024 * 1024 := by
  rw [← size_payload]
  constructor
  · rintro ⟨vault, hload, -⟩
    exact ((load_stored laws hjson h vault).mp hload).1
  · intro hsize
    exact ⟨payload localId keys, (load_stored laws hjson h _).mpr ⟨hsize, rfl⟩, rfl, rfl⟩

end

/-! ### Samples -/

/-- A cipher that only adds a tag, and a reader that knows the payload of `localId` and `keys`. -/
def sampleEnv (localId : String) (keys : Keys) : Env where
  sodiumInit := true
  opslimitInteractive := 2
  memlimitInteractive := 67108864
  pwhash _ _ _ _ := some (.fill 32 0)
  aeadEncrypt _ _ _ m := some (m ++ List.replicate 16 0)
  aeadDecrypt _ _ _ c := some (c.take (c.length - 16))
  fromSlice text :=
    if text = utf8 (vaultJson (payload localId keys)) then some (payload localId keys) else none
  writes := true

theorem sampleEnv_lawful (localId : String) (keys : Keys) : (sampleEnv localId keys).Lawful where
  opslimit := by simp [sampleEnv]
  memlimit := by simp [sampleEnv]
  decrypts := by
    intro key nonce aad m c h
    cases h
    simp [sampleEnv]
  length := by
    intro key nonce aad m c h
    cases h
    simp [hostVaultAeadTagLen]

theorem sampleEnv_reads (localId : String) (keys : Keys) :
    (sampleEnv localId keys).fromSlice (utf8 (vaultJson (payload localId keys)))
      = some (payload localId keys) := by
  simp only [sampleEnv, if_true]

def sampleKeys : Keys :=
  ⟨b64Encode (List.replicate 64 0), b64Encode (List.replicate 64 1), b64Encode [2], b64Encode [3]⟩

def sampleSalt : Bytes 16 := .fill 16 0
def sampleNonce : Bytes 24 := ⟨List.replicate 24 0, rfl⟩

def sampleStore (localId : String) : Except String Disk :=
  store (sampleEnv localId sampleKeys) (fun _ => none) "/var/nxms" "correct horse battery" localId
    sampleKeys sampleSalt sampleNonce

def sampleLoad (localId : String) (disk : Disk) : Except String HostVault :=
  load (sampleEnv localId sampleKeys) disk "/var/nxms" "correct horse battery"

theorem stores_sample {localId : String} (hid : validateLocalId localId = .ok ())
    (hsize : textSize localId sampleKeys + 164 ≤ 16 * 1024 * 1024) :
    ∃ disk', sampleStore localId = .ok disk' := by
  have hpass : validatePassphrase "correct horse battery" = .ok () := by decide +kernel
  have hkeys : validateKeys sampleKeys = .ok () := by decide +kernel
  have hbytes : (utf8 (vaultJson (payload localId sampleKeys))).length ≤ hostVaultMaxCtLen := by
    rw [← size_payload] at hsize
    exact (le_of_eq Array.length_toList).trans hsize
  simp only [sampleStore, store, hid, hpass, hkeys, bind_eq_ok, exists_unit, failIf_eq_ok,
    okOr_eq_ok, pure_eq_ok, Nat.not_lt.mpr hbytes, not_false_eq_true, true_and]
  exact ⟨_, rfl, _, rfl, _, rfl, by simp [sampleEnv], rfl⟩

theorem stored_loads_iff_sample :
    ∃ disk', sampleStore "signer-a" = .ok disk' ∧ ∃ vault, sampleLoad "signer-a" disk' = .ok vault
      ∧ vault.localId = "signer-a" ∧ vault.keys = sampleKeys := by
  have hsize : textSize "signer-a" sampleKeys ≤ 300 := by decide +kernel
  have hid : validateLocalId "signer-a" = .ok () := by decide +kernel
  obtain ⟨disk', hstore⟩ := stores_sample hid (by omega)
  exact ⟨disk', hstore,
    (stored_loads_iff (sampleEnv_lawful _ _) (sampleEnv_reads _ _) hstore).mpr (by omega)⟩

/-- An id of one letter, with `n` blanks after it. -/
def paddedId (n : Nat) : String := String.ofList ('a' :: List.replicate n ' ')

theorem trim_paddedId (n : Nat) : trim (paddedId n) = "a" := by
  have hblank : isWhitespace ' ' = true := by decide
  have ha : isWhitespace 'a' = false := by decide
  have hdrop : ∀ m, (List.replicate m ' ' ++ ['a']).dropWhile isWhitespace = ['a'] := by
    intro m
    induction m with
    | zero => simp [ha]
    | succ m ih => simpa [List.replicate_succ, hblank] using ih
  rw [trim, chars_eq, paddedId, String.toList_ofList, trimChars,
    List.dropWhile_cons_of_neg (by simp [ha]), List.reverse_cons, List.reverse_replicate, hdrop]
  rfl

theorem size_paddedId (n : Nat) : (jsonString (paddedId n)).utf8ByteSize = n + 3 := by
  have hjson : jsonString (paddedId n)
      = String.ofList ('"' :: 'a' :: (List.replicate n ' ' ++ ['"'])) := by
    apply String.toList_injective
    have hblanks : (List.replicate n " ").flatMap String.toList = List.replicate n ' ' := by
      induction n with
      | zero => rfl
      | succ n ih => simpa [List.replicate_succ] using ih
    have ha : jsonEscape 'a' = "a" := by decide +kernel
    have hblank : jsonEscape ' ' = " " := by decide +kernel
    simp [jsonString, chars_eq, paddedId, String.toList_join, ha, hblank, hblanks]
  have hascii : isAscii (jsonString (paddedId n)) = true := by
    rw [isAscii, chars_eq, hjson, String.toList_ofList]
    simp
  rw [utf8ByteSize_of_isAscii hascii, chars_eq, hjson, String.toList_ofList]
  simp

/-- **Stored and lost.** An id with blanks after it, so that the payload is exactly as long as the
    limit. It is stored, and whoever loads it gets an error. -/
theorem stored_and_lost : ∃ localId disk', sampleStore localId = .ok disk'
    ∧ ∀ vault, sampleLoad localId disk' ≠ .ok vault := by
  have hkeys : textSize "" sampleKeys = 192 + (jsonString "").utf8ByteSize := by decide +kernel
  obtain ⟨n, hn⟩ : ∃ n, n + 3 + 192 + 164 = 16 * 1024 * 1024 := ⟨16776857, rfl⟩
  have hid : validateLocalId (paddedId n) = .ok () := by
    simp only [validateLocalId, trim_paddedId]
    decide +kernel
  have hsize : textSize (paddedId n) sampleKeys = n + 3 + 192 := by
    simp only [textSize, size_paddedId] at hkeys ⊢
    omega
  obtain ⟨disk', hstore⟩ := stores_sample hid (by omega)
  refine ⟨paddedId n, disk', hstore, fun vault hload => ?_⟩
  have hfits := ((load_stored (sampleEnv_lawful _ _) (sampleEnv_reads _ _) hstore vault).mp hload).1
  rw [size_payload, hsize, hostVaultAeadTagLen, hostVaultMaxCtLen] at hfits
  omega

end Nexum.Vault
