import Nexum.Cli.Signed

/-!
# The prekey store

One-time keys are kept in a file: a list of entries with their lengths in front, sealed under a key
derived from the passphrase. `ff_prekeys_save` writes whatever it is handed. `ff_prekeys_load` has
limits: ten thousand entries, a KEM name that is not empty, 128 MiB in all. A store is read back
exactly if it keeps them (`store_reads_back_iff`); one that does not is written without complaint
and is lost (`store_lost`).
-/

namespace Nexum.Cli

open Nexum.Lib

/-! ## 1. Entries -/

/-- `ff_prekey_entry`; the name of the KEM fits its field of 64 bytes. -/
structure Prekey where
  prekeyId : Bytes 16
  kemId : CString
  pk : List UInt8
  sk : List UInt8
  createdAt : UInt64
  expiresAt : UInt64
  flags : UInt8
  kemFits : kemId.data.length < 64
  deriving DecidableEq

def Prekey.expired (e : Prekey) (now : UInt64) : Bool := e.expiresAt ≠ 0 && e.expiresAt ≤ now

/-- One entry. The lengths are cut to the bytes they are written in. -/
def writePrekey (e : Prekey) : List UInt8 :=
  e.prekeyId.data ++ (beBytes 2 e.kemId.data.length ++ (e.kemId.data
    ++ (beBytes 4 e.pk.length ++ (e.pk ++ (beBytes 4 e.sk.length ++ (e.sk
      ++ (beBytes 8 e.createdAt.toNat ++ (beBytes 8 e.expiresAt.toNat ++ [e.flags]))))))))

def writePrekeys (st : List Prekey) : List UInt8 :=
  beBytes 4 st.length ++ st.flatMap writePrekey

/-- The C string in a buffer. -/
def cstringOf (buf : List UInt8) : CString :=
  ⟨buf.takeWhile (· ≠ 0), fun h => by simpa using List.mem_takeWhile_imp h⟩

def readPrekey (s : List UInt8) : Option (Prekey × List UInt8) := do
  let (prekeyId, s) ← readBytes 16 s
  let (kemLen, s) ← readBe 2 s
  guard (kemLen ≠ 0)
  let (kem, s) ← readRaw kemLen s
  let (pkLen, s) ← readBe 4 s
  let (pk, s) ← readRaw pkLen s
  let (skLen, s) ← readBe 4 s
  let (sk, s) ← readRaw skLen s
  let (createdAt, s) ← readBe 8 s
  let (expiresAt, s) ← readBe 8 s
  let (flags, s) ← readRaw 1 s
  if kemFits : (cstringOf kem).data.length < 64 ∧ kemLen < 64 then
    some (⟨prekeyId, cstringOf kem, pk, sk, .ofNat createdAt, .ofNat expiresAt, flags.headD 0,
      kemFits.1⟩, s)
  else none

def readEntries : Nat → List UInt8 → Option (List Prekey)
  | 0, _ => some []
  | count + 1, s => do
    let (e, s) ← readPrekey s
    let rest ← readEntries count s
    pure (e :: rest)

/-- The loop of `ff_prekeys_load`: entries that have expired are dropped. -/
def readPrekeys (now : UInt64) (s : List UInt8) : Option (List Prekey) := do
  let (count, s) ← readBe 4 s
  guard (count ≤ 10000)
  let entries ← readEntries count s
  pure (entries.filter fun e => !e.expired now)

/-! ## 2. The file -/

/-- The cryptographic library, as it should be. -/
structure SealPrims where
  pwhash : CString → Bytes 16 → UInt64 → UInt64 → Option (Bytes 32)
  encrypt : Bytes 32 → Bytes 24 → List UInt8 → List UInt8
  decrypt : Bytes 32 → Bytes 24 → List UInt8 → Option (List UInt8)
  opens : ∀ key nonce pt, decrypt key nonce (encrypt key nonce pt) = some pt
  length_encrypt : ∀ key nonce pt, (encrypt key nonce pt).length = pt.length + 16
  opslimit : UInt64
  memlimit : UInt64

/-- A sealed file: its header, and the ciphertext that follows it. -/
structure SealedFile where
  magic : List UInt8
  salt : Bytes 16
  opslimit : UInt64
  memlimit : UInt64
  nonce : Bytes 24
  ctLen : Nat
  ct : List UInt8

section
variable (pr : SealPrims)

def deriveKey (pass : CString) (salt : Bytes 16) (opslimit memlimit : UInt64) : Option (Bytes 32) :=
  if pass.data.length < 12 then none else pr.pwhash pass salt opslimit memlimit

/-- The salt and the limits: those of the old file, if it has the magic and they are in bounds. -/
def kdfParams (magic : List UInt8) (old : Option SealedFile) (salt : Bytes 16) :
    Bytes 16 × UInt64 × UInt64 :=
  match old.filter (·.magic = magic) with
  | none => (salt, pr.opslimit, pr.memlimit)
  | some f => (f.salt,
      if 0 < f.opslimit ∧ f.opslimit ≤ pr.opslimit then f.opslimit else pr.opslimit,
      if 0 < f.memlimit ∧ f.memlimit ≤ pr.memlimit then f.memlimit else pr.memlimit)

/-- What `ff_prekeys_save` and `ff_vault_save` do with their plaintext. -/
def sealFile (magic : List UInt8) (pass : CString) (old : Option SealedFile) (salt : Bytes 16)
    (nonce : Bytes 24) (pt : List UInt8) : Option SealedFile :=
  let params := kdfParams pr magic old salt
  (deriveKey pr pass params.1 params.2.1 params.2.2).map fun key =>
    let ct := pr.encrypt key nonce pt
    ⟨magic, params.1, params.2.1, params.2.2, nonce, ct.length % 2 ^ 32, ct⟩

/-- What `ff_prekeys_load` and `ff_vault_load` do with a file, up to their plaintext. -/
def openFile (magic : List UInt8) (maxCtLen : Nat) (pass : CString) (f : SealedFile) :
    Option (List UInt8) := do
  guard (f.magic = magic)
  guard (f.ctLen ≠ 0 ∧ f.ctLen ≤ maxCtLen)
  guard (f.ct.length = f.ctLen)
  let key ← deriveKey pr pass f.salt f.opslimit f.memlimit
  pr.decrypt key f.nonce f.ct

def prekeysMagic : List UInt8 := utf8 "FFP1"
def ffPrekeysMaxCtLen : Nat := 128 * 1024 * 1024

/-- `ff_prekeys_save`, where the disk does what it is told. -/
def prekeysSave (pass : CString) (old : Option SealedFile) (salt : Bytes 16) (nonce : Bytes 24)
    (st : List Prekey) : Option SealedFile :=
  sealFile pr prekeysMagic pass old salt nonce (writePrekeys st)

def prekeysLoad (now : UInt64) (pass : CString) (file : Option SealedFile) :
    Option (List Prekey) :=
  match file with
  | none => some []
  | some f => (openFile pr prekeysMagic ffPrekeysMaxCtLen pass f).bind (readPrekeys now)

end

/-- What the reader can take. -/
structure Fits (st : List Prekey) : Prop where
  count : st.length ≤ 10000
  kems : ∀ e ∈ st, e.kemId.data ≠ []
  size : (writePrekeys st).length + 16 ≤ ffPrekeysMaxCtLen

instance (st : List Prekey) : Decidable (Fits st) :=
  decidable_of_iff (st.length ≤ 10000 ∧ (∀ e ∈ st, e.kemId.data ≠ [])
    ∧ (writePrekeys st).length + 16 ≤ ffPrekeysMaxCtLen)
    ⟨fun h => ⟨h.1, h.2.1, h.2.2⟩, fun h => ⟨h.count, h.kems, h.size⟩⟩

/-! ## 3. Reading back -/

theorem cstringOf_data (s : CString) : cstringOf s.data = s := by
  obtain ⟨data, hno⟩ := s
  have hall : data.takeWhile (· ≠ 0) = data := by
    refine List.takeWhile_eq_self_iff.mpr fun b hb => ?_
    simp only [decide_eq_true_eq]
    rintro rfl
    exact hno hb
  simp only [cstringOf, hall]

/-- **An entry is read back if it names its KEM**, and not at all otherwise. -/
theorem readPrekey_write {e : Prekey} (hpk : e.pk.length < 2 ^ 32) (hsk : e.sk.length < 2 ^ 32)
    (rest : List UInt8) : readPrekey (writePrekey e ++ rest)
      = if e.kemId.data = [] then none else some (e, rest) := by
  have hkem : e.kemId.data.length < 256 ^ 2 := by
    have := e.kemFits
    omega
  have hcreated : e.createdAt.toNat < 256 ^ 8 := e.createdAt.toNat_lt
  have hexpires : e.expiresAt.toNat < 256 ^ 8 := e.expiresAt.toNat_lt
  simp only [readPrekey, writePrekey, List.append_assoc, readBytes_append, Option.bind_eq_bind,
    Option.bind_some, readBe_append hkem]
  by_cases hempty : e.kemId.data = []
  · simp [hempty, guard]
  · have hflags : readRaw 1 ([e.flags] ++ rest) = some ([e.flags], rest) := by
      simpa using readRaw_append [e.flags] rest
    simp only [List.length_eq_zero_iff, hempty, not_false_eq_true, guard, if_true, ne_eq,
      Option.pure_def, Option.bind_some, readRaw_append, if_false,
      readBe_append (show e.pk.length < 256 ^ 4 by simpa using hpk),
      readBe_append (show e.sk.length < 256 ^ 4 by simpa using hsk), readBe_append hcreated,
      readBe_append hexpires, hflags, cstringOf_data, e.kemFits, and_self, dif_pos,
      UInt64.ofNat_toNat, List.headD_cons]

theorem length_writePrekey (e : Prekey) :
    (writePrekey e).length = 43 + e.kemId.data.length + e.pk.length + e.sk.length := by
  simp only [writePrekey, List.length_append, length_beBytes, e.prekeyId.len, List.length_singleton]
  omega

theorem length_writePrekey_le {st : List Prekey} {e : Prekey} (h : e ∈ st) :
    (writePrekey e).length ≤ (st.flatMap writePrekey).length := by
  induction st with
  | nil => cases h
  | cons e' st ih =>
    rw [List.flatMap_cons, List.length_append]
    rcases List.mem_cons.mp h with rfl | h
    · omega
    · have := ih h
      omega

theorem length_le_flatMap (st : List Prekey) : st.length ≤ (st.flatMap writePrekey).length := by
  induction st with
  | nil => simp
  | cons e st ih =>
    rw [List.flatMap_cons, List.length_append, length_writePrekey, List.length_cons]
    omega

/-- **The entries, one after the other.** -/
theorem readEntries_write {st : List Prekey}
    (hlens : ∀ e ∈ st, e.pk.length < 2 ^ 32 ∧ e.sk.length < 2 ^ 32) :
    readEntries st.length (st.flatMap writePrekey)
      = if ∀ e ∈ st, e.kemId.data ≠ [] then some st else none := by
  induction st with
  | nil => simp [readEntries]
  | cons e st ih =>
    obtain ⟨hpk, hsk⟩ := hlens e (by simp)
    have hrest := ih fun e he => hlens e (by simp [he])
    rw [List.length_cons, readEntries, List.flatMap_cons, readPrekey_write hpk hsk]
    by_cases hempty : e.kemId.data = []
    · simp [hempty]
    · simp only [hempty, if_false, Option.bind_eq_bind, Option.bind_some, hrest, List.mem_cons,
        forall_eq_or_imp, not_false_eq_true, true_and, ne_eq]
      split <;> simp

section
variable {pr : SealPrims}

/-- **A sealed file is opened if it is not too large.** -/
theorem openFile_seal {magic : List UInt8} {maxCtLen : Nat} (hmax : maxCtLen < 2 ^ 32)
    {pass : CString} {old : Option SealedFile} {salt : Bytes 16} {nonce : Bytes 24}
    {pt : List UInt8} {f : SealedFile} (h : sealFile pr magic pass old salt nonce pt = some f) :
    openFile pr magic maxCtLen pass f = if pt.length + 16 ≤ maxCtLen then some pt else none := by
  obtain ⟨key, hkey, rfl⟩ := Option.map_eq_some_iff.mp h
  generalize hlen : (pt.length + 16) % 2 ^ 32 = ctLen
  simp only [openFile, pr.length_encrypt, hlen, guard, if_true, Option.pure_def,
    Option.bind_eq_bind, Option.bind_some, hkey, pr.opens]
  by_cases hsize : pt.length + 16 ≤ maxCtLen
  · obtain rfl : ctLen = pt.length + 16 := by omega
    simp [hsize]
  · -- the length in the header is too large, or not that of the file
    rw [if_neg hsize]
    by_cases hmaxLen : ctLen ≠ 0 ∧ ctLen ≤ maxCtLen
    · have hdiff : ¬ pt.length + 16 = ctLen := by omega
      rw [if_pos hmaxLen, if_neg hdiff]
      rfl
    · rw [if_neg hmaxLen]
      rfl

/-- **What loading makes of a saved store.** -/
theorem load_saved {pass : CString} {old : Option SealedFile} {salt : Bytes 16} {nonce : Bytes 24}
    {st : List Prekey} {f : SealedFile} (h : prekeysSave pr pass old salt nonce st = some f)
    (now : UInt64) : prekeysLoad pr now pass (some f)
      = if Fits st then some (st.filter fun e => !e.expired now) else none := by
  rw [prekeysLoad, openFile_seal (by decide) h]
  by_cases hsize : (writePrekeys st).length + 16 ≤ ffPrekeysMaxCtLen
  · rw [if_pos hsize, Option.bind_some]
    have hmax : (writePrekeys st).length < 2 ^ 32 := by
      have : ffPrekeysMaxCtLen < 2 ^ 32 := by decide
      omega
    have htotal : 4 + (st.flatMap writePrekey).length < 2 ^ 32 := by
      simpa [writePrekeys] using hmax
    have hcount : st.length < 256 ^ 4 := by
      have := length_le_flatMap st
      omega
    have hlens : ∀ e ∈ st, e.pk.length < 2 ^ 32 ∧ e.sk.length < 2 ^ 32 := by
      intro e he
      have hle := length_writePrekey_le he
      rw [length_writePrekey] at hle
      omega
    simp only [readPrekeys, writePrekeys, readBe_append hcount, Option.bind_eq_bind,
      Option.bind_some, readEntries_write hlens]
    by_cases hten : st.length ≤ 10000
    · by_cases hkems : ∀ e ∈ st, e.kemId.data ≠ []
      · rw [if_pos hkems, if_pos ⟨hten, hkems, hsize⟩]
        simp [guard, hten]
      · rw [if_neg hkems, if_neg fun h => hkems h.kems]
        simp [guard, hten]
    · have hfits : ¬ Fits st := fun h => hten h.count
      simp only [guard, hten, hfits, if_false]
      rfl
  · rw [if_neg hsize, if_neg fun h => hsize h.size]
    rfl

end

/-- **A saved store is read back exactly if the reader can take it.** -/
theorem store_reads_back_iff {pr : SealPrims} {pass : CString} {old : Option SealedFile}
    {salt : Bytes 16} {nonce : Bytes 24} {st : List Prekey} {f : SealedFile}
    (h : prekeysSave pr pass old salt nonce st = some f) (now : UInt64) :
    prekeysLoad pr now pass (some f)
        = some (st.filter fun e => e.expiresAt = 0 || e.expiresAt > now)
      ↔ Fits st := by
  have hlive : (fun e : Prekey => !e.expired now)
      = fun e => e.expiresAt = 0 || e.expiresAt > now := by
    funext e
    simp only [Prekey.expired, Bool.not_and, decide_not, Bool.not_not, gt_iff_lt]
    by_cases hle : e.expiresAt ≤ now
    · simp [hle, UInt64.not_lt.mpr hle]
    · simp [hle, UInt64.not_le.mp hle]
  rw [load_saved h, hlive]
  by_cases hfits : Fits st <;> simp [hfits]

/-- A library that does not hide anything. -/
def plainSeal : SealPrims where
  pwhash _ _ _ _ := some (.fill 32 0)
  encrypt _ _ pt := pt ++ List.replicate 16 0
  decrypt _ _ ct := some (ct.take (ct.length - 16))
  opens := by simp
  length_encrypt := by simp
  opslimit := 1
  memlimit := 1

def samplePass : CString := .lit "correct horse"

def storedPrekey (id : UInt8) : Prekey :=
  ⟨⟨List.replicate 16 id, rfl⟩, .lit "k", [1], [2], 1, 100, 0, by decide⟩

def sampleSave (st : List Prekey) : Option SealedFile :=
  prekeysSave plainSeal samplePass none ⟨List.replicate 16 7, rfl⟩ ⟨List.replicate 24 9, rfl⟩ st

theorem store_reads_back_sample : ∃ f, sampleSave [storedPrekey 1, storedPrekey 2] = some f
    ∧ prekeysLoad plainSeal 5 samplePass (some f) = some [storedPrekey 1, storedPrekey 2] := by
  obtain ⟨f, hf⟩ : ∃ f, sampleSave [storedPrekey 1, storedPrekey 2] = some f := ⟨_, rfl⟩
  have hfits : Fits [storedPrekey 1, storedPrekey 2] := by decide +kernel
  exact ⟨f, hf, (store_reads_back_iff hf 5).mpr hfits⟩

/-- **Lost.** Ten thousand and one keys are saved, and the file is not read again. -/
theorem store_lost : ∃ f, sampleSave (List.replicate 10001 (storedPrekey 1)) = some f
    ∧ prekeysLoad plainSeal 5 samplePass (some f) = none := by
  obtain ⟨f, hf⟩ : ∃ f, sampleSave (List.replicate 10001 (storedPrekey 1)) = some f := ⟨_, rfl⟩
  refine ⟨f, hf, (load_saved hf 5).trans (if_neg fun h => ?_)⟩
  have hcount := h.count
  rw [List.length_replicate] at hcount
  omega

end Nexum.Cli
