import Nexum.Lib.Play
import Nexum.Lib.Table
import Nexum.Signer.Payout
import Nexum.Signer.Store

/-!
# Activating a snapshot

`nxms-signer snapshot activate` puts a contract snapshot in force. It stores the snapshot, then
every signature file it is given — each one verified against the key **inside the file** — and
finally asks the database to activate the snapshot if enough signatures of it are stored. Stored
signatures add up over any number of calls of the command.

The database counts rows, and a row is found by the snapshot's hash and the **signer id the file
declares**. Nothing ties a signer id to a key, so what is counted is names. The count is one of
keys as long as no key is stored under two names.
-/

namespace Nexum.Signer

open Nexum.Lib Nexum.Lib.Prog
open Nexum.Lib.Check (failIf okOr)
open Nexum.Transport

/-! ## 1. Signatures -/

structure SnapshotSignature where
  signerId : String
  sigPkB64 : String
  sigB64 : String
  hashHex : String
  alg : String
  createdAtUnixMs : Nat
  deriving DecidableEq

structure SnapshotSigRow where
  signerId : String
  sigPkB64 : String
  sigB64 : String
  hashHex : String
  alg : String
  createdAtUnixMs : Nat
  deriving DecidableEq

/-- What the snapshot commands take from elsewhere besides: `snapshotJson` renders a snapshot
    with its fields in the order of their declaration. -/
structure SnapshotCrypto extends Crypto where
  snapshotJson : ContractSnapshot → List UInt8

def canonicalHashHex (cr : SnapshotCrypto) (snapshot : ContractSnapshot) : String :=
  cr.sha3Hex (cr.snapshotJson snapshot)

def verifySnapshotSignature (cr : SnapshotCrypto) (snapshot : ContractSnapshot)
    (sig : SnapshotSignature) : Except String Unit := do
  failIf (sig.alg ≠ "Falcon-1024-CT") s!"unsupported signature algorithm '{sig.alg}'"
  failIf (canonicalHashHex cr snapshot ≠ sig.hashHex) "snapshot hash mismatch"
  let hashRaw ← okOr (hexDecode sig.hashHex) (hexError sig.hashHex)
  let sigPk ← cr.b64Decode sig.sigPkB64
  let sigRaw ← cr.b64Decode sig.sigB64
  cr.falconVerify sigPk hashRaw sigRaw

def SnapshotSignature.row (sig : SnapshotSignature) : SnapshotSigRow :=
  ⟨sig.signerId, sig.sigPkB64, sig.sigB64, sig.hashHex, sig.alg, sig.createdAtUnixMs⟩

/-- The row is a valid signature, by the key `pk`, of the hash it is stored under. -/
def SnapshotSigRow.SignedBy (cr : SnapshotCrypto) (row : SnapshotSigRow) (pk : List UInt8) :
    Prop :=
  cr.b64Decode row.sigPkB64 = .ok pk ∧ ∃ hashRaw sigRaw, hexDecode row.hashHex = some hashRaw
    ∧ cr.b64Decode row.sigB64 = .ok sigRaw ∧ cr.falconVerify pk hashRaw sigRaw = .ok ()

theorem verifySnapshotSignature_ok {cr : SnapshotCrypto} {snapshot : ContractSnapshot}
    {sig : SnapshotSignature} (h : verifySnapshotSignature cr snapshot sig = .ok ()) :
    ∃ pk, sig.row.SignedBy cr pk := by
  simp only [verifySnapshotSignature, Check.bind_eq_ok, Check.failIf_eq_ok, Check.okOr_eq_ok,
    Check.exists_unit] at h
  obtain ⟨-, -, hashRaw, hhash, pk, hpk, sigRaw, hsig, hverify⟩ := h
  exact ⟨pk, hpk, hashRaw, sigRaw, hhash, hsig, hverify⟩

/-! ## 2. The tables -/

/-- The signer's database together with the table of snapshot signatures. -/
structure SnapshotDb extends SignerDb where
  snapshotSigs : List SnapshotSigRow

namespace SnapshotDb

variable (db : SnapshotDb)

/-- A snapshot that is stored already keeps its status. -/
def putSnapshotPending (escrowIdHex hashHex : String) (snapshotJson : Json ContractSnapshot)
    (nowMs : Nat) : SnapshotDb :=
  let row : SnapshotRow :=
    ⟨hashHex, escrowIdHex, snapshotJson, false, min nowMs SignerDb.i64Max⟩
  let rows := upsert (fun r => r.hashHex = hashHex)
    (fun r => { r with snapshotJson := snapshotJson }) row db.snapshots
  { db with snapshots := rows }

def putSnapshotSignature (sig : SnapshotSigRow) : SnapshotDb :=
  let row := { sig with createdAtUnixMs := min sig.createdAtUnixMs SignerDb.i64Max }
  let rows := upsert (fun r => r.hashHex = sig.hashHex ∧ r.signerId = sig.signerId)
    (fun _ => row) row db.snapshotSigs
  { db with snapshotSigs := rows }

def activateSnapshot (hashHex : String) (quorum : Nat) : Except String Unit × SnapshotDb :=
  let sigCount := (db.snapshotSigs.filter (·.hashHex = hashHex)).length
  if sigCount < quorum then
    (.error s!"snapshot {hashHex} has {sigCount} signatures but quorum is {quorum}", db)
  else
    match db.snapshots.find? (·.hashHex = hashHex) with
    | none => (.error s!"snapshot {hashHex} not found", db)
    | some found =>
      let cleared := db.snapshots.map fun r =>
        if r.escrowIdHex = found.escrowIdHex then { r with active := false } else r
      (.ok (), { db with snapshots := cleared.map fun r =>
        if r.hashHex = hashHex then { r with active := true } else r })

end SnapshotDb

/-! ## 3. The command -/

inductive SnapshotCall
  | putSnapshotPending (escrowIdHex hashHex : String) (snapshotJson : Json ContractSnapshot)
  | putSnapshotSignature (sig : SnapshotSigRow)
  | activateSnapshot (hashHex : String) (quorum : Nat)

abbrev SnapshotCall.Out (_ : SnapshotCall) : Type := Unit

/-- One call of the command: the configured quorum, and what reading each file gives. -/
structure Activate where
  snapshotQuorum : Nat
  snapshot : Except String ContractSnapshot
  signatures : List (Except String SnapshotSignature)

abbrev SnapshotFlow := Prog SnapshotCall SnapshotCall.Out String

def storeSignatures (cr : SnapshotCrypto) (snapshot : ContractSnapshot) :
    List (Except String SnapshotSignature) → SnapshotFlow Unit
  | [] => pure ()
  | file :: rest => do
    let sig ← ofExcept file
    ofExcept (verifySnapshotSignature cr snapshot sig)
    perform (.putSnapshotSignature sig.row)
    storeSignatures cr snapshot rest

def activate (cr : SnapshotCrypto) (a : Activate) : SnapshotFlow Unit := do
  let snapshot ← ofExcept a.snapshot
  let hashHex := canonicalHashHex cr snapshot
  perform (.putSnapshotPending snapshot.escrowIdHex hashHex (.encoded snapshot))
  storeSignatures cr snapshot a.signatures
  perform (.activateSnapshot hashHex a.snapshotQuorum)

def SnapshotDb.serve (db : SnapshotDb) (nowMs : Nat) :
    SnapshotCall → Except String Unit × SnapshotDb
  | .putSnapshotPending e h json => (.ok (), db.putSnapshotPending e h json nowMs)
  | .putSnapshotSignature sig => (.ok (), db.putSnapshotSignature sig)
  | .activateSnapshot h quorum => db.activateSnapshot h quorum

/-- Each call is one transaction, made at some time; any of them may fail. -/
inductive snapshotExec : Services SnapshotCall SnapshotCall.Out String SnapshotDb
  | served {db db' : SnapshotDb} {c : SnapshotCall} {r : Except String Unit} (nowMs : Nat)
      (h : db.serve nowMs c = (r, db')) : snapshotExec db c r db'
  | failed {db : SnapshotDb} {c : SnapshotCall} (e : String) : snapshotExec db c (.error e) db

/-- Any number of `activate` commands, one after the other or at once. Everybody else leaves the
    signatures alone. -/
def commands (cr : SnapshotCrypto) : System SnapshotDb Activate SnapshotCall SnapshotCall.Out
    String Unit where
  prog := activate cr
  exec := snapshotExec
  ext db db' := db'.snapshotSigs = db.snapshotSigs

abbrev SnapshotEvent := Entry Activate SnapshotCall SnapshotCall.Out String Unit

abbrev SnapshotPool := Pool SnapshotDb Activate SnapshotCall SnapshotCall.Out String Unit

/-! ## 4. Names and keys -/

variable {cr : SnapshotCrypto}

/-- The event is the storing of a valid signature of `hashHex` by the key `pk`. -/
def StoresKey (cr : SnapshotCrypto) (hashHex : String) (pk : List UInt8) : SnapshotEvent → Prop
  | .did _ _ (.putSnapshotSignature sig) (.ok _) => sig.hashHex = hashHex ∧ sig.SignedBy cr pk
  | _ => False

/-- `quorum` different keys have signed the hash. -/
def Quorum (cr : SnapshotCrypto) (hashHex : String) (quorum : Nat) (l : List SnapshotEvent) :
    Prop :=
  ∃ keys : List (List UInt8), keys.Nodup ∧ quorum ≤ keys.length
    ∧ ∀ pk ∈ keys, ∃ e ∈ l, StoresKey cr hashHex pk e

theorem Quorum.cons {hashHex : String} {quorum : Nat} {l : List SnapshotEvent}
    (h : Quorum cr hashHex quorum l) (e : SnapshotEvent) : Quorum cr hashHex quorum (e :: l) := by
  obtain ⟨keys, hnodup, hlen, hkeys⟩ := h
  refine ⟨keys, hnodup, hlen, fun pk hpk => ?_⟩
  obtain ⟨e', he', hstores⟩ := hkeys pk hpk
  exact ⟨e', List.mem_cons_of_mem _ he', hstores⟩

/-- Rows of one hash are under different names and hold different keys. -/
def Apart (cr : SnapshotCrypto) (r r' : SnapshotSigRow) : Prop :=
  r.hashHex = r'.hashHex → r.signerId ≠ r'.signerId
    ∧ cr.b64Decode r.sigPkB64 ≠ cr.b64Decode r'.sigPkB64

/-- The condition on a step: a signature is not stored while another name of the same hash holds
    its key. -/
def OneNamePerKey (cr : SnapshotCrypto) (db : SnapshotDb) (_ : List SnapshotEvent) :
    SnapshotEvent → Prop
  | .did _ _ (.putSnapshotSignature sig) (.ok _) =>
    ∀ old ∈ db.snapshotSigs, old.hashHex = sig.hashHex → old.signerId ≠ sig.signerId →
      cr.b64Decode old.sigPkB64 ≠ cr.b64Decode sig.sigPkB64
  | _ => True

instance (cr : SnapshotCrypto) (db : SnapshotDb) (l : List SnapshotEvent) (e : SnapshotEvent) :
    Decidable (OneNamePerKey cr db l e) := by
  dsimp only [OneNamePerKey]
  split <;> infer_instance

/-- Every row was stored by some command, and the rows are apart. -/
structure Tallied (cr : SnapshotCrypto) (rows : List SnapshotSigRow) (l : List SnapshotEvent) :
    Prop where
  stored : ∀ r ∈ rows, ∃ pk, cr.b64Decode r.sigPkB64 = .ok pk
    ∧ ∃ e ∈ l, StoresKey cr r.hashHex pk e
  apart : rows.Pairwise (Apart cr)

theorem Tallied.cons {rows : List SnapshotSigRow} {l : List SnapshotEvent}
    (h : Tallied cr rows l) (e : SnapshotEvent) : Tallied cr rows (e :: l) := by
  refine ⟨fun r hr => ?_, h.apart⟩
  obtain ⟨pk, hpk, e', he', hstores⟩ := h.stored r hr
  exact ⟨pk, hpk, e', List.mem_cons_of_mem _ he', hstores⟩

theorem Tallied.put {db : SnapshotDb} {l : List SnapshotEvent} (h : Tallied cr db.snapshotSigs l)
    {sig : SnapshotSigRow} {pk : List UInt8} (hsig : sig.SignedBy cr pk) (i : Nat) (a : Activate)
    (hone : OneNamePerKey cr db l (.did i a (.putSnapshotSignature sig) (.ok ()))) :
    Tallied cr (db.putSnapshotSignature sig).snapshotSigs
      (.did i a (.putSnapshotSignature sig) (.ok ()) :: l) := by
  refine ⟨fun r hr => ?_, ?_⟩
  · rcases mem_upsert hr with rfl | ⟨hold, -⟩
    · exact ⟨pk, hsig.1, _, List.mem_cons_self, rfl, hsig⟩
    · exact (h.cons _).stored r hold
  · refine pairwise_upsert ?_ ?_ h.apart ?_
    · intro r r' hrr heq
      obtain ⟨hname, hkey⟩ := hrr heq.symm
      exact ⟨hname.symm, hkey.symm⟩
    · intro r r' hr hr' hrr
      obtain ⟨hh, hn⟩ := of_decide_eq_true hr
      obtain ⟨hh', hn'⟩ := of_decide_eq_true hr'
      exact (hrr (hh.trans hh'.symm)).1 (hn.trans hn'.symm)
    · intro r hr hclash heq
      have hname : r.signerId ≠ sig.signerId := fun hn => of_decide_eq_false hclash ⟨heq, hn⟩
      exact ⟨hname, hone r hr heq hname⟩

/-- **Counting rows is counting keys.** -/
theorem Tallied.quorum {rows : List SnapshotSigRow} {l : List SnapshotEvent}
    (h : Tallied cr rows l) (hashHex : String) {quorum : Nat}
    (hq : quorum ≤ (rows.filter (·.hashHex = hashHex)).length) :
    Quorum cr hashHex quorum l := by
  have hsame : ∀ r ∈ rows.filter (·.hashHex = hashHex), r ∈ rows ∧ r.hashHex = hashHex := by
    intro r hr
    simpa using hr
  -- the key of each row, in the order of the rows
  choose! key hkey using h.stored
  refine ⟨(rows.filter (·.hashHex = hashHex)).map key, ?_, by simpa using hq, ?_⟩
  · refine List.pairwise_map.mpr ((h.apart.filter _).imp_of_mem ?_)
    intro r r' hr hr' hapart heq
    obtain ⟨hmem, hhash⟩ := hsame r hr
    obtain ⟨hmem', hhash'⟩ := hsame r' hr'
    refine (hapart (hhash.trans hhash'.symm)).2 ?_
    rw [(hkey r hmem).1, (hkey r' hmem').1, heq]
  · intro pk hpk
    obtain ⟨r, hr, rfl⟩ := List.mem_map.mp hpk
    obtain ⟨hmem, rfl⟩ := hsame r hr
    exact (hkey r hmem).2

/-! ## 5. One command -/

/-- Where a command is: what it is to activate, and whether that was done. -/
structure Activating where
  cmd : Activate
  activated : Bool

/-- A command only stores valid signatures, and only activates its own snapshot. -/
def activating (cr : SnapshotCrypto) : Rules SnapshotCall SnapshotCall.Out String Activating where
  may g c :=
    match c with
    | .putSnapshotPending _ _ _ => True
    | .putSnapshotSignature sig => ∃ pk, sig.SignedBy cr pk
    | .activateSnapshot h quorum => quorum = g.cmd.snapshotQuorum
      ∧ ∃ snapshot, g.cmd.snapshot = .ok snapshot ∧ h = canonicalHashHex cr snapshot
  does g c r g' :=
    match c, r with
    | .activateSnapshot _ _, .ok _ => g' = { g with activated := true }
    | _, _ => g' = g

theorem storeSignatures_ensures {snapshot : ContractSnapshot} {g : Activating}
    (files : List (Except String SnapshotSignature)) :
    Ensures (activating cr) (storeSignatures cr snapshot files) g fun _ g' => g' = g := by
  induction files with
  | nil => exact .pure rfl
  | cons file rest ih =>
    unfold storeSignatures
    refine .ofExcept_bind fun sig _ => .ofExcept_bind fun _ hok => ?_
    refine .perform_bind (verifySnapshotSignature_ok hok) fun _ g' hg => ?_
    obtain rfl : g' = g := hg
    exact ih

theorem activate_ensures (a : Activate) :
    Ensures (activating cr) (activate cr a) ⟨a, false⟩ fun _ g => g = ⟨a, true⟩ := by
  unfold activate
  refine .ofExcept_bind fun snapshot hsnapshot => .perform_bind trivial fun _ g hg => ?_
  obtain rfl : g = ⟨a, false⟩ := hg
  refine (storeSignatures_ensures a.signatures).bind ?_
  rintro _ g rfl
  exact .perform ⟨rfl, snapshot, hsnapshot, rfl⟩ fun _ g hg => hg

/-! ## 6. Any number of commands -/

/-- The command's snapshot has its quorum. -/
def QuorumFor (cr : SnapshotCrypto) (a : Activate) (l : List SnapshotEvent) : Prop :=
  ∀ snapshot, a.snapshot = .ok snapshot →
    Quorum cr (canonicalHashHex cr snapshot) a.snapshotQuorum l

/-- What holds all along. -/
structure Counting (cr : SnapshotCrypto) (db : SnapshotDb) (l : List SnapshotEvent)
    (G : Nat → Option (Activate × Activating)) : Prop where
  tallied : Tallied cr db.snapshotSigs l
  flows : ∀ i a g, G i = some (a, g) → g.cmd = a ∧ (g.activated = true → QuorumFor cr a l)
  done : ∀ i a, .done i a (.ok ()) ∈ l → QuorumFor cr a l

theorem QuorumFor.cons {a : Activate} {l : List SnapshotEvent} (h : QuorumFor cr a l)
    (e : SnapshotEvent) : QuorumFor cr a (e :: l) :=
  fun snapshot hs => (h snapshot hs).cons e

theorem snapshotExec_sigs {db db' : SnapshotDb} {c : SnapshotCall} {r : Except String Unit}
    (h : snapshotExec db c r db') : db'.snapshotSigs = db.snapshotSigs
      ∨ ∃ sig, c = .putSnapshotSignature sig ∧ r = .ok () ∧ db' = db.putSnapshotSignature sig := by
  cases h with
  | failed e => exact .inl rfl
  | served now h =>
    cases c with
    | putSnapshotPending e hash json =>
      cases h
      exact .inl rfl
    | putSnapshotSignature sig =>
      cases h
      exact .inr ⟨sig, rfl, rfl, rfl⟩
    | activateSnapshot hash quorum =>
      left
      unfold SnapshotDb.serve SnapshotDb.activateSnapshot at h
      dsimp only at h
      split at h
      · cases h
        rfl
      · split at h
        · cases h
          rfl
        · cases h
          rfl

theorem snapshotExec_activated {db db' : SnapshotDb} {hash : String} {quorum : Nat} {u : Unit}
    (h : snapshotExec db (.activateSnapshot hash quorum) (.ok u) db') :
    quorum ≤ (db.snapshotSigs.filter (·.hashHex = hash)).length := by
  cases h with
  | served now h =>
    unfold SnapshotDb.serve SnapshotDb.activateSnapshot at h
    dsimp only at h
    split at h
    · cases h
    · rename_i hq
      exact Nat.le_of_not_lt hq

theorem Counting.flow_cons {l : List SnapshotEvent} {G : Nat → Option (Activate × Activating)}
    (h : ∀ i a g, G i = some (a, g) → g.cmd = a ∧ (g.activated = true → QuorumFor cr a l))
    (e : SnapshotEvent) (i : Nat) (a : Activate) (g : Activating) (hi : G i = some (a, g)) :
    g.cmd = a ∧ (g.activated = true → QuorumFor cr a (e :: l)) := by
  obtain ⟨hcmd, hq⟩ := h i a g hi
  exact ⟨hcmd, fun hg => (hq hg).cons e⟩

/-- An event that ends no command adds nothing to the commands that are done. -/
theorem Counting.done_cons {l : List SnapshotEvent}
    (h : ∀ i a, .done i a (.ok ()) ∈ l → QuorumFor cr a l) {e : SnapshotEvent}
    (he : ∀ i a, e ≠ .done i a (.ok ())) (i : Nat) (a : Activate)
    (hi : Entry.done i a (.ok ()) ∈ e :: l) : QuorumFor cr a (e :: l) := by
  rcases List.mem_cons.mp hi with heq | hi
  · exact absurd heq.symm (he i a)
  · exact (h i a hi).cons e

variable (cr) in
theorem counting_invariant : Pool.Invariant (commands cr) (OneNamePerKey cr) (activating cr)
    (fun a => ⟨a, false⟩) (fun a x g => ∀ u, x = .ok u → g = ⟨a, true⟩) (Counting cr) where
  follows a := ensures_iff.mp (activate_ensures a)
  start := by
    intro db l G i a h _ _ _
    refine ⟨h.tallied.cons _, ?_, Counting.done_cons h.done (by simp)⟩
    intro j a' g hj
    rcases of_update_some hj with ⟨rfl, hx⟩ | ⟨-, hj⟩
    · cases hx
      exact ⟨rfl, nofun⟩
    · exact Counting.flow_cons h.flows _ j a' g hj
  did := by
    intro db l G i a g c r db' h hi hmay hexec hok
    have htallied : Tallied cr db'.snapshotSigs (.did i a c r :: l) := by
      rcases snapshotExec_sigs hexec with hsame | ⟨sig, rfl, rfl, rfl⟩
      · rw [hsame]
        exact h.tallied.cons _
      · obtain ⟨pk, hsig⟩ := hmay
        exact h.tallied.put hsig i a hok
    have hdone := Counting.done_cons h.done (e := .did i a c r) (by simp)
    obtain ⟨hcmd, hactive⟩ := h.flows i a g hi
    -- the bookkeeping moves only when an activation succeeds; then the rows make the quorum
    have hmove : ∃ g', (activating cr).does g c r g' ∧ g'.cmd = a
        ∧ (g'.activated = true → QuorumFor cr a l) := by
      cases c with
      | putSnapshotPending e hash json => exact ⟨g, rfl, hcmd, hactive⟩
      | putSnapshotSignature sig => exact ⟨g, rfl, hcmd, hactive⟩
      | activateSnapshot hash quorum =>
        cases r with
        | error e => exact ⟨g, rfl, hcmd, hactive⟩
        | ok u =>
          refine ⟨{ g with activated := true }, rfl, hcmd, fun _ snapshot hsnapshot => ?_⟩
          obtain ⟨rfl, snapshot', hsnapshot', rfl⟩ := hmay
          subst hcmd
          obtain rfl := Except.ok.inj (hsnapshot'.symm.trans hsnapshot)
          exact h.tallied.quorum _ (snapshotExec_activated hexec)
    obtain ⟨g', hdoes, hcmd', hactive'⟩ := hmove
    refine ⟨g', hdoes, htallied, ?_, hdone⟩
    intro j a' g'' hj
    rcases of_update_some hj with ⟨rfl, hx⟩ | ⟨-, hj⟩
    · cases hx
      exact ⟨hcmd', fun hg => (hactive' hg).cons _⟩
    · exact Counting.flow_cons h.flows _ j a' g'' hj
  done := by
    intro db l G i a g x h hi hpost _
    refine ⟨h.tallied.cons _, ?_, ?_⟩
    · intro j a' g' hj
      exact Counting.flow_cons h.flows _ j a' g' (of_update_none hj)
    · intro j a' hj
      rcases List.mem_cons.mp hj with heq | hj
      · cases heq
        obtain rfl := hpost () rfl
        exact ((h.flows i a _ hi).2 rfl).cons _
      · exact (h.done j a' hj).cons _
  crash := by
    intro db l G i a g h _
    refine ⟨h.tallied.cons _, ?_, Counting.done_cons h.done (by simp)⟩
    intro j a' g' hj
    exact Counting.flow_cons h.flows _ j a' g' (of_update_none hj)
  ext := by
    intro db l G db' h hext
    have hext : db'.snapshotSigs = db.snapshotSigs := hext
    exact ⟨hext ▸ h.tallied, h.flows, h.done⟩

/-- **A snapshot in force was signed by a quorum of keys.** In every history of `activate`
    commands on a new database in which no key is stored under two names of one snapshot, a
    command that succeeded had as many different keys' valid signatures of its snapshot stored as
    its quorum asks for. -/
theorem activated_quorum {db : SnapshotDb} (hnew : db.snapshotSigs = [])
    {p : SnapshotPool}
    (hrun : Pool.Run (commands cr) (OneNamePerKey cr) db p) {i : Nat} {a : Activate}
    {snapshot : ContractSnapshot} (hsnapshot : a.snapshot = .ok snapshot)
    (hdone : .done i a (.ok ()) ∈ p.log) :
    Quorum cr (canonicalHashHex cr snapshot) a.snapshotQuorum p.log := by
  have hinit : Counting cr db [] fun _ => none := by
    refine ⟨⟨?_, ?_⟩, ?_, fun _ _ h => absurd h List.not_mem_nil⟩
    · rw [hnew]
      exact fun _ h => absurd h List.not_mem_nil
    · rw [hnew]
      exact .nil
    · intro i a g hi
      cases hi
  obtain ⟨G, hcount, -⟩ := hrun.inv (counting_invariant cr) hinit
  exact hcount.done i a hdone snapshot hsnapshot

/-! ## 7. Two rehearsed activations -/

/-- A text is its own bytes, and a signature is valid when it repeats the key. -/
def plainCrypto : SnapshotCrypto where
  sha256Hex _ := ""
  b64Decode text := .ok (utf8 text)
  falconVerify pk _ sig := if sig = pk then .ok () else .error "falcon verify failed"
  admissionJson _ := []
  sha3Hex _ := "77"
  policyJson _ := []
  verifyJwt _ := .error "no tokens here"
  jwtTimes _ _ _ := .ok ()
  openEnvelope _ _ := .error "no envelopes here"
  parseBody _ := .error "no bodies here"
  renderBody _ := ""
  snapshotJson _ := []

def plainSignature (signerId key : String) : SnapshotSignature :=
  ⟨signerId, key, key, "77", "Falcon-1024-CT", 1⟩

def emptySnapshotDb : SnapshotDb := ⟨SignerDb.empty, []⟩

/-- Every call works, at time 0. -/
def snapshotPlayer : Player (commands plainCrypto).exec Unit :=
  ⟨fun _ db c => db.serve 0 c, fun _ _ _ => .served 0 rfl⟩

/-- The command for a quorum of two, given two signatures. -/
def activateTwo (key key' : String) : Activate :=
  ⟨2, .ok sellerGets100, [.ok (plainSignature "buyer" key), .ok (plainSignature "seller" key')]⟩

def runActivateTwo (chk : SnapshotDb → List SnapshotEvent → SnapshotEvent → Bool)
    (key key' : String) : Option SnapshotPool :=
  Pool.follow snapshotPlayer chk emptySnapshotDb
    [.start 0 (activateTwo key key'), .calls 0 [(), (), (), ()], .close 0]

/-- The last thing that happened was the end of a command for a quorum of two that succeeded. -/
def succeeded (p : SnapshotPool) : Bool :=
  match p.log with
  | .done _ a (.ok ()) :: _ => a.snapshotQuorum = 2 ∧ a.snapshot = .ok sellerGets100
  | _ => false

theorem done_of_succeeded {p : SnapshotPool} (h : succeeded p = true) :
    ∃ i a, .done i a (.ok ()) ∈ p.log ∧ a.snapshotQuorum = 2
      ∧ a.snapshot = .ok sellerGets100 := by
  unfold succeeded at h
  split at h
  · rename_i i a rest hlog
    obtain ⟨hq, hsnapshot⟩ := of_decide_eq_true h
    exact ⟨i, a, by rw [hlog]; exact List.mem_cons_self, hq, hsnapshot⟩
  · cases h

theorem activated_quorum_two : ∃ p,
    Pool.Run (commands plainCrypto) (OneNamePerKey plainCrypto) emptySnapshotDb p
      ∧ Quorum plainCrypto (canonicalHashHex plainCrypto sellerGets100) 2 p.log := by
  have hplay : (runActivateTwo (OneNamePerKey plainCrypto · · ·) "key-b" "key-s").any succeeded = true := by
    decide +kernel
  obtain ⟨p, hrun, hp⟩ := Pool.follow_run (fun _ _ _ => of_decide_eq_true) hplay
  obtain ⟨i, a, hdone, hq, hsnapshot⟩ := done_of_succeeded hp
  exact ⟨p, hrun, hq ▸ activated_quorum rfl hrun hsnapshot hdone⟩

/-- Every signature stored holds this key. -/
def onlyKey (key : String) (p : SnapshotPool) : Bool :=
  p.log.all fun e =>
    match e with
    | .did _ _ (.putSnapshotSignature sig) (.ok _) => sig.sigPkB64 = key
    | _ => true

theorem not_quorum_of_onlyKey {key hashHex : String} {p : SnapshotPool}
    (h : onlyKey key p = true) : ¬ Quorum plainCrypto hashHex 2 p.log := by
  rintro ⟨keys, hnodup, hlen, hkeys⟩
  have hall : ∀ pk ∈ keys, pk = utf8 key := by
    intro pk hpk
    obtain ⟨e, he, hstores⟩ := hkeys pk hpk
    have he := List.all_eq_true.mp h e he
    unfold StoresKey at hstores
    split at hstores
    · obtain ⟨-, hpk, -⟩ := hstores
      rw [← Except.ok.inj hpk, of_decide_eq_true he]
    · exact hstores.elim
  match keys, hnodup, hlen, hall with
  | k :: k' :: rest, hnodup, _, hall =>
    have heq : k = k' := (hall k (by simp)).trans (hall k' (by simp)).symm
    rw [heq] at hnodup
    simp at hnodup

/-- **One key makes a quorum of two.** The same key signs under two names. -/
theorem activated_by_one_key : ∃ p i a,
    Pool.Run (commands plainCrypto) Pool.anyStep emptySnapshotDb p
      ∧ .done i a (.ok ()) ∈ p.log ∧ a.snapshotQuorum = 2 ∧ a.snapshot = .ok sellerGets100
      ∧ ¬ Quorum plainCrypto (canonicalHashHex plainCrypto sellerGets100) 2 p.log := by
  have hplay : (runActivateTwo (fun _ _ _ => true) "key-b" "key-b").any (fun p =>
      succeeded p && onlyKey "key-b" p) = true := by
    decide +kernel
  obtain ⟨p, hrun, hp⟩ := Pool.follow_run (fun _ _ _ _ => trivial) hplay
  obtain ⟨hsucceeded, hkey⟩ := Bool.and_eq_true_iff.mp hp
  obtain ⟨i, a, hdone, hq, hsnapshot⟩ := done_of_succeeded hsucceeded
  exact ⟨p, i, a, hrun, hdone, hq, hsnapshot, not_quorum_of_onlyKey hkey⟩

end Nexum.Signer
