import Nexum.Signer.Activation

/-!
# The snapshot in force

`snapshot activate` writes to two tables, in as many transactions as it has calls to make, and may
stop after any of them. Only the last of the calls puts a snapshot in force, and it does everything
at once: it counts the signatures, takes the escrow's other snapshots out of force and puts this
one in. So **what is in force for an escrow is what was activated for it last**, whatever else was
begun and left unfinished, and the row that says so holds the snapshot that was hashed.

A row is found by the hash of its snapshot. Two snapshots with one hash would share a row, under
the escrow of the first and with the text of the second; so the snapshots that are used are taken
from a set `S` on which the hash does not collide.
-/

namespace Nexum.Signer

open Nexum.Lib Nexum.Lib.Prog

/-! ## 1. What was activated last -/

/-- The snapshot an event puts in force for the escrow. -/
def activatedBy (escrowIdHex : String) : SnapshotEvent → Option ContractSnapshot
  | .did _ a (.activateSnapshot _ _) (.ok _) =>
    a.snapshot.toOption.filter (·.escrowIdHex = escrowIdHex)
  | _ => none

/-- The snapshot of the last command whose activation was committed. -/
def lastActivated (l : List SnapshotEvent) (escrowIdHex : String) : Option ContractSnapshot :=
  l.findSome? (activatedBy escrowIdHex)

theorem lastActivated_cons (e : SnapshotEvent) (l : List SnapshotEvent) (escrowIdHex : String) :
    lastActivated (e :: l) escrowIdHex
      = (activatedBy escrowIdHex e).or (lastActivated l escrowIdHex) := by
  unfold lastActivated
  rw [List.findSome?_cons]
  cases activatedBy escrowIdHex e <;> rfl

/-- So many signatures of the hash were stored, under different names. -/
def SignaturesStored (l : List SnapshotEvent) (hashHex : String) (count : Nat) : Prop :=
  ∃ names : List String, names.Nodup ∧ count ≤ names.length ∧ ∀ name ∈ names, ∃ i a sig u,
    .did i a (.putSnapshotSignature sig) (.ok u) ∈ l ∧ sig.hashHex = hashHex ∧ sig.signerId = name

/-! ## 2. What a command does -/

/-- A command writes its own snapshot, under its own hash, and activates that. -/
def filing (cr : SnapshotCrypto) : Rules SnapshotCall SnapshotCall.Out String Activate where
  may a c :=
    match c with
    | .putSnapshotPending e h json => ∃ snapshot, a.snapshot = .ok snapshot
      ∧ e = snapshot.escrowIdHex ∧ h = canonicalHashHex cr snapshot ∧ json = .encoded snapshot
    | .putSnapshotSignature _ => True
    | .activateSnapshot h quorum => quorum = a.snapshotQuorum
      ∧ ∃ snapshot, a.snapshot = .ok snapshot ∧ h = canonicalHashHex cr snapshot
  does a _ _ a' := a' = a

variable {cr : SnapshotCrypto}

theorem storeSignatures_files {snapshot : ContractSnapshot} {a : Activate}
    (files : List (Except String SnapshotSignature)) :
    Ensures (filing cr) (storeSignatures cr snapshot files) a fun _ a' => a' = a := by
  induction files with
  | nil => exact .pure rfl
  | cons file rest ih =>
    unfold storeSignatures
    refine .ofExcept_bind fun sig _ => .ofExcept_bind fun _ _ => .perform_bind trivial ?_
    intro _ a' ha
    obtain rfl : a' = a := ha
    exact ih

theorem activate_files (a : Activate) :
    Ensures (filing cr) (activate cr a) a fun _ a' => a' = a := by
  unfold activate
  refine .ofExcept_bind fun snapshot hsnapshot => ?_
  refine .perform_bind ⟨snapshot, hsnapshot, rfl, rfl, rfl⟩ fun _ a' ha => ?_
  obtain rfl : a' = a := ha
  refine (storeSignatures_files a'.signatures).bind ?_
  intro _ a ha
  obtain rfl : a = a' := ha
  exact .perform ⟨rfl, snapshot, hsnapshot, rfl⟩ fun _ a' ha => ha

/-! ## 3. The rows -/

/-- The row holds the snapshot, under its hash and its escrow. -/
structure SnapshotRow.Holds (cr : SnapshotCrypto) (r : SnapshotRow) (s : ContractSnapshot) :
    Prop where
  hash : r.hashHex = canonicalHashHex cr s
  escrow : r.escrowIdHex = s.escrowIdHex
  json : r.snapshotJson = .encoded s

variable {S : Set ContractSnapshot}

/-- What the table of snapshots is like after a history. -/
structure SnapshotsFiled (cr : SnapshotCrypto) (S : Set ContractSnapshot) (rows : List SnapshotRow)
    (l : List SnapshotEvent) : Prop where
  holds : ∀ r ∈ rows, ∃ s ∈ S, r.Holds cr s
  apart : rows.Pairwise (·.hashHex ≠ ·.hashHex)
  active : ∀ r ∈ rows, r.active = true
    ↔ (lastActivated l r.escrowIdHex).map (canonicalHashHex cr) = some r.hashHex
  present : ∀ e s, lastActivated l e = some s → s.escrowIdHex = e ∧ ∃ r ∈ rows, r.Holds cr s

namespace SnapshotsFiled

variable {rows : List SnapshotRow} {l : List SnapshotEvent} {r r' : SnapshotRow}
  {s : ContractSnapshot}

theorem quiet (h : SnapshotsFiled cr S rows l) {e : SnapshotEvent}
    (he : ∀ escrow, activatedBy escrow e = none) : SnapshotsFiled cr S rows (e :: l) := by
  have hsame : ∀ escrow, lastActivated (e :: l) escrow = lastActivated l escrow := by
    intro escrow
    rw [lastActivated_cons, he, Option.none_or]
  refine ⟨h.holds, h.apart, fun r hr => ?_, fun escrow s => ?_⟩
  · rw [hsame]
    exact h.active r hr
  · rw [hsame]
    exact h.present escrow s

theorem eq_of_hash (h : SnapshotsFiled cr S rows l) (hr : r ∈ rows) (hr' : r' ∈ rows)
    (heq : r.hashHex = r'.hashHex) : r = r' := by
  by_contra hne
  have hsymm : Std.Symm fun x y : SnapshotRow => x.hashHex ≠ y.hashHex := ⟨fun _ _ h => h.symm⟩
  exact h.apart.forall hr hr' hne heq

theorem holds_of_hash (h : SnapshotsFiled cr S rows l) (hinj : Set.InjOn (canonicalHashHex cr) S)
    (hs : s ∈ S) (hr : r ∈ rows) (hhash : r.hashHex = canonicalHashHex cr s) : r.Holds cr s := by
  obtain ⟨s', hs', hholds⟩ := h.holds r hr
  obtain rfl := hinj hs' hs (hholds.hash.symm.trans hhash)
  exact hholds

/-- **Storing a snapshot** that is there already changes nothing; otherwise there is one row more,
    which is not in force. -/
theorem put (h : SnapshotsFiled cr S rows l) (hinj : Set.InjOn (canonicalHashHex cr) S)
    (hs : s ∈ S) {db : SnapshotDb} (hdb : db.snapshots = rows) (nowMs : Nat) :
    SnapshotsFiled cr S (db.putSnapshotPending s.escrowIdHex (canonicalHashHex cr s) (.encoded s)
      nowMs).snapshots l := by
  subst hdb
  unfold SnapshotDb.putSnapshotPending upsert
  dsimp only
  split
  · have hsame : ∀ r ∈ db.snapshots, (if decide (r.hashHex = canonicalHashHex cr s) = true then
        { r with snapshotJson := .encoded s } else r) = r := by
      intro r hr
      split
      · rename_i hhash
        rw [← (h.holds_of_hash hinj hs hr (of_decide_eq_true hhash)).json]
      · rfl
    rw [List.map_congr_left hsame, List.map_id']
    exact h
  · rename_i hnew
    have hnew : ∀ r ∈ db.snapshots, r.hashHex ≠ canonicalHashHex cr s := by
      simpa using hnew
    refine ⟨?_, ?_, ?_, ?_⟩
    · intro r hr
      rcases List.mem_append.mp hr with hr | hr
      · exact h.holds r hr
      · cases List.mem_singleton.mp hr
        exact ⟨s, hs, rfl, rfl, rfl⟩
    · refine List.pairwise_append.mpr ⟨h.apart, List.pairwise_singleton _ _, ?_⟩
      intro r hr r' hr'
      cases List.mem_singleton.mp hr'
      exact hnew r hr
    · intro r hr
      rcases List.mem_append.mp hr with hr | hr
      · exact h.active r hr
      · cases List.mem_singleton.mp hr
        -- had it been activated, it would have a row
        simp only [Bool.false_eq_true, false_iff, Option.map_eq_some_iff, not_exists, not_and]
        intro s' hlast hhash
        obtain ⟨-, r, hr, hholds⟩ := h.present _ s' hlast
        exact hnew r hr (hholds.hash.trans hhash)
    · intro e s' hlast
      obtain ⟨hescrow, r, hr, hholds⟩ := h.present e s' hlast
      exact ⟨hescrow, r, List.mem_append_left _ hr, hholds⟩

/-- A row after the activation of the snapshot with the hash `hashHex` of the escrow. -/
def switched (hashHex escrowIdHex : String) (r : SnapshotRow) : SnapshotRow :=
  { r with active :=
      if r.hashHex = hashHex then true
      else if r.escrowIdHex = escrowIdHex then false else r.active }

theorem activateSnapshot_ok {db db' : SnapshotDb} {hashHex : String} {quorum : Nat} {u : Unit}
    (h : db.activateSnapshot hashHex quorum = (.ok u, db')) :
    ∃ found ∈ db.snapshots, found.hashHex = hashHex
      ∧ db'.snapshots = db.snapshots.map (switched hashHex found.escrowIdHex) := by
  unfold SnapshotDb.activateSnapshot at h
  dsimp only at h
  split at h
  · cases h
  · split at h
    · cases h
    · rename_i found hfound
      cases h
      refine ⟨found, List.mem_of_find?_eq_some hfound, by simpa using List.find?_some hfound, ?_⟩
      rw [List.map_map]
      refine List.map_congr_left fun r _ => ?_
      simp only [Function.comp, switched]
      by_cases hescrow : r.escrowIdHex = found.escrowIdHex <;>
        by_cases hhash : r.hashHex = hashHex <;> simp [hescrow, hhash]

/-- **Activating a snapshot.** -/
theorem activate (h : SnapshotsFiled cr S rows l) (hinj : Set.InjOn (canonicalHashHex cr) S)
    (hs : s ∈ S) {db db' : SnapshotDb} (hdb : db.snapshots = rows) {quorum : Nat} {u : Unit}
    (hok : db.activateSnapshot (canonicalHashHex cr s) quorum = (.ok u, db')) {e : SnapshotEvent}
    (he : ∀ escrow, activatedBy escrow e = (some s).filter (·.escrowIdHex = escrow)) :
    SnapshotsFiled cr S db'.snapshots (e :: l) := by
  subst hdb
  obtain ⟨found, hfound, hhash, hrows⟩ := activateSnapshot_ok hok
  have hescrow := (h.holds_of_hash hinj hs hfound hhash).escrow
  have hlast : ∀ escrow, lastActivated (e :: l) escrow
      = if s.escrowIdHex = escrow then some s else lastActivated l escrow := by
    intro escrow
    rw [lastActivated_cons, he, Option.filter_some]
    by_cases hsame : s.escrowIdHex = escrow
    · simp [hsame]
    · simp [hsame]
  rw [hrows, hescrow]
  refine ⟨?_, ?_, ?_, ?_⟩
  · intro new hnew
    obtain ⟨r, hr, rfl⟩ := List.mem_map.mp hnew
    obtain ⟨s', hs', hholds⟩ := h.holds r hr
    exact ⟨s', hs', hholds.hash, hholds.escrow, hholds.json⟩
  · exact List.pairwise_map.mpr h.apart
  · intro new hnew
    obtain ⟨r, hr, rfl⟩ := List.mem_map.mp hnew
    show (if r.hashHex = canonicalHashHex cr s then true
        else if r.escrowIdHex = s.escrowIdHex then false else r.active) = true
      ↔ (lastActivated (e :: l) r.escrowIdHex).map (canonicalHashHex cr) = some r.hashHex
    rw [hlast]
    by_cases hthis : r.hashHex = canonicalHashHex cr s
    · have hsame := (h.holds_of_hash hinj hs hr hthis).escrow
      simp [hthis, hsame]
    · by_cases hsame : r.escrowIdHex = s.escrowIdHex
      · simp [hthis, hsame, Ne.symm hthis]
      · rw [if_neg hthis, if_neg hsame, if_neg (Ne.symm hsame)]
        exact h.active r hr
  · intro escrow s' hlast'
    rw [hlast] at hlast'
    split at hlast'
    · rename_i hsame
      cases hlast'
      exact ⟨hsame, _, List.mem_map_of_mem hfound, hhash, hescrow,
        (h.holds_of_hash hinj hs hfound hhash).json⟩
    · obtain ⟨hescrow', r, hr, hholds⟩ := h.present escrow s' hlast'
      exact ⟨hescrow', _, List.mem_map_of_mem hr, hholds.hash, hholds.escrow, hholds.json⟩

theorem one_active (h : SnapshotsFiled cr S rows l) (hr : r ∈ rows) (hr' : r' ∈ rows)
    (hactive : r.active = true) (hactive' : r'.active = true)
    (hescrow : r.escrowIdHex = r'.escrowIdHex) : r = r' := by
  have hlast := (h.active r hr).mp hactive
  have hlast' := (h.active r' hr').mp hactive'
  rw [hescrow, hlast'] at hlast
  exact h.eq_of_hash hr hr' (Option.some.inj hlast).symm

/-- **What the flows are given as the snapshot in force.** -/
theorem activeSnapshot {db : SignerDb} (h : SnapshotsFiled cr S db.snapshots l) (escrow : String) :
    (db.activeSnapshotForEscrow escrow).map (fun r => (r.hashHex, r.snapshotJson))
      = (lastActivated l escrow).map fun s => (canonicalHashHex cr s, .encoded s) := by
  have hmem : ∀ r, r ∈ db.snapshots.filter (fun r => r.escrowIdHex = escrow ∧ r.active = true)
      ↔ r ∈ db.snapshots ∧ r.escrowIdHex = escrow ∧ r.active = true := by
    intro r
    simp
  unfold SignerDb.activeSnapshotForEscrow
  generalize hrows : db.snapshots.filter (fun r => r.escrowIdHex = escrow ∧ r.active = true) = rows
  rw [hrows] at hmem
  have hdistinct : rows.Pairwise (·.hashHex ≠ ·.hashHex) := hrows ▸ h.apart.filter _
  rcases rows with _ | ⟨r, _ | ⟨r', rest⟩⟩
  · cases hlast : lastActivated l escrow with
    | none => rfl
    | some s =>
      -- the row of the snapshot is in force, so it was not filtered out
      obtain ⟨hescrow, r, hr, hholds⟩ := h.present escrow s hlast
      have hsame : r.escrowIdHex = escrow := hholds.escrow.trans hescrow
      have hactive : r.active = true := by
        rw [h.active r hr, hsame, hlast, hholds.hash]
        rfl
      exact absurd ((hmem r).mpr ⟨hr, hsame, hactive⟩) List.not_mem_nil
  · obtain ⟨hr, hescrow, hactive⟩ := (hmem r).mp List.mem_cons_self
    obtain ⟨s, hlast, hhash⟩ := Option.map_eq_some_iff.mp ((h.active r hr).mp hactive)
    rw [hescrow] at hlast
    obtain ⟨-, r', hr', hholds⟩ := h.present escrow s hlast
    obtain rfl := h.eq_of_hash hr' hr (hholds.hash.trans hhash)
    rw [hlast]
    show some (r'.hashHex, r'.snapshotJson) = some (canonicalHashHex cr s, .encoded s)
    rw [hholds.hash, hholds.json]
  · obtain ⟨hr, hescrow, hactive⟩ := (hmem r).mp (by simp)
    obtain ⟨hr', hescrow', hactive'⟩ := (hmem r').mp (by simp)
    have hsame := h.one_active hr hr' hactive hactive' (hescrow.trans hescrow'.symm)
    exact absurd (congrArg SnapshotRow.hashHex hsame)
      (List.rel_of_pairwise_cons hdistinct (by simp))

end SnapshotsFiled

/-! ## 4. The signatures -/

/-- A signature has a row under its hash and its name, and no row has another origin. -/
structure SignaturesFiled (rows : List SnapshotSigRow) (l : List SnapshotEvent) : Prop where
  stored : ∀ r ∈ rows, ∃ i a sig u, .did i a (.putSnapshotSignature sig) (.ok u) ∈ l
    ∧ sig.hashHex = r.hashHex ∧ sig.signerId = r.signerId
  apart : rows.Pairwise fun r r' => r.hashHex = r'.hashHex → r.signerId ≠ r'.signerId

theorem SignaturesFiled.cons {rows : List SnapshotSigRow} {l : List SnapshotEvent}
    (h : SignaturesFiled rows l) (e : SnapshotEvent) : SignaturesFiled rows (e :: l) := by
  refine ⟨fun r hr => ?_, h.apart⟩
  obtain ⟨i, a, sig, u, hmem, hsig⟩ := h.stored r hr
  exact ⟨i, a, sig, u, List.mem_cons_of_mem _ hmem, hsig⟩

theorem SignaturesFiled.put {db : SnapshotDb} {l : List SnapshotEvent}
    (h : SignaturesFiled db.snapshotSigs l) (i : Nat) (a : Activate) (sig : SnapshotSigRow) :
    SignaturesFiled (db.putSnapshotSignature sig).snapshotSigs
      (.did i a (.putSnapshotSignature sig) (.ok ()) :: l) := by
  refine ⟨fun r hr => ?_, pairwise_upsert ?_ ?_ h.apart ?_⟩
  · rcases mem_upsert hr with rfl | ⟨hold, -⟩
    · exact ⟨i, a, sig, (), List.mem_cons_self, rfl, rfl⟩
    · exact (h.cons _).stored r hold
  · intro r r' hrr heq
    exact (hrr heq.symm).symm
  · intro r r' hr hr' hrr
    obtain ⟨hh, hn⟩ := of_decide_eq_true hr
    obtain ⟨hh', hn'⟩ := of_decide_eq_true hr'
    exact hrr (hh.trans hh'.symm) (hn.trans hn'.symm)
  · intro r _ hclash hhash hname
    exact of_decide_eq_false hclash ⟨hhash, hname⟩

theorem SignaturesFiled.enough {rows : List SnapshotSigRow} {l : List SnapshotEvent}
    (h : SignaturesFiled rows l) {hashHex : String} {count : Nat}
    (hcount : count ≤ (rows.filter (·.hashHex = hashHex)).length) :
    SignaturesStored l hashHex count := by
  have hsame : ∀ r ∈ rows.filter (·.hashHex = hashHex), r ∈ rows ∧ r.hashHex = hashHex := by
    intro r hr
    simpa using hr
  refine ⟨(rows.filter (·.hashHex = hashHex)).map (·.signerId), ?_, by simpa using hcount, ?_⟩
  · refine List.pairwise_map.mpr ((h.apart.filter _).imp_of_mem ?_)
    intro r r' hr hr' hapart
    exact hapart ((hsame r hr).2.trans (hsame r' hr').2.symm)
  · intro name hname
    obtain ⟨r, hr, rfl⟩ := List.mem_map.mp hname
    obtain ⟨i, a, sig, u, hmem, hhash, hsigner⟩ := h.stored r (hsame r hr).1
    exact ⟨i, a, sig, u, hmem, hhash.trans (hsame r hr).2, hsigner⟩

/-! ## 5. Any number of commands -/

/-- The commands, one after the other or at once. Nobody else writes to the two tables. -/
def snapshotStore (cr : SnapshotCrypto) : System SnapshotDb Activate SnapshotCall SnapshotCall.Out
    String Unit :=
  { commands cr with
    ext := fun db db' => db'.snapshots = db.snapshots ∧ db'.snapshotSigs = db.snapshotSigs }

/-- Commands are about snapshots from `S`. -/
def About (S : Set ContractSnapshot) (_ : SnapshotDb) (_ : List SnapshotEvent) :
    SnapshotEvent → Prop
  | .start _ a => ∀ s, a.snapshot = .ok s → s ∈ S
  | _ => True

/-- Every activation in the history found its quorum of signatures. -/
def QuorumMet (cr : SnapshotCrypto) (l : List SnapshotEvent) : Prop :=
  ∀ after before i a h q u, l = after ++ .did i a (.activateSnapshot h q) (.ok u) :: before →
    ∃ s, a.snapshot = .ok s ∧ h = canonicalHashHex cr s
      ∧ SignaturesStored before h a.snapshotQuorum

/-- What holds all along. -/
structure StoreInv (cr : SnapshotCrypto) (S : Set ContractSnapshot) (db : SnapshotDb)
    (l : List SnapshotEvent) (G : Nat → Option (Activate × Activate)) : Prop where
  snapshots : SnapshotsFiled cr S db.snapshots l
  signatures : SignaturesFiled db.snapshotSigs l
  quorum : QuorumMet cr l
  flows : ∀ i a g, G i = some (a, g) → g = a ∧ ∀ s, a.snapshot = .ok s → s ∈ S

theorem QuorumMet.cons {l : List SnapshotEvent} (h : QuorumMet cr l) {e : SnapshotEvent}
    (he : ∀ i a hash q u, e = .did i a (.activateSnapshot hash q) (.ok u) →
      ∃ s, a.snapshot = .ok s ∧ hash = canonicalHashHex cr s
        ∧ SignaturesStored l hash a.snapshotQuorum) : QuorumMet cr (e :: l) := by
  intro after before i a hash q u hl
  cases after with
  | nil =>
    injection hl with hhead htail
    exact htail ▸ he i a hash q u hhead
  | cons e' after =>
    injection hl with _ htail
    exact h after before i a hash q u htail

theorem QuorumMet.quiet {l : List SnapshotEvent} (h : QuorumMet cr l) {e : SnapshotEvent}
    (he : ∀ i a c r, e ≠ .did i a c r) : QuorumMet cr (e :: l) := by
  refine h.cons ?_
  intro i a hash q u heq
  exact absurd heq (he i a _ _)

/-- **One call**: what it does to the two tables. -/
theorem StoreInv.did {db db' : SnapshotDb} {l : List SnapshotEvent}
    {G : Nat → Option (Activate × Activate)} {i : Nat} {a : Activate} {c : SnapshotCall}
    {r : Except String Unit} (hinj : Set.InjOn (canonicalHashHex cr) S) (h : StoreInv cr S db l G)
    (hG : G i = some (a, a)) (hmay : (filing cr).may a c) (hexec : snapshotExec db c r db') :
    SnapshotsFiled cr S db'.snapshots (.did i a c r :: l)
      ∧ SignaturesFiled db'.snapshotSigs (.did i a c r :: l)
      ∧ QuorumMet cr (.did i a c r :: l) := by
  have hS := (h.flows i a a hG).2
  have hquiet : ∀ {r : Except String Unit} {c : SnapshotCall},
      (∀ h q u, (⟨c, r⟩ : (_ : SnapshotCall) × Except String Unit) ≠ ⟨.activateSnapshot h q, .ok u⟩)
      → (∀ escrow, activatedBy escrow (.did i a c r) = none)
        ∧ QuorumMet cr (.did i a c r :: l) := by
    intro r c hne
    refine ⟨fun escrow => ?_, h.quorum.cons ?_⟩
    · cases c with
      | activateSnapshot hash q =>
        cases r with
        | error e => rfl
        | ok u => exact absurd rfl (hne hash q u)
      | _ => rfl
    · intro j a' hash q u heq
      cases heq
      exact absurd rfl (hne hash q u)
  cases hexec with
  | failed e =>
    obtain ⟨hnone, hquorum⟩ := hquiet (r := .error e) (c := c) (by simp)
    exact ⟨h.snapshots.quiet hnone, h.signatures.cons _, hquorum⟩
  | served nowMs hserve =>
    cases c with
    | putSnapshotPending e hash json =>
      cases hserve
      obtain ⟨s, hsnapshot, rfl, rfl, rfl⟩ := hmay
      obtain ⟨hnone, hquorum⟩ := hquiet (r := .ok ()) (c := .putSnapshotPending _ _ _) (by simp)
      exact ⟨(h.snapshots.put hinj (hS s hsnapshot) rfl nowMs).quiet hnone, h.signatures.cons _,
        hquorum⟩
    | putSnapshotSignature sig =>
      cases hserve
      obtain ⟨hnone, hquorum⟩ := hquiet (r := .ok ()) (c := .putSnapshotSignature sig) (by simp)
      exact ⟨h.snapshots.quiet hnone, h.signatures.put i a sig, hquorum⟩
    | activateSnapshot hash q =>
      obtain ⟨rfl, s, hsnapshot, rfl⟩ := hmay
      have hsigs : db'.snapshotSigs = db.snapshotSigs := by
        rcases snapshotExec_sigs (.served nowMs hserve) with hsame | ⟨sig, hc, -⟩
        · exact hsame
        · cases hc
      cases r with
      | error e =>
        obtain ⟨hnone, hquorum⟩ := hquiet (r := .error e) (c := .activateSnapshot _ _) (by simp)
        have hsame : db'.snapshots = db.snapshots := by
          unfold SnapshotDb.serve SnapshotDb.activateSnapshot at hserve
          dsimp only at hserve
          split at hserve
          · cases hserve
            rfl
          · split at hserve
            · cases hserve
              rfl
            · cases hserve
        rw [hsame, hsigs]
        exact ⟨h.snapshots.quiet hnone, h.signatures.cons _, hquorum⟩
      | ok u =>
        have henough := h.signatures.enough (snapshotExec_activated (.served nowMs hserve))
        rw [hsigs]
        refine ⟨h.snapshots.activate hinj (hS s hsnapshot) rfl hserve ?_, h.signatures.cons _, ?_⟩
        · intro escrow
          show a.snapshot.toOption.filter _ = _
          rw [hsnapshot]
          rfl
        · refine h.quorum.cons ?_
          intro j a' hash' q' u' heq
          cases heq
          exact ⟨s, hsnapshot, rfl, henough⟩

variable (cr) in
theorem store_invariant (hinj : Set.InjOn (canonicalHashHex cr) S) :
    Pool.Invariant (snapshotStore cr) (About S) (filing cr) (fun a => a) (fun _ _ _ => True)
      (StoreInv cr S) where
  follows a := wp_mono (ensures_iff.mp (activate_files a)) fun _ _ _ => trivial
  start := by
    intro db l G i a h _ _ hok
    refine ⟨h.snapshots.quiet fun _ => rfl, h.signatures.cons _, h.quorum.quiet (by simp), ?_⟩
    intro j a' g hj
    rcases of_update_some hj with ⟨rfl, hx⟩ | ⟨-, hj⟩
    · cases hx
      exact ⟨rfl, hok⟩
    · exact h.flows j a' g hj
  did := by
    intro db l G i a g c r db' h hi hmay hexec _
    obtain ⟨rfl, hS⟩ := h.flows i a g hi
    obtain ⟨hsnapshots, hsignatures, hquorum⟩ := h.did hinj hi hmay hexec
    refine ⟨g, rfl, hsnapshots, hsignatures, hquorum, ?_⟩
    intro j a' g' hj
    rcases of_update_some hj with ⟨rfl, hx⟩ | ⟨-, hj⟩
    · cases hx
      exact ⟨rfl, hS⟩
    · exact h.flows j a' g' hj
  done := by
    intro db l G i a g x h _ _ _
    exact ⟨h.snapshots.quiet fun _ => rfl, h.signatures.cons _,
      h.quorum.quiet (by simp),
      fun j a' g' hj => h.flows j a' g' (of_update_none hj)⟩
  crash := by
    intro db l G i a g h _
    exact ⟨h.snapshots.quiet fun _ => rfl, h.signatures.cons _,
      h.quorum.quiet (by simp),
      fun j a' g' hj => h.flows j a' g' (of_update_none hj)⟩
  ext := by
    intro db l G db' h hext
    obtain ⟨hsnapshots, hsigs⟩ :
      db'.snapshots = db.snapshots ∧ db'.snapshotSigs = db.snapshotSigs := hext
    exact ⟨hsnapshots ▸ h.snapshots, hsigs ▸ h.signatures, h.quorum, h.flows⟩

/-- **The snapshot store.** Whatever commands were run on a new database, to their end or not:

* an escrow has one active snapshot at most;
* the active snapshot is the one of the last activation that was committed, and its row holds the
  text of that snapshot under its hash;
* every activation that was committed had as many signatures of its snapshot stored as the
  command's quorum asks for. -/
theorem snapshot_in_force (hinj : Set.InjOn (canonicalHashHex cr) S) {db : SnapshotDb}
    (hnew : db.snapshots = [] ∧ db.snapshotSigs = []) {p : SnapshotPool}
    (hrun : Pool.Run (snapshotStore cr) (About S) db p) :
    (∀ r ∈ p.state.snapshots, ∀ r' ∈ p.state.snapshots, r.active = true → r'.active = true →
      r.escrowIdHex = r'.escrowIdHex → r = r')
    ∧ (∀ escrow, (p.state.activeSnapshotForEscrow escrow).map (fun r => (r.hashHex, r.snapshotJson))
      = (lastActivated p.log escrow).map fun s => (canonicalHashHex cr s, .encoded s))
    ∧ QuorumMet cr p.log := by
  have hinit : StoreInv cr S db [] fun _ => none := by
    refine ⟨?_, ?_, ?_, ?_⟩
    · rw [hnew.1]
      refine ⟨List.forall_mem_nil _, .nil, List.forall_mem_nil _, ?_⟩
      intro e s hlast
      cases hlast
    · rw [hnew.2]
      exact ⟨List.forall_mem_nil _, .nil⟩
    · intro after before i a h q u hl
      cases after <;> cases hl
    · intro i a g hi
      cases hi
  obtain ⟨G, hstore, -⟩ := hrun.inv (store_invariant cr hinj) hinit
  exact ⟨fun r hr r' hr' => hstore.snapshots.one_active hr hr', hstore.snapshots.activeSnapshot,
    hstore.quorum⟩

/-! ## 6. A command that was left unfinished -/

/-- The snapshot again, with a higher fee. -/
def raisedFee : ContractSnapshot := { sellerGets100 with feeCapAtomic := 20 }

/-- The two snapshots have two hashes. -/
def twoCrypto : SnapshotCrypto :=
  { plainCrypto with
    snapshotJson := fun s => if s = sellerGets100 then [1] else [2]
    sha3Hex := fun bytes => if bytes = [1] then "77" else "78" }

theorem twoCrypto_injOn : Set.InjOn (canonicalHashHex twoCrypto) {sellerGets100, raisedFee} := by
  have hne : canonicalHashHex twoCrypto sellerGets100 ≠ canonicalHashHex twoCrypto raisedFee := by
    decide +kernel
  intro s hs s' hs' heq
  rcases hs with rfl | rfl <;> rcases hs' with rfl | rfl
  · rfl
  · exact absurd heq hne
  · exact absurd heq.symm hne
  · rfl

theorem serve_store (_ : Unit) (db : SnapshotDb) (c : SnapshotCall) :
    (snapshotStore twoCrypto).exec db c (db.serve 0 c).1 (db.serve 0 c).2 :=
  .served 0 rfl

def storePlayer : Player (snapshotStore twoCrypto).exec Unit :=
  ⟨fun _ db c => db.serve 0 c, serve_store⟩

/-- The command for a quorum of one, given one signature. -/
def activateOne (s : ContractSnapshot) (hashHex : String) : Activate :=
  ⟨1, .ok s, [.ok ⟨"buyer", "key-b", "key-b", hashHex, "Falcon-1024-CT", 1⟩]⟩

def aboutTwo (_ : SnapshotDb) (_ : List SnapshotEvent) : SnapshotEvent → Bool
  | .start _ a => a.snapshot = .ok sellerGets100 ∨ a.snapshot = .ok raisedFee
  | _ => true

theorem aboutTwo_sound {db : SnapshotDb} {l : List SnapshotEvent} {e : SnapshotEvent}
    (h : aboutTwo db l e = true) : About {sellerGets100, raisedFee} db l e := by
  cases e with
  | start i a =>
    intro s hs
    rcases of_decide_eq_true h with heq | heq
    · exact .inl (Except.ok.inj (hs.symm.trans heq))
    · exact .inr (Except.ok.inj (hs.symm.trans heq))
  | did i a c r => trivial
  | done i a x => trivial
  | crash i a => trivial

/-- A command that stops before its activation leaves the snapshot in force as it was. -/
theorem snapshot_in_force_unfinished : ∃ p,
    Pool.Run (snapshotStore twoCrypto) (About {sellerGets100, raisedFee}) emptySnapshotDb p
      ∧ .crash 1 (activateOne raisedFee "78") ∈ p.log
      ∧ (p.state.activeSnapshotForEscrow sellerGets100.escrowIdHex).map
          (fun r => (r.hashHex, r.snapshotJson))
        = some (canonicalHashHex twoCrypto sellerGets100, .encoded sellerGets100) := by
  have hplay : (Pool.follow storePlayer aboutTwo emptySnapshotDb
      [.start 0 (activateOne sellerGets100 "77"), .calls 0 [(), (), ()], .close 0,
        .start 1 (activateOne raisedFee "78"), .calls 1 [(), ()], .crash 1]).any (fun p =>
      lastActivated p.log sellerGets100.escrowIdHex = some sellerGets100
        && p.log.any fun e => match e with
          | .crash i a => i = 1 ∧ a.snapshotQuorum = 1 ∧ a.snapshot = .ok raisedFee
            ∧ a.signatures = (activateOne raisedFee "78").signatures
          | _ => false) = true := by
    decide +kernel
  obtain ⟨p, hrun, hp⟩ := Pool.follow_run (fun _ _ _ => aboutTwo_sound) hplay
  obtain ⟨hlast, hcrash⟩ := Bool.and_eq_true_iff.mp hp
  obtain ⟨-, hactive, -⟩ := snapshot_in_force twoCrypto_injOn ⟨rfl, rfl⟩ hrun
  refine ⟨p, hrun, ?_, ?_⟩
  · obtain ⟨e, he, hmatch⟩ := List.any_eq_true.mp hcrash
    split at hmatch
    · rename_i i a
      obtain ⟨quorum, snapshot, signatures⟩ := a
      obtain ⟨rfl, rfl, rfl, rfl⟩ := of_decide_eq_true hmatch
      exact he
    · cases hmatch
  · rw [hactive, of_decide_eq_true hlast]
    rfl

end Nexum.Signer
