import Nexum.Cli.Inbox
import Nexum.Lib.History
import Mathlib.Algebra.Order.BigOperators.Group.List
import Mathlib.Data.List.Nodup

/-!
# Commands on one prekey store

Every command loads the store, does its work, and saves the store at the end. What it does in
between may already have left the process: `dm-inbox` has printed messages, and `prekeys-rotate` has
had the server publish keys that are in no file yet. A command that fails or is killed before it has
saved leaves the printed message printable once more (`printed_twice`), and the published key
without its secret (`published_and_lost`).

Where every inbox that printed something is saved, no prekey is used twice (`printed_once`). Where
no rotation has keys published that it has just made, and the file has room for those that are made,
what is published is in the file when it is published, and stays there until it expires or is pruned
as used (`published_kept`). Both are invariants of one command, carried over any list of them.
-/

namespace Nexum.Cli

open Nexum.Lib

/-! ## 1. The parts of the commands -/

def Prekey.uploaded (e : Prekey) : Bool := e.flags &&& 1 ≠ 0

/-- What loading makes of a saved store (`load_saved`). -/
def loadStore (now : UInt64) (file : List Prekey) : Option (List Prekey) :=
  if Fits file then some (file.filter fun e => !e.expired now) else none

theorem loadStore_some {now : UInt64} {file st : List Prekey} (h : loadStore now file = some st) :
    st = file.filter (fun e => !e.expired now) ∧ st.Sublist file := by
  unfold loadStore at h
  split at h
  · cases h
    exact ⟨rfl, List.filter_sublist⟩
  · cases h

/-- The randomness for one key: the ids that are tried, and what the KEM returns. -/
structure Draw where
  tries : List (Bytes 16)
  pk : List UInt8
  sk : List UInt8

/-- The name of a KEM, short enough for its field. -/
structure KemName where
  name : CString
  fits : name.data.length < 64

/-- `prekeys_generate_into_store`: up to five ids are tried until one is new to the store. -/
def generateIntoStore (kem : KemName) (now ttl : UInt64) :
    List Draw → List Prekey → Option (List Prekey)
  | [], st => some st
  | d :: draws, st => do
    let id ← (d.tries.take 5).find? fun id => st.all (·.prekeyId ≠ id)
    generateIntoStore kem now ttl draws
      (st ++ [⟨id, kem.name, d.pk, d.sk, now, now + ttl, 0, kem.fits⟩])

/-- Neither used nor uploaded nor expired. -/
def Prekey.pending (now : UInt64) (e : Prekey) : Bool := !e.used && !e.uploaded && !e.expired now

/-- The keys to be uploaded: those with the KEM of the first, up to the limit if there is one. -/
def collectUnuploaded (now : UInt64) (limit : Nat) (st : List Prekey) : List Prekey :=
  let pending := st.filter (·.pending now)
  let keys := pending.filter fun e => some e.kemId = pending.head?.map (·.kemId)
  if limit = 0 then keys else keys.take limit

/-- Up to the request: nothing is sent for keys of several KEMs, or of another one than the
    vault's. -/
def uploadBatch (vaultKem : CString) (now : UInt64) (limit : Nat) (st : List Prekey) :
    Option (List Prekey) :=
  let batch := collectUnuploaded now limit st
  if ∀ e ∈ st, e.pending now = true → some e.kemId = (batch.head?.map (·.kemId)) then
    if batch = []
      ∨ ∀ e ∈ batch, e.kemId.data ≠ [] ∧ (vaultKem.data = [] ∨ e.kemId = vaultKem) then
      some batch
    else none
  else none

def markUploaded (batch st : List Prekey) : List Prekey :=
  st.map fun e => if e ∈ batch then { e with flags := e.flags ||| 1 } else e

def countAvailable (now : UInt64) (st : List Prekey) : Nat :=
  (st.filter fun e => !e.used && !e.expired now).length

/-- How many keys `cmd_prekeys_rotate` makes. -/
def needed (count min avail : Nat) : Nat := if avail < min then count - avail else 0

def pruneStore (pruneUsed pruneExpired : Bool) (now : UInt64) (st : List Prekey) : List Prekey :=
  st.filter fun e => !(pruneUsed && e.used || pruneExpired && e.expired now)

/-! ## 2. The commands -/

/-- The file; and of the past, what the server has accepted, what was printed, which used keys were
    pruned, and the times that were read. -/
structure Store where
  file : List Prekey
  published : List Prekey
  printed : List (Bytes 16 × DmPacket)
  pruned : List Prekey
  readings : List UInt64

def noStore : Store := ⟨[], [], [], [], []⟩

/-- A command, with what it meets: the clock at its successive readings, whether the server accepts
    an upload, and whether the store is saved in the end. A command that fails or is killed on its
    way is one that does not save, and an inbox also one with fewer turns. -/
inductive Command
  | gen (clock : Nat → UInt64) (kem : KemName) (ttl : UInt64) (draws : List Draw) (saved : Bool)
  | upload (clock : Nat → UInt64) (vaultKem : CString) (limit : Nat) (accepted saved : Bool)
  | rotate (clock : Nat → UInt64) (vaultKem : CString) (kem : KemName) (count min : Nat)
      (ttl : UInt64) (draws : Nat → Draw) (accepted saved : Bool)
  | prune (clock : Nat → UInt64) (pruneUsed pruneExpired saved : Bool)
  | inbox (clock : Nat → UInt64) (turns : List Turn) (saved : Bool)

/-- The file after a command that ends with the store `st`. -/
def Store.save (s : Store) (saved : Bool) (st : List Prekey) : Store :=
  if saved then { s with file := st } else s

/-- Upload from the loaded store, then save. -/
def Store.uploadLoaded (s : Store) (vaultKem : CString) (now : UInt64) (limit : Nat)
    (accepted saved : Bool) (st : List Prekey) : Store :=
  match uploadBatch vaultKem now limit st with
  | none => s
  | some [] => s.save saved st
  | some batch =>
    if accepted then { s with published := s.published ++ batch }.save saved (markUploaded batch st)
    else s

/-- What a rotation works on: the loaded store, with the keys it makes. -/
def rotated (clock : Nat → UInt64) (kem : KemName) (count min : Nat) (ttl : UInt64)
    (draws : Nat → Draw) (st : List Prekey) : Option (List Prekey) :=
  generateIntoStore kem (clock 2) ttl
    ((List.range (needed count min (countAvailable (clock 1) st))).map draws) st

def Command.clock : Command → Nat → UInt64
  | .gen clock .. => clock
  | .upload clock .. => clock
  | .rotate clock .. => clock
  | .prune clock .. => clock
  | .inbox clock .. => clock

/-- What a command does with the loaded store. -/
def Command.run (pr : DmPrims) (s : Store) (st : List Prekey) : Command → Store
  | .gen clock kem ttl draws saved =>
    match generateIntoStore kem (clock 1) ttl draws st with
    | none => s
    | some st' => s.save saved st'
  | .upload clock vaultKem limit accepted saved =>
    s.uploadLoaded vaultKem (clock 1) limit accepted saved st
  | .rotate clock vaultKem kem count min ttl draws accepted saved =>
    match rotated clock kem count min ttl draws st with
    | none => s
    | some st' => s.uploadLoaded vaultKem (clock 3) count accepted saved st'
  | .prune clock pruneUsed pruneExpired saved =>
    { s with pruned := s.pruned ++ st.filter fun e : Prekey => saved && pruneUsed && e.used }.save saved
      (pruneStore pruneUsed pruneExpired (clock 1) st)
  | .inbox _ turns saved =>
    let session := turns.foldl (inboxTurn pr) ⟨st, [], s.printed⟩
    { s with printed := session.printed }.save saved session.store

def prekeyServer (pr : DmPrims) : Server Store Command Unit where
  serve s cmd :=
    let s := { s with readings := s.readings ++ [cmd.clock 0, cmd.clock 1] }
    ((), match loadStore (cmd.clock 0) s.file with
      | none => s
      | some st => cmd.run pr s st)

/-! ## 3. Printed once -/

section
variable {pr : DmPrims}

theorem used_or_uploaded (flags : UInt8) : (flags ||| 1) &&& 2 = flags &&& 2 := by
  apply UInt8.toNat_inj.mp
  simp only [UInt8.toNat_and, UInt8.toNat_or]
  rw [Nat.and_or_distrib_right]
  exact Nat.or_zero _

theorem map_id_setUsed (id : Bytes 16) (st : List Prekey) :
    (setUsed id st).map (·.prekeyId) = st.map (·.prekeyId) := by
  induction st with
  | nil => rfl
  | cons e rest ih =>
    unfold setUsed
    split <;> simp [ih]

/-- An entry after marking is one from before, or one that got its flag. -/
theorem mem_setUsed {id : Bytes 16} {st : List Prekey} {e : Prekey} (h : e ∈ setUsed id st) :
    e ∈ st ∨ e.prekeyId = id ∧ e.used = true := by
  induction st with
  | nil => cases h
  | cons e' rest ih =>
    unfold setUsed at h
    split at h
    · rename_i hid
      rcases List.mem_cons.mp h with rfl | h
      · exact .inr ⟨hid, by simpa [Prekey.used] using used_or_used e'.flags⟩
      · exact .inl (List.mem_cons_of_mem _ h)
    · rcases List.mem_cons.mp h with rfl | h
      · exact .inl (by simp)
      · exact (ih h).imp_left (List.mem_cons_of_mem _)

/-- Where no id is repeated, all that has the id is marked. -/
theorem used_of_mem_setUsed {id : Bytes 16} {st : List Prekey} {e : Prekey}
    (hids : (st.map (·.prekeyId)).Nodup) (h : e ∈ setUsed id st) (hid : e.prekeyId = id) :
    e.used = true := by
  induction st with
  | nil => cases h
  | cons e' rest ih =>
    obtain ⟨hnot, hrest⟩ := List.nodup_cons.mp hids
    unfold setUsed at h
    split at h
    · rename_i hid'
      rcases List.mem_cons.mp h with rfl | h
      · simpa [Prekey.used] using used_or_used e'.flags
      · exact absurd (List.mem_map.mpr ⟨e, h, hid.trans hid'.symm⟩) hnot
    · rename_i hid'
      rcases List.mem_cons.mp h with rfl | h
      · exact absurd hid hid'
      · exact ih hrest h

/-- **One turn**: nothing, or one message under a key that was not used. -/
theorem inboxTurn_cases (pr : DmPrims) (s : Session) (turn : Turn) :
    ((inboxTurn pr s turn).store = s.store ∧ (inboxTurn pr s turn).printed = s.printed)
    ∨ ∃ e ∈ s.store, ∃ p, e.used = false
      ∧ (inboxTurn pr s turn).store = setUsed e.prekeyId s.store
      ∧ (inboxTurn pr s turn).printed = s.printed ++ [(e.prekeyId, p)] := by
  unfold inboxTurn
  split
  · exact .inl ⟨rfl, rfl⟩
  · rename_i p _
    split
    · exact .inl ⟨rfl, rfl⟩
    · rename_i e hnamed
      obtain ⟨hfind, hfree⟩ := Option.filter_eq_some_iff.mp hnamed
      split
      · exact .inl ⟨rfl, rfl⟩
      · split
        · exact .inl ⟨rfl, rfl⟩
        · exact .inr ⟨e, List.mem_of_find?_eq_some hfind, p, by simpa using (by simpa using hfree :
            _ ∧ _).2, rfl, rfl⟩

/-- **The invariant.** No key has printed twice, and what has printed is marked if it is there. -/
structure Once (file : List Prekey) (printed : List (Bytes 16 × DmPacket)) : Prop where
  ids : (file.map (·.prekeyId)).Nodup
  marked : ∀ x ∈ printed, ∀ e ∈ file, e.prekeyId = x.1 → e.used = true
  once : (printed.map Prod.fst).Nodup

theorem Once.sublist {file file' : List Prekey} {printed : List (Bytes 16 × DmPacket)}
    (h : Once file printed) (hsub : file'.Sublist file) : Once file' printed :=
  ⟨h.ids.sublist (hsub.map _), fun x hx e he => h.marked x hx e (hsub.subset he), h.once⟩

theorem Once.markUploaded {file : List Prekey} {printed : List (Bytes 16 × DmPacket)}
    (h : Once file printed) (batch : List Prekey) : Once (markUploaded batch file) printed := by
  have hmap : (Cli.markUploaded batch file).map (·.prekeyId) = file.map (·.prekeyId) := by
    rw [Cli.markUploaded, List.map_map]
    refine List.map_congr_left fun e _ => ?_
    by_cases he : e ∈ batch <;> simp [he]
  refine ⟨hmap ▸ h.ids, fun x hx e he hid => ?_, h.once⟩
  obtain ⟨e', he', rfl⟩ := List.mem_map.mp he
  by_cases hb : e' ∈ batch
  · simp only [hb, if_true] at hid ⊢
    simpa [Prekey.used, used_or_uploaded] using h.marked x hx e' he' hid
  · simp only [hb, if_false] at hid ⊢
    exact h.marked x hx e' he' hid

theorem Once.turns (pr : DmPrims) (turns : List Turn) (s : Session) (h : Once s.store s.printed) :
    Once (turns.foldl (inboxTurn pr) s).store (turns.foldl (inboxTurn pr) s).printed := by
  induction turns generalizing s with
  | nil => exact h
  | cons turn rest ih =>
    refine ih _ ?_
    rcases inboxTurn_cases pr s turn with ⟨hstore, hprinted⟩ | ⟨e, he, p, hfree, hstore, hprinted⟩
    · rw [hstore, hprinted]
      exact h
    · rw [hstore, hprinted]
      have hnew : e.prekeyId ∉ s.printed.map Prod.fst := by
        intro hmem
        obtain ⟨x, hx, hid⟩ := List.mem_map.mp hmem
        have := h.marked x hx e he hid.symm
        rw [hfree] at this
        cases this
      refine ⟨by rw [map_id_setUsed]; exact h.ids, fun x hx e' he' hid => ?_, ?_⟩
      · rcases List.mem_append.mp hx with hx | hx
        · rcases mem_setUsed he' with hold | ⟨-, hused⟩
          · exact h.marked x hx e' hold hid
          · exact hused
        · obtain rfl := List.mem_singleton.mp hx
          exact used_of_mem_setUsed h.ids he' hid
      · rw [List.map_append, List.nodup_append]
        refine ⟨h.once, by simp, fun a ha b hb => ?_⟩
        obtain rfl : b = e.prekeyId := by simpa using hb
        rintro rfl
        exact hnew ha

/-- What is generated is new to the store. -/
theorem generateIntoStore_some {kem : KemName} {now ttl : UInt64} {draws : List Draw}
    {st st' : List Prekey} (h : generateIntoStore kem now ttl draws st = some st') :
    ∃ made, st' = st ++ made ∧ (∀ e ∈ made, e.used = false)
      ∧ ((st.map (·.prekeyId)).Nodup → (st'.map (·.prekeyId)).Nodup) := by
  induction draws generalizing st with
  | nil =>
    cases h
    exact ⟨[], by simp, by simp, id⟩
  | cons d draws ih =>
    obtain ⟨id, hid, h⟩ := Option.bind_eq_some_iff.mp h
    obtain ⟨made, rfl, hmade, hnodup⟩ := ih h
    have hnew := List.find?_some hid
    simp only [List.all_eq_true, decide_eq_true_eq] at hnew
    refine ⟨_ :: made, by rw [List.append_assoc]; rfl, ?_, fun hst => hnodup ?_⟩
    · intro e he
      rcases List.mem_cons.mp he with rfl | he
      · show decide ((0 : UInt8) &&& 2 ≠ 0) = false
        decide
      · exact hmade e he
    · rw [List.map_append, List.nodup_append]
      refine ⟨hst, by simp, fun a ha b hb => ?_⟩
      obtain ⟨e, he, rfl⟩ := List.mem_map.mp ha
      obtain rfl : b = id := by simpa using hb
      exact hnew e he

theorem Once.generate {kem : KemName} {now ttl : UInt64} {draws : List Draw}
    {st st' : List Prekey} {printed : List (Bytes 16 × DmPacket)} (h : Once st printed)
    (hgen : generateIntoStore kem now ttl draws st = some st')
    (hfresh : ∀ x ∈ printed, ∀ e ∈ st', e.prekeyId = x.1 → e ∈ st) : Once st' printed := by
  obtain ⟨made, rfl, -, hnodup⟩ := generateIntoStore_some hgen
  exact ⟨hnodup h.ids, fun x hx e he hid => h.marked x hx e (hfresh x hx e he hid) hid, h.once⟩

/-- A command on the loaded store `st` saves if it has printed something, and does not draw an id
    under which something was printed. -/
def PrintsSaved (pr : DmPrims) (printed : List (Bytes 16 × DmPacket)) (st : List Prekey) :
    Command → Prop
  | .gen clock kem ttl draws _ => ∀ st', generateIntoStore kem (clock 1) ttl draws st = some st' →
    ∀ x ∈ printed, ∀ e ∈ st', e.prekeyId = x.1 → e ∈ st
  | .rotate clock _ kem count min ttl draws _ _ =>
    ∀ st', rotated clock kem count min ttl draws st = some st' →
      ∀ x ∈ printed, ∀ e ∈ st', e.prekeyId = x.1 → e ∈ st
  | .inbox _ turns saved => saved = true
    ∨ (turns.foldl (inboxTurn pr) ⟨st, [], printed⟩).printed = printed
  | _ => True

/-- **What is asked of a command.** -/
def SavesPrints (pr : DmPrims) (s : Store) (cmd : Command) : Prop :=
  ∀ st, loadStore (cmd.clock 0) s.file = some st → PrintsSaved pr s.printed st cmd

theorem Once.save {s : Store} {st : List Prekey} (hfile : Once s.file s.printed)
    (hst : Once st s.printed) (saved : Bool) :
    Once (s.save saved st).file (s.save saved st).printed := by
  cases saved with
  | true => exact hst
  | false => exact hfile

theorem Once.uploadLoaded {s : Store} {st : List Prekey} (hfile : Once s.file s.printed)
    (hst : Once st s.printed) (vaultKem : CString) (now : UInt64) (limit : Nat)
    (accepted saved : Bool) :
    Once (s.uploadLoaded vaultKem now limit accepted saved st).file
      (s.uploadLoaded vaultKem now limit accepted saved st).printed := by
  unfold Store.uploadLoaded
  split
  · exact hfile
  · exact hfile.save hst saved
  · split
    · refine Once.save ?_ ?_ saved
      · exact hfile
      · exact hst.markUploaded _
    · exact hfile

theorem Once.run {s : Store} {st : List Prekey} {cmd : Command} (h : Once s.file s.printed)
    (hst : Once st s.printed) (hok : PrintsSaved pr s.printed st cmd) :
    Once (cmd.run pr s st).file (cmd.run pr s st).printed := by
  cases cmd with
  | gen clock kem ttl draws saved =>
    simp only [Command.run]
    split
    · exact h
    · rename_i st' hgen
      exact h.save (hst.generate hgen (hok st' hgen)) saved
  | upload clock vaultKem limit accepted saved => exact h.uploadLoaded hst ..
  | rotate clock vaultKem kem count min ttl draws accepted saved =>
    simp only [Command.run]
    split
    · exact h
    · rename_i st' hgen
      exact h.uploadLoaded (hst.generate hgen (hok st' hgen)) ..
  | prune clock pruneUsed pruneExpired saved =>
    refine Once.save ?_ ?_ saved
    · exact h
    · exact hst.sublist List.filter_sublist
  | inbox clock turns saved =>
    have hend := Once.turns pr turns ⟨st, [], s.printed⟩ hst
    rcases hok with rfl | hquiet
    · exact hend
    · simp only [Command.run, hquiet] at hend ⊢
      exact Once.save (s := ⟨s.file, s.published, s.printed, s.pruned, s.readings⟩) h hend saved

theorem Once.serve {s : Store} {cmd : Command} (hok : SavesPrints pr s cmd)
    (h : Once s.file s.printed) : Once ((prekeyServer pr).serve s cmd).2.file
      ((prekeyServer pr).serve s cmd).2.printed := by
  simp only [prekeyServer]
  cases hload : loadStore (cmd.clock 0) s.file with
  | none => exact h
  | some st =>
    refine Once.run ?_ ?_ (hok st hload)
    · exact h
    · exact h.sublist (loadStore_some hload).2

end

/-- **Printed once.** Over any commands that save what they print, every key has printed at most one
    message, and no packet was printed twice. -/
theorem printed_once (pr : DmPrims) (cmds : List Command)
    (h : (prekeyServer pr).Along (SavesPrints pr) noStore cmds) :
    (((prekeyServer pr).after noStore cmds).printed.map Prod.fst).Nodup
      ∧ ((prekeyServer pr).after noStore cmds).printed.Nodup := by
  have hinit : Once noStore.file noStore.printed := ⟨List.nodup_nil, nofun, List.nodup_nil⟩
  have hinv : Once ((prekeyServer pr).after noStore cmds).file
      ((prekeyServer pr).after noStore cmds).printed :=
    (prekeyServer pr).invariant (P := fun s => Once s.file s.printed)
      (fun s cmd hok hs => hs.serve hok) hinit cmds h
  exact ⟨hinv.once, List.Nodup.of_map _ hinv.once⟩

/-! ### Samples -/

def sampleClock : Nat → UInt64 := fun _ => 5

/-- The key that `sampleMessage` uses. -/
def sampleDraw : Draw := ⟨[samplePrekey.prekeyId], [1], [1]⟩

def sampleKem : KemName := ⟨samplePrekey.kemId, samplePrekey.kemFits⟩

def sampleTurn : Turn :=
  (fun nick => if nick = carol then some [9] else none,
    sampleMessage sampleVault.nick sampleVault.kemAlg)

/-- Make a key and show a message twice. -/
def showTwice (saved : Bool) : List Command :=
  [.gen sampleClock sampleKem 100 [sampleDraw] true, .inbox sampleClock [sampleTurn] saved,
    .inbox sampleClock [sampleTurn] true]

theorem printed_once_sample :
    (((prekeyServer sampleDmPrims).after noStore (showTwice true)).printed.map Prod.fst).Nodup
      ∧ ((prekeyServer sampleDmPrims).after noStore (showTwice true)).printed ≠ [] := by
  have hlen : ((prekeyServer sampleDmPrims).after noStore (showTwice true)).printed.length = 1 := by
    decide +kernel
  refine ⟨(printed_once sampleDmPrims (showTwice true) ?_).1, fun h => by simp [h] at hlen⟩
  exact ⟨fun st _ st' _ => nofun, fun st _ => .inl rfl, fun st _ => .inl rfl, trivial⟩

/-- **Printed twice.** The first inbox is killed after it has printed. -/
theorem printed_twice :
    ((prekeyServer sampleDmPrims).after noStore (showTwice false)).printed.map Prod.fst
      = [samplePrekey.prekeyId, samplePrekey.prekeyId] := by
  decide +kernel

/-! ## 4. Published and kept -/

/-- An entry without its flags. -/
def Prekey.bare (e : Prekey) : Prekey := { e with flags := 0 }

/-- The key has expired at a time that was read, or it was pruned as used. -/
def Store.Gone (s : Store) (e : Prekey) : Prop :=
  (∃ t ∈ s.readings, e.expired t = true) ∨ ∃ e' ∈ s.pruned, e'.used = true ∧ e'.bare = e.bare

/-- The file has room for the keys that these draws give: in number, with a KEM that has a name, and
    in bytes. -/
structure Room (kem : KemName) (draws : List Draw) (file : List Prekey) : Prop where
  named : draws ≠ [] → kem.name.data ≠ []
  count : file.length + draws.length ≤ 10000
  size : (writePrekeys file).length
    + (draws.map fun d => 43 + kem.name.data.length + d.pk.length + d.sk.length).sum + 16
      ≤ ffPrekeysMaxCtLen

/-- **What is asked of a command**, on the file it meets: there is room for the keys it makes, and a
    rotation whose upload is accepted makes none. -/
def Prudent (s : Store) : Command → Prop
  | .gen _ kem _ draws _ => Room kem draws s.file
  | .rotate clock _ kem count min _ draws accepted _ =>
    let made := needed count min
      (countAvailable (clock 1) (s.file.filter fun e => !e.expired (clock 0)))
    made = 0 ∨ accepted = false ∧ Room kem ((List.range made).map draws) s.file
  | _ => True

section
variable {pr : DmPrims}

theorem expired_bare {e e' : Prekey} (h : e'.bare = e.bare) (t : UInt64) :
    e'.expired t = e.expired t := by
  have hexpires : e'.bare.expiresAt = e.bare.expiresAt := by rw [h]
  rw [Prekey.expired, Prekey.expired, show e'.expiresAt = e.expiresAt from hexpires]

theorem Store.Gone.bare {s : Store} {e e' : Prekey} (h : s.Gone e) (heq : e'.bare = e.bare) :
    s.Gone e' := by
  rcases h with ⟨t, ht, hexpired⟩ | ⟨x, hx, hused, hbare⟩
  · exact .inl ⟨t, ht, (expired_bare heq t).trans hexpired⟩
  · exact .inr ⟨x, hx, hused, hbare.trans heq.symm⟩

theorem bare_markUploaded (batch st : List Prekey) :
    (markUploaded batch st).map Prekey.bare = st.map Prekey.bare := by
  rw [markUploaded, List.map_map]
  refine List.map_congr_left fun e _ => ?_
  by_cases he : e ∈ batch <;> simp [he, Prekey.bare]

theorem bare_setUsed (id : Bytes 16) (st : List Prekey) :
    (setUsed id st).map Prekey.bare = st.map Prekey.bare := by
  induction st with
  | nil => rfl
  | cons e rest ih =>
    unfold setUsed
    split <;> simp [ih, Prekey.bare]

theorem bare_turns (pr : DmPrims) (turns : List Turn) (s : Session) :
    (turns.foldl (inboxTurn pr) s).store.map Prekey.bare = s.store.map Prekey.bare := by
  induction turns generalizing s with
  | nil => rfl
  | cons turn rest ih =>
    rw [List.foldl_cons, ih]
    rcases inboxTurn_cases pr s turn with ⟨hstore, -⟩ | ⟨e, -, p, -, hstore, -⟩
    · rw [hstore]
    · rw [hstore, bare_setUsed]

/-! ### Room in the file -/

theorem length_writePrekeys (st : List Prekey) :
    (writePrekeys st).length = 4 + (st.map fun e => (writePrekey e.bare).length).sum := by
  rw [writePrekeys, List.length_append, length_beBytes, List.length_flatMap]
  congr 2
  refine List.map_congr_left fun e _ => ?_
  rw [length_writePrekey, length_writePrekey]
  rfl

/-- Dropping entries and changing flags keeps a store readable. -/
theorem Fits.mono {st st' : List Prekey} (h : Fits st)
    (hsub : (st'.map Prekey.bare).Sublist (st.map Prekey.bare)) : Fits st' := by
  refine ⟨?_, fun e he => ?_, ?_⟩
  · have hlength := hsub.length_le
    rw [List.length_map, List.length_map] at hlength
    exact hlength.trans h.count
  · obtain ⟨e', he', heq⟩ := List.mem_map.mp (hsub.subset (List.mem_map_of_mem he))
    have hkem : e'.bare.kemId = e.bare.kemId := by rw [heq]
    exact (show e'.kemId = e.kemId from hkem) ▸ h.kems e' he'
  · have hsum := (hsub.map fun e => (writePrekey e).length).sum_le_sum fun _ _ => Nat.zero_le _
    have hsize := h.size
    rw [length_writePrekeys] at hsize ⊢
    simp only [List.map_map, Function.comp_def] at hsum
    omega

/-- **What is generated fits**, one key after the other. -/
theorem Room.fits {kem : KemName} {now ttl : UInt64} {draws : List Draw} {st st' : List Prekey}
    (hroom : Room kem draws st) (hkems : ∀ e ∈ st, e.kemId.data ≠ [])
    (h : generateIntoStore kem now ttl draws st = some st') : Fits st' := by
  induction draws generalizing st with
  | nil =>
    cases h
    exact ⟨hroom.count, hkems, hroom.size⟩
  | cons d draws ih =>
    obtain ⟨id, -, h⟩ := Option.bind_eq_some_iff.mp h
    have hnamed := hroom.named (List.cons_ne_nil _ _)
    refine ih ⟨fun _ => hnamed, ?_, ?_⟩ (fun e he => ?_) h
    · have := hroom.count
      simp only [List.length_append, List.length_cons, List.length_nil] at this ⊢
      omega
    · have := hroom.size
      rw [length_writePrekeys] at this ⊢
      simp only [List.map_append, List.map_cons, List.map_nil, List.sum_append, List.sum_cons,
        List.sum_nil, length_writePrekey, Prekey.bare] at this ⊢
      omega
    · rcases List.mem_append.mp he with he | he
      · exact hkems e he
      · rw [List.mem_singleton.mp he]
        exact hnamed

/-- There is as much room for a store that has lost some of its keys. -/
theorem Room.mono {kem : KemName} {draws : List Draw} {file st : List Prekey}
    (h : Room kem draws file) (hsub : st.Sublist file) : Room kem draws st := by
  have hcount := hsub.length_le
  have hsum := (hsub.map fun e : Prekey => (writePrekey e.bare).length).sum_le_sum fun _ _ => Nat.zero_le _
  have hsize := h.size
  refine ⟨h.named, by have := h.count; omega, ?_⟩
  rw [length_writePrekeys] at hsize ⊢
  omega

/-! ### One command -/

/-- What a command does to the file and to what is published. Every key of the file stays or is
    gone; what is new with the server was in the file; and nothing of the past is forgotten. -/
structure Carries (s s' : Store) : Prop where
  fits : Fits s'.file
  keys : ∀ e ∈ s.file, (∃ e' ∈ s'.file, e'.bare = e.bare) ∨ s'.Gone e
  filed : ∀ p ∈ s'.published, p ∈ s.published ∨ p ∈ s.file
  readings : s.readings ⊆ s'.readings
  pruned : s.pruned ⊆ s'.pruned

theorem Carries.refl {s : Store} (h : Fits s.file) : Carries s s :=
  ⟨h, fun e he => .inl ⟨e, he, rfl⟩, fun _ hp => .inl hp, fun _ h => h, fun _ h => h⟩

/-- The file is replaced by a store that has its keys. -/
theorem Carries.save {s : Store} {st published : List Prekey} (hfile : Fits s.file) (hst : Fits st)
    (hkeys : ∀ e ∈ s.file, (∃ e' ∈ st, e'.bare = e.bare) ∨ s.Gone e)
    (hfiled : ∀ p ∈ published, p ∈ s.published ∨ p ∈ s.file) (saved : Bool) :
    Carries s (Store.save { s with published := published } saved st) := by
  cases saved with
  | true => exact ⟨hst, hkeys, hfiled, fun _ h => h, fun _ h => h⟩
  | false => exact ⟨hfile, fun e he => .inl ⟨e, he, rfl⟩, hfiled, fun _ h => h, fun _ h => h⟩

theorem uploadBatch_subset {vaultKem : CString} {now : UInt64} {limit : Nat}
    {st batch : List Prekey} (h : uploadBatch vaultKem now limit st = some batch) : batch ⊆ st := by
  have hcollect : collectUnuploaded now limit st ⊆ st := by
    unfold collectUnuploaded
    dsimp only
    split
    · exact fun e he => (List.mem_filter.mp (List.mem_filter.mp he).1).1
    · exact fun e he => (List.mem_filter.mp (List.mem_filter.mp (List.mem_of_mem_take he)).1).1
  unfold uploadBatch at h
  dsimp only at h
  split at h
  · split at h
    · cases h
      exact hcollect
    · cases h
  · cases h

/-- An upload from a store that has the keys of the file; if it is accepted, the store has only
    those. -/
theorem Carries.uploadLoaded {s : Store} {st : List Prekey} (hfile : Fits s.file) (hst : Fits st)
    (hkeys : ∀ e ∈ s.file, (∃ e' ∈ st, e'.bare = e.bare) ∨ s.Gone e) (vaultKem : CString)
    (now : UInt64) (limit : Nat) {accepted : Bool} (haccepted : accepted = true → st ⊆ s.file)
    (saved : Bool) : Carries s (s.uploadLoaded vaultKem now limit accepted saved st) := by
  unfold Store.uploadLoaded
  split
  · exact .refl hfile
  · exact .save hfile hst hkeys (fun _ hp => .inl hp) saved
  · rename_i batch _ hbatch
    split
    · rename_i hyes
      have hbare := bare_markUploaded batch st
      refine .save hfile (hst.mono (hbare ▸ .refl _)) (fun e he => ?_) (fun p hp => ?_) saved
      · refine (hkeys e he).imp_left fun ⟨e', he', heq⟩ => ?_
        obtain ⟨e'', he'', heq'⟩ := List.mem_map.mp (hbare ▸ List.mem_map_of_mem he')
        exact ⟨e'', he'', heq'.trans heq⟩
      · rcases List.mem_append.mp hp with hp | hp
        · exact .inl hp
        · exact .inr (haccepted hyes (uploadBatch_subset hbatch hp))
    · exact .refl hfile

theorem Carries.run {s : Store} {st : List Prekey} {cmd : Command} (hfile : Fits s.file)
    (hst : st = s.file.filter fun e => !e.expired (cmd.clock 0))
    (hread : cmd.clock 0 ∈ s.readings ∧ cmd.clock 1 ∈ s.readings) (hok : Prudent s cmd) :
    Carries s (cmd.run pr s st) := by
  have hsub : st.Sublist s.file := hst ▸ List.filter_sublist
  have hfits : Fits st := hfile.mono (hsub.map _)
  have hkeys : ∀ e ∈ s.file, e ∈ st ∨ s.Gone e := by
    intro e he
    by_cases hx : e.expired (cmd.clock 0) = true
    · exact .inr (.inl ⟨_, hread.1, hx⟩)
    · exact .inl (hst ▸ List.mem_filter.mpr ⟨he, by simpa using hx⟩)
  have hkept : ∀ {st' : List Prekey}, (st.map Prekey.bare) ⊆ st'.map Prekey.bare →
      ∀ e ∈ s.file, (∃ e' ∈ st', e'.bare = e.bare) ∨ s.Gone e :=
    fun hin e he => (hkeys e he).imp_left fun he => List.mem_map.mp (hin (List.mem_map_of_mem he))
  cases cmd with
  | gen clock kem ttl draws saved =>
    simp only [Command.run]
    split
    · exact .refl hfile
    · rename_i st' hgen
      obtain ⟨made, rfl, -⟩ := generateIntoStore_some hgen
      exact .save hfile ((Room.mono hok hsub).fits hfits.kems hgen)
        (hkept (List.map_subset _ (List.subset_append_left ..))) (fun _ hp => .inl hp) saved
  | upload clock vaultKem limit accepted saved =>
    exact .uploadLoaded hfile hfits (hkept fun _ h => h) _ _ _ (fun _ => hsub.subset) _
  | rotate clock vaultKem kem count min ttl draws accepted saved =>
    simp only [Command.run]
    split
    · exact .refl hfile
    · rename_i st' hgen
      obtain ⟨made, hmade, -⟩ := generateIntoStore_some hgen
      have hin : st ⊆ st' := hmade ▸ List.subset_append_left ..
      simp only [Prudent, Command.clock] at hok hst
      rw [rotated] at hgen
      rw [← hst] at hok
      rcases hok with hnone | ⟨hrefused, hroom⟩
      · rw [hnone] at hgen
        cases hgen
        exact .uploadLoaded hfile hfits (hkept fun _ h => h) _ _ _ (fun _ => hsub.subset) _
      · refine .uploadLoaded hfile ((hroom.mono hsub).fits hfits.kems hgen)
          (hkept (List.map_subset _ hin)) _ _ _ (fun hyes => ?_) _
        rw [hrefused] at hyes
        cases hyes
  | prune clock pruneUsed pruneExpired saved =>
    cases saved with
    | false =>
      exact ⟨hfile, fun e he => .inl ⟨e, he, rfl⟩, fun _ hp => .inl hp, fun _ h => h,
        fun _ h => List.mem_append_left _ h⟩
    | true =>
      refine ⟨hfits.mono (List.filter_sublist.map _), fun e he => ?_, fun _ hp => .inl hp,
        fun _ h => h, fun _ h => List.mem_append_left _ h⟩
      rcases hkeys e he with he | hgone
      · by_cases hkeep : e ∈ pruneStore pruneUsed pruneExpired (clock 1) st
        · exact .inl ⟨e, hkeep, rfl⟩
        · -- what is dropped is used or expired
          refine .inr ?_
          simp only [pruneStore, List.mem_filter, he, true_and, Bool.not_eq_true',
            Bool.not_eq_false, Bool.or_eq_true, Bool.and_eq_true] at hkeep
          rcases hkeep with ⟨hprune, hused⟩ | ⟨-, hx⟩
          · refine .inr ⟨e, List.mem_append_right _ (List.mem_filter.mpr ⟨he, ?_⟩), hused, rfl⟩
            simp [hprune, hused]
          · exact .inl ⟨_, hread.2, hx⟩
      · exact .inr (hgone.imp_right fun ⟨e', he', h⟩ => ⟨e', List.mem_append_left _ he', h⟩)
  | inbox clock turns saved =>
    have hbare := bare_turns pr turns ⟨st, [], s.printed⟩
    simp only [Command.run]
    cases saved with
    | false => exact ⟨hfile, fun e he => .inl ⟨e, he, rfl⟩, fun _ hp => .inl hp, fun _ h => h,
        fun _ h => h⟩
    | true =>
      refine ⟨hfits.mono ?_, hkept ?_, fun _ hp => .inl hp, fun _ h => h, fun _ h => h⟩
      · exact hbare ▸ .refl _
      · exact hbare ▸ fun _ h => h

/-- **One command**, from a file that can be loaded. -/
theorem Carries.serve (pr : DmPrims) {s : Store} {cmd : Command} (hfile : Fits s.file) (hok : Prudent s cmd) :
    Carries { s with readings := s.readings ++ [cmd.clock 0, cmd.clock 1] }
      ((prekeyServer pr).serve s cmd).2 := by
  simp only [prekeyServer, loadStore, hfile, if_true]
  refine Carries.run hfile rfl (by simp) ?_
  cases cmd <;> exact hok

/-- **The invariant.** The file can be loaded, and has what is published and not gone. -/
structure Keeps (s : Store) : Prop where
  fits : Fits s.file
  kept : ∀ p ∈ s.published, (∃ e ∈ s.file, e.bare = p.bare) ∨ s.Gone p

theorem Keeps.serve {s : Store} {cmd : Command} (hok : Prudent s cmd) (h : Keeps s) :
    Keeps ((prekeyServer pr).serve s cmd).2 := by
  have hcarries := Carries.serve pr h.fits hok
  refine ⟨hcarries.fits, fun p hp => ?_⟩
  have hfiled : (∃ e ∈ s.file, e.bare = p.bare) ∨ s.Gone p :=
    (hcarries.filed p hp).elim (h.kept p) fun hp => .inl ⟨p, hp, rfl⟩
  rcases hfiled with ⟨e, he, heq⟩ | ⟨t, ht, hx⟩ | ⟨e, he, h⟩
  · rcases hcarries.keys e he with ⟨e', he', heq'⟩ | hgone
    · exact .inl ⟨e', he', heq'.trans heq⟩
    · exact .inr (hgone.bare heq.symm)
  · exact .inr (.inl ⟨t, hcarries.readings (List.mem_append_left _ ht), hx⟩)
  · exact .inr (.inr ⟨e, hcarries.pruned he, h⟩)

end

/-- **Published and kept.** Over any prudent commands: whatever a command has the server accept was
    in the file when the command began; and whenever the store is loaded, every key the server has
    accepted is there with its secret, unless it has expired or was pruned as used. -/
theorem published_kept (pr : DmPrims) (cmds : List Command)
    (h : (prekeyServer pr).Along Prudent noStore cmds) :
    (∀ earlier cmd later, cmds = earlier ++ cmd :: later →
      ∀ p ∈ ((prekeyServer pr).after noStore (earlier ++ [cmd])).published,
        p ∈ ((prekeyServer pr).after noStore earlier).published
          ∨ p ∈ ((prekeyServer pr).after noStore earlier).file)
    ∧ ∀ p ∈ ((prekeyServer pr).after noStore cmds).published, ∀ now,
      p.expired now = true ∨ ((prekeyServer pr).after noStore cmds).Gone p
        ∨ ∃ st, loadStore now ((prekeyServer pr).after noStore cmds).file = some st
          ∧ ∃ e ∈ st, e.bare = p.bare := by
  have hinv : ∀ cmds, (prekeyServer pr).Along Prudent noStore cmds →
      Keeps ((prekeyServer pr).after noStore cmds) :=
    (prekeyServer pr).invariant (fun s cmd hok hs => hs.serve hok) ⟨by decide, nofun⟩
  constructor
  · rintro earlier cmd later rfl p hp
    have halong : (prekeyServer pr).Along Prudent noStore (earlier ++ [cmd]) :=
      (prekeyServer pr).along_append.mp (by simpa using h) |>.1
    obtain ⟨hearlier, hok⟩ := (prekeyServer pr).along_snoc.mp halong
    rw [Server.after_snoc] at hp
    exact (Carries.serve pr (hinv earlier hearlier).fits hok).filed p hp
  · intro p hp now
    have hkeeps := hinv cmds h
    rcases hkeeps.kept p hp with ⟨e, he, heq⟩ | hgone
    · by_cases hx : p.expired now = true
      · exact .inl hx
      · refine .inr (.inr ⟨_, if_pos hkeeps.fits, e, List.mem_filter.mpr ⟨he, ?_⟩, heq⟩)
        rw [expired_bare heq]
        simpa using hx
    · exact .inr (.inl hgone)

/-- Make a key, save it, upload it, show a message, and prune what is used. -/
def uploadOne : List Command :=
  [.gen sampleClock sampleKem 100 [sampleDraw] true, .upload sampleClock (.lit "") 0 true true,
    .inbox sampleClock [sampleTurn] true, .prune sampleClock false true true]

theorem published_kept_sample :
    ∃ p ∈ ((prekeyServer sampleDmPrims).after noStore uploadOne).published,
      ∃ st, loadStore 6 ((prekeyServer sampleDmPrims).after noStore uploadOne).file = some st
        ∧ ∃ e ∈ st, e.bare = p.bare := by
  have hrun : ((prekeyServer sampleDmPrims).after noStore uploadOne).published = [samplePrekey]
      ∧ ((prekeyServer sampleDmPrims).after noStore uploadOne).pruned = []
      ∧ ((prekeyServer sampleDmPrims).after noStore uploadOne).readings = List.replicate 8 5 := by
    decide +kernel
  obtain ⟨hpublished, hpruned, hreadings⟩ := hrun
  have hmem : samplePrekey ∈ ((prekeyServer sampleDmPrims).after noStore uploadOne).published := by
    rw [hpublished]
    exact List.mem_singleton_self _
  have hok : (prekeyServer sampleDmPrims).Along Prudent noStore uploadOne :=
    ⟨⟨fun _ => by decide, by decide, by decide +kernel⟩, trivial, trivial, trivial, trivial⟩
  refine ⟨samplePrekey, hmem, ?_⟩
  rcases (published_kept sampleDmPrims uploadOne hok).2 _ hmem 6 with h | hgone | h
  · exact absurd h (by decide)
  · rcases hgone with ⟨t, ht, hx⟩ | ⟨e, he, -⟩
    · rw [hreadings] at ht
      obtain rfl := List.eq_of_mem_replicate ht
      exact absurd hx (by decide)
    · rw [hpruned] at he
      cases he
  · exact h

/-- **Published and lost.** A rotation makes a key and has it published, and is killed before it
    saves: the server hands out a key whose secret is nowhere. -/
theorem published_and_lost :
    let s := (prekeyServer sampleDmPrims).after noStore
      [.rotate sampleClock (.lit "") sampleKem 1 1 100 (fun _ => sampleDraw) true false]
    s.published.map (·.prekeyId) = [samplePrekey.prekeyId] ∧ s.file = [] := by
  decide +kernel

end Nexum.Cli
