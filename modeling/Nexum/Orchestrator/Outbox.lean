import Nexum.Orchestrator.Workflow

/-!
# The outbox

A message to be sent is a row of the outbox, filed under a key. Whoever delivers it reports back:
that it was handed over (`mark_outbox_sent`), that it was acknowledged (`mark_outbox_acked`), that
it failed (`mark_outbox_retry`). After enough failures the row is given up and a dead letter is
left.

The rows are told apart by their ids and by their keys, and no call changes what a row is about.
The three reports change one row, an open one. From this it follows what the outbox can promise:
**a row that is acknowledged or given up never changes again**, and for every row that is given up
there is one dead letter.

Two promises are weaker than they look. A message whose key is taken is answered like one that was
stored, also when the row under the key was given up, and the key does not tell a recipient from
the message type that follows it. And the counter that decides when to give up counts reports: a
message that is handed over and then fails has been counted twice.
-/

namespace Nexum.Orchestrator

open Nexum.Lib Nexum.Lib.Check

variable {sha3 : List UInt8 → List UInt8} {db db' : FlowDb} {call : Call} {reply : Reply}

/-! ## 1. Rows -/

/-- What a row is about. -/
def OutboxRow.message (row : OutboxRow) : OutboxInput :=
  ⟨row.escrowIdHex, row.state, row.toId, row.msgType, row.envelopeJson⟩

/-- The id, the key and the message: what no call changes. -/
def OutboxRow.content (row : OutboxRow) : Int × String × OutboxInput :=
  (row.id, row.idemKey, row.message)

/-- Rows have ids and keys of their own, the ids count up to the number of rows, and a key is the
    key of the row's message. -/
structure Filed (sha3 : List UInt8 → List UInt8) (db : FlowDb) : Prop where
  ids : (db.outbox.map (·.id)).Nodup
  keys : (db.outbox.map (·.idemKey)).Nodup
  bound : ∀ row ∈ db.outbox, row.id ≤ db.outbox.length
  made : ∀ row ∈ db.outbox, row.idemKey = row.message.idemKey sha3
    ∧ ∃ input, OutboxInput.normalize input = .ok row.message

theorem Filed.eq_of_id (hf : Filed sha3 db) {row row' : OutboxRow} (h : row ∈ db.outbox)
    (h' : row' ∈ db.outbox) (hid : row.id = row'.id) : row = row' :=
  List.inj_on_of_nodup_map hf.ids h h' hid

theorem Filed.eq_of_key (hf : Filed sha3 db) {row row' : OutboxRow} (h : row ∈ db.outbox)
    (h' : row' ∈ db.outbox) (hkey : row.idemKey = row'.idemKey) : row = row' :=
  List.inj_on_of_nodup_map hf.keys h h' hkey

theorem Filed.outboxRow (hf : Filed sha3 db) {row : OutboxRow} (h : row ∈ db.outbox) :
    db.outboxRow row.id = some row := by
  refine find?_eq_some_of_unique h (by simp) ?_
  intro row' hrow' hid
  exact hf.eq_of_id hrow' h (by simpa using hid)

theorem mem_of_outboxRow {id : Int} {row : OutboxRow} (h : db.outboxRow id = some row) :
    row ∈ db.outbox ∧ row.id = id :=
  ⟨List.mem_of_find?_eq_some h, by simpa using List.find?_some h⟩

/-- The row with that id. -/
def hasId (id : Int) (row : OutboxRow) : Bool := row.id = id

theorem Filed.hasId_iff (hf : Filed sha3 db) {row : OutboxRow} (h : row ∈ db.outbox) :
    ∀ row' ∈ db.outbox, hasId row.id row' = true ↔ row' = row := by
  intro row' hrow'
  simp only [hasId, decide_eq_true_eq]
  constructor
  · intro hid
    exact hf.eq_of_id hrow' h hid
  · intro heq
    rw [heq]

theorem Filed.update_hasId (hf : Filed sha3 db) {row : OutboxRow} (h : row ∈ db.outbox)
    (set : OutboxRow → OutboxRow) :
    (db.updateOutbox (·.id = row.id) set).outbox
      = replaceRow (hasId row.id) (set row) db.outbox := by
  refine List.map_congr_left ?_
  intro row' hrow'
  by_cases hid : row'.id = row.id
  · rw [hf.eq_of_id hrow' h hid]
    simp [hasId]
  · simp [hasId, hid]

theorem Filed.update_openRow (hf : Filed sha3 db) {id : Int} (h : db.checkOpen id = .ok ())
    (set : OutboxRow → OutboxRow) :
    ∃ row ∈ db.outbox, row.id = id ∧ row.status.isOpen = true
      ∧ (db.updateOutbox (FlowDb.openRow id) set).outbox
        = replaceRow (hasId row.id) (set row) db.outbox := by
  simp only [FlowDb.checkOpen, bind_eq_ok, failIf_eq_ok, exists_unit, Bool.not_eq_false,
    List.any_eq_true, FlowDb.openRow, Bool.and_eq_true, decide_eq_true_eq] at h
  obtain ⟨-, row, hrow, hid, hopen⟩ := h
  refine ⟨row, hrow, hid, hopen, List.map_congr_left ?_⟩
  intro row' hrow'
  by_cases hid' : row'.id = row.id
  · rw [hf.eq_of_id hrow' hrow hid']
    simp [FlowDb.openRow, hasId, hid, hopen]
  · have hne : ¬ row'.id = id := hid ▸ hid'
    simp [FlowDb.openRow, hasId, hid', hne]

/-- What is reported of a row: that it was handed over, or that its delivery failed. -/
inductive Report
  | handed (id : Int)
  | failed (id : Int)
  deriving DecidableEq

def Report.id : Report → Int
  | .handed id | .failed id => id

/-- What a call reports. A call that fails reports nothing. -/
def reported : Call → Reply → List Report
  | .markOutboxSent _ id, .done (.ok _) => [.handed id]
  | .markOutboxRetry _ id _ _ _ _, .done (.ok _) => [.failed id]
  | _, _ => []

/-- **What a call does to the outbox**: nothing, or it adds a row with a new key, or it replaces one
    open row by one that is about the same. While that is open, it counts the reports. -/
inductive OutboxChange (sha3 : List UInt8 → List UInt8) (db : FlowDb) (call : Call) (reply : Reply)
    (db' : FlowDb) : Prop
  | kept (houtbox : db'.outbox = db.outbox) (hsilent : reported call reply = [])
  | queued (now : Int) (input msg : OutboxInput) (hcheck : db.checkOutbox input = .ok msg)
      (hnew : db.outbox.any (·.idemKey = msg.idemKey sha3) = false)
      (houtbox : db'.outbox = db.outbox ++ [db.newRow sha3 now msg])
      (hsilent : reported call reply = [])
  | marked (row new : OutboxRow) (hrow : row ∈ db.outbox) (hopen : row.status.isOpen = true)
      (hcontent : new.content = row.content)
      (houtbox : db'.outbox = replaceRow (hasId row.id) new db.outbox)
      (hreported : ∀ report ∈ reported call reply, report.id = row.id)
      (hattempts : new.status.isOpen = true → 0 ≤ row.attempts →
        new.attempts = row.attempts + (reported call reply).length)

theorem satAddI64_one {n : Int} {limit : UInt32} (h : ¬ satAddI64 n 1 ≥ max limit.toNat 1)
    (hn : 0 ≤ n) : satAddI64 n 1 = n + 1 := by
  have hlimit := limit.toNat_lt
  unfold satAddI64 i64Max i64Min at *
  omega

theorem outbox_effect (hf : Filed sha3 db) (h : Effect sha3 db call reply db') :
    OutboxChange sha3 db call reply db' := by
  cases h with
  | refused _ _ e hreply =>
    refine .kept rfl ?_
    rcases hreply with hreply | hreply
    · rw [hreply]
      cases call <;> rfl
    · rw [hreply]
      cases call <;> rfl
  | queued hcheck hnew => exact .queued _ _ _ hcheck hnew rfl rfl
  | @sent now id hcheck =>
    obtain ⟨row, hrow, hid, hopen, hout⟩ := hf.update_openRow hcheck (.handed now)
    refine .marked row (row.handed now) hrow hopen rfl hout ?_ fun _ _ => rfl
    simpa [reported, Report.id] using hid.symm
  | @acked now id hcheck =>
    obtain ⟨row, hrow, hid, hopen, hout⟩ := hf.update_openRow hcheck (.done now)
    exact .marked row (row.done now) hrow hopen rfl hout (List.forall_mem_nil _) fun h => nomatch h
  | @retried now id backoffMs _ _ _ _ _ row hcheck hless =>
    obtain ⟨hfound, hopen⟩ := checkRetry_ok hcheck
    obtain ⟨hrow, rfl⟩ := mem_of_outboxRow hfound
    refine .marked row (row.failed now backoffMs .pending _) hrow hopen rfl
      (hf.update_hasId hrow _) ?_ fun _ hn => satAddI64_one hless hn
    simp [reported, Report.id]
  | @deadLettered now id backoffMs _ _ _ _ _ row hcheck hlimit =>
    obtain ⟨hfound, hopen⟩ := checkRetry_ok hcheck
    obtain ⟨hrow, rfl⟩ := mem_of_outboxRow hfound
    refine .marked row (row.failed now backoffMs .deadLetter _) hrow hopen rfl
      (hf.update_hasId hrow _) ?_ fun h => nomatch h
    simp [reported, Report.id]
  | _ => exact .kept rfl rfl

/-- What holds of the id, the key and the message of every row holds after a change. -/
theorem Filed.change (hf : Filed sha3 db) (h : OutboxChange sha3 db call reply db') :
    Filed sha3 db' := by
  cases h with
  | kept houtbox hsilent =>
    obtain ⟨ids, keys, bound, made⟩ := hf
    rw [← houtbox] at ids keys bound made
    exact ⟨ids, keys, bound, made⟩
  | queued now input msg hcheck hnew houtbox hsilent =>
    have hkey : ∀ row ∈ db.outbox, row.idemKey ≠ msg.idemKey sha3 := by simpa using hnew
    refine ⟨?_, ?_, ?_, ?_⟩
    · rw [houtbox]
      refine nodup_map_snoc hf.ids ?_
      intro row hrow heq
      have hbound := hf.bound row hrow
      have hnext : row.id = db.outbox.length + 1 := heq
      omega
    · rw [houtbox]
      exact nodup_map_snoc hf.keys hkey
    · intro row hrow
      rw [houtbox, List.length_append, List.length_singleton]
      rw [houtbox] at hrow
      rcases List.mem_append.mp hrow with hold | hlast
      · have hbound := hf.bound row hold
        omega
      · rw [List.mem_singleton.mp hlast]
        simp [FlowDb.newRow]
    · intro row hrow
      rw [houtbox] at hrow
      rcases List.mem_append.mp hrow with hold | hlast
      · exact hf.made row hold
      · rw [List.mem_singleton.mp hlast]
        exact ⟨rfl, input, (checkOutbox_eq_ok.mp hcheck).1⟩
  | marked row new hrow hopen hcontent houtbox hreported hattempts =>
    have hkeep : ∀ {β : Type} (g : Int × String × OutboxInput → β),
        db'.outbox.map (fun r => g r.content) = db.outbox.map fun r => g r.content := by
      intro β g
      rw [houtbox]
      refine map_replaceRow ?_
      intro r hr hid
      rw [(hf.hasId_iff hrow r hr).mp hid, hcontent]
    have hold : ∀ r' ∈ db'.outbox, ∃ r ∈ db.outbox, r.content = r'.content := by
      intro r' hr'
      have hmem : r'.content ∈ db.outbox.map OutboxRow.content := by
        have hsame : db'.outbox.map OutboxRow.content = _ := hkeep id
        exact hsame ▸ List.mem_map_of_mem hr'
      exact List.mem_map.mp hmem
    refine ⟨?_, ?_, ?_, ?_⟩
    · have hids := hkeep Prod.fst
      simp only [OutboxRow.content] at hids
      rw [hids]
      exact hf.ids
    · have hkeys := hkeep (·.2.1)
      simp only [OutboxRow.content] at hkeys
      rw [hkeys]
      exact hf.keys
    · intro r' hr'
      obtain ⟨r, hr, heq⟩ := hold r' hr'
      simp only [OutboxRow.content, Prod.mk.injEq] at heq
      rw [houtbox, replaceRow, List.length_map, ← heq.1]
      exact hf.bound r hr
    · intro r' hr'
      obtain ⟨r, hr, heq⟩ := hold r' hr'
      simp only [OutboxRow.content, Prod.mk.injEq] at heq
      rw [← heq.2.1, ← heq.2.2]
      exact hf.made r hr

/-- **The outbox is in order** after every history. -/
theorem filed_reached (sha3 : List UInt8 → List UInt8) (calls : List Call) :
    Filed sha3 (reached sha3 calls) := by
  induction calls using reached_induction sha3 with
  | hempty =>
    exact ⟨List.nodup_nil, List.nodup_nil, List.forall_mem_nil _, List.forall_mem_nil _⟩
  | hstep calls call reply db' hserve heffect ih =>
    rw [reached_snoc hserve]
    exact ih.change (outbox_effect ih heffect)

/-! ## 2. Rows that are done with -/

theorem closed_change (hf : Filed sha3 db) (h : OutboxChange sha3 db call reply db')
    {row : OutboxRow} (hrow : row ∈ db.outbox) (hclosed : row.status.isOpen = false) :
    row ∈ db'.outbox := by
  cases h with
  | kept houtbox hsilent =>
    rw [houtbox]
    exact hrow
  | queued now input msg hcheck hnew houtbox hsilent =>
    rw [houtbox]
    exact List.mem_append_left _ hrow
  | marked old new hold hopen hcontent houtbox hreported hattempts =>
    rw [houtbox]
    refine mem_replaceRow_of_ne hrow ?_
    -- the row that is replaced is open
    rw [← Bool.not_eq_true, hf.hasId_iff hold row hrow]
    intro heq
    rw [heq, hopen] at hclosed
    cases hclosed

/-- **A closed row stays as it is**, whatever is called later. -/
theorem closed_for_good {calls : List Call} {row : OutboxRow}
    (hrow : row ∈ (reached sha3 calls).outbox) (hclosed : row.status.isOpen = false)
    (later : List Call) : (reached sha3 (calls ++ later)).outboxRow row.id = some row := by
  have hmem : row ∈ (reached sha3 (calls ++ later)).outbox := by
    induction later using List.reverseRecOn with
    | nil =>
      rw [List.append_nil]
      exact hrow
    | append_singleton later call ih =>
      have hf := filed_reached sha3 (calls ++ later)
      have heffect := serve_effect sha3 (reached sha3 (calls ++ later)) call
      have hkept := closed_change hf (outbox_effect hf heffect) ih hclosed
      unfold reached at hkept ⊢
      rw [← List.append_assoc, Server.after_snoc]
      exact hkept
  exact (filed_reached sha3 (calls ++ later)).outboxRow hmem

/-! ### Dead letters -/

def isDeliveryLetter (e hash : String) (letter : DeadLetter) : Bool :=
  letter.stage = "outbox_delivery" ∧ letter.escrowIdHex = e ∧ letter.payloadHashHex = some hash

def isGivenUp (sha3 : List UInt8 → List UInt8) (e hash : String) (row : OutboxRow) : Bool :=
  row.status = .deadLetter ∧ row.escrowIdHex = e ∧ sha3Hex sha3 (utf8 row.envelopeJson) = hash

/-- How many dead letters there are about deliveries of a payload of the escrow. -/
def FlowDb.deliveryLetters (db : FlowDb) (e hash : String) : Nat :=
  db.deadLetters.countP (isDeliveryLetter e hash)

/-- How many rows with a payload of the escrow were given up. -/
def FlowDb.givenUp (db : FlowDb) (sha3 : List UInt8 → List UInt8) (e hash : String) : Nat :=
  db.outbox.countP (isGivenUp sha3 e hash)

@[simp] theorem deliveryLetters_updateOutbox (which : OutboxRow → Bool)
    (set : OutboxRow → OutboxRow) (e hash : String) :
    (db.updateOutbox which set).deliveryLetters e hash = db.deliveryLetters e hash := rfl

@[simp] theorem deliveryLetters_addDeadLetter (letter : DeadLetter) (e hash : String) :
    (db.addDeadLetter letter).deliveryLetters e hash
      = db.deliveryLetters e hash + if isDeliveryLetter e hash letter then 1 else 0 := by
  unfold FlowDb.deliveryLetters FlowDb.addDeadLetter
  rw [List.countP_append, List.countP_singleton]

@[simp] theorem givenUp_addDeadLetter (letter : DeadLetter) (e hash : String) :
    (db.addDeadLetter letter).givenUp sha3 e hash = db.givenUp sha3 e hash := rfl

section
variable {row new : OutboxRow} (e hash : String)

theorem Filed.givenUp_replace (hf : Filed sha3 db) (hrow : row ∈ db.outbox)
    (hopen : row.status.isOpen = true)
    (houtbox : db'.outbox = replaceRow (hasId row.id) new db.outbox) :
    db'.givenUp sha3 e hash
      = db.givenUp sha3 e hash + if isGivenUp sha3 e hash new then 1 else 0 := by
  have hnot : isGivenUp sha3 e hash row = false := by
    have hne : row.status ≠ .deadLetter := by
      intro heq
      rw [heq] at hopen
      cases hopen
    simp [isGivenUp, hne]
  have hcount := countP_replaceRow (isGivenUp sha3 e hash) new (List.Nodup.of_map _ hf.ids) hrow
    (hf.hasId_iff hrow)
  rw [hnot] at hcount
  unfold FlowDb.givenUp
  rw [houtbox]
  simpa using hcount

/-- **One letter for one row**: what a call adds to the one count it adds to the other. -/
theorem letters_effect (hf : Filed sha3 db) (h : Effect sha3 db call reply db')
    (heq : db.deliveryLetters e hash = db.givenUp sha3 e hash) :
    db'.deliveryLetters e hash = db'.givenUp sha3 e hash := by
  cases h with
  | conflicting err hcheck hrow hother => simpa [isDeliveryLetter, FlowDb.conflict] using heq
  | @queued now input msg hcheck hnew =>
    have hsame : FlowDb.givenUp { db with outbox := db.outbox ++ [db.newRow sha3 now msg] }
        sha3 e hash = db.givenUp sha3 e hash := by
      rw [FlowDb.givenUp, List.countP_append]
      simp [FlowDb.givenUp, isGivenUp, FlowDb.newRow]
    rw [hsame]
    exact heq
  | @sent now id hcheck =>
    obtain ⟨row, hrow, -, hopen, hout⟩ := hf.update_openRow hcheck (.handed now)
    rw [hf.givenUp_replace e hash hrow hopen hout]
    simpa [isGivenUp, OutboxRow.handed] using heq
  | @acked now id hcheck =>
    obtain ⟨row, hrow, -, hopen, hout⟩ := hf.update_openRow hcheck (.done now)
    rw [hf.givenUp_replace e hash hrow hopen hout]
    simpa [isGivenUp, OutboxRow.done] using heq
  | retried hcheck hless =>
    obtain ⟨hfound, hopen⟩ := checkRetry_ok hcheck
    obtain ⟨hrow, rfl⟩ := mem_of_outboxRow hfound
    rw [hf.givenUp_replace e hash hrow hopen (hf.update_hasId hrow _)]
    simpa [isGivenUp, OutboxRow.failed] using heq
  | @deadLettered _ _ _ _ _ _ _ _ row hcheck hlimit =>
    obtain ⟨hfound, hopen⟩ := checkRetry_ok hcheck
    obtain ⟨hrow, rfl⟩ := mem_of_outboxRow hfound
    rw [deliveryLetters_addDeadLetter, givenUp_addDeadLetter,
      hf.givenUp_replace e hash hrow hopen (hf.update_hasId hrow _), deliveryLetters_updateOutbox,
      heq]
    -- the letter is about the escrow and the payload of the row
    simp [isDeliveryLetter, FlowDb.undeliverable, isGivenUp, OutboxRow.failed]
  | _ => exact heq

end

theorem letters_reached (sha3 : List UInt8 → List UInt8) (calls : List Call) (e hash : String) :
    (reached sha3 calls).deliveryLetters e hash = (reached sha3 calls).givenUp sha3 e hash := by
  induction calls using reached_induction sha3 with
  | hempty => rfl
  | hstep calls call reply db' hserve heffect ih =>
    rw [reached_snoc hserve]
    exact letters_effect e hash (filed_reached sha3 calls) heffect ih

/-! ## 3. Reports -/

/-- What was reported along a history. -/
def reports (sha3 : List UInt8 → List UInt8) (calls : List Call) : List Report :=
  (orchestrator sha3).collect
    (fun db call => reported call ((orchestrator sha3).serve db call).1) .empty calls

/-- Reports are about rows there are, and an open row has counted those about it. -/
structure Counted (db : FlowDb) (reports : List Report) : Prop where
  known : ∀ report ∈ reports, ∃ row ∈ db.outbox, row.id = report.id
  counts : ∀ row ∈ db.outbox, row.status.isOpen = true →
    row.attempts = reports.count (.handed row.id) + reports.count (.failed row.id)

theorem count_reports {reports : List Report} {id : Int} (h : ∀ report ∈ reports, report.id = id) :
    reports.count (.handed id) + reports.count (.failed id) = reports.length := by
  induction reports with
  | nil => rfl
  | cons report reports ih =>
    have ih := ih fun r hr => h r (List.mem_cons_of_mem _ hr)
    have hid := h report List.mem_cons_self
    rw [List.count_cons, List.count_cons, List.length_cons]
    cases report with
    | handed id' =>
      have hid : id' = id := hid
      simp [hid]
      omega
    | failed id' =>
      have hid : id' = id := hid
      simp [hid]
      omega

theorem count_reports_of_ne {reports : List Report} {id : Int}
    (h : ∀ report ∈ reports, report.id ≠ id) :
    reports.count (.handed id) = 0 ∧ reports.count (.failed id) = 0 := by
  constructor
  · rw [List.count_eq_zero]
    intro hmem
    exact h _ hmem rfl
  · rw [List.count_eq_zero]
    intro hmem
    exact h _ hmem rfl

theorem Counted.change {reports : List Report} (hc : Counted db reports) (hf : Filed sha3 db)
    (h : OutboxChange sha3 db call reply db') :
    Counted db' (reports ++ reported call reply) := by
  cases h with
  | kept houtbox hsilent =>
    obtain ⟨known, counts⟩ := hc
    rw [← houtbox] at known counts
    rw [hsilent, List.append_nil]
    exact ⟨known, counts⟩
  | queued now input msg hcheck hnew houtbox hsilent =>
    rw [hsilent, List.append_nil]
    refine ⟨?_, ?_⟩
    · intro report hreport
      obtain ⟨row, hrow, hid⟩ := hc.known report hreport
      rw [houtbox]
      exact ⟨row, List.mem_append_left _ hrow, hid⟩
    · intro row hrow hopen
      rw [houtbox] at hrow
      rcases List.mem_append.mp hrow with hold | hlast
      · exact hc.counts row hold hopen
      · -- nothing was reported of a row that was not there
        have hother : ∀ report ∈ reports, report.id ≠ (db.newRow sha3 now msg).id := by
          intro report hreport hid
          obtain ⟨old, hold, hold'⟩ := hc.known report hreport
          have hbound := hf.bound old hold
          have hnext : report.id = db.outbox.length + 1 := hid
          omega
        rw [List.mem_singleton.mp hlast, (count_reports_of_ne hother).1,
          (count_reports_of_ne hother).2]
        rfl
  | marked row new hrow hopen hcontent houtbox hreported hattempts =>
    have hid : new.id = row.id := congrArg Prod.fst hcontent
    have hnew : new ∈ db'.outbox := by
      rw [houtbox]
      refine List.mem_map.mpr ⟨row, hrow, ?_⟩
      simp [hasId]
    refine ⟨?_, ?_⟩
    · intro report hreport
      by_cases hrep : report.id = row.id
      · exact ⟨new, hnew, hid.trans hrep.symm⟩
      · have hold : report ∈ reports :=
          (List.mem_append.mp hreport).resolve_right fun h => hrep (hreported report h)
        obtain ⟨old, hmem, hold⟩ := hc.known report hold
        rw [houtbox]
        refine ⟨old, mem_replaceRow_of_ne hmem ?_, hold⟩
        simpa [hasId, hold] using hrep
    · intro r hr hropen
      rw [houtbox] at hr
      rw [List.count_append, List.count_append]
      rcases mem_replaceRow hr with heq | ⟨hold, hne⟩
      · have hcount := hc.counts row hrow hopen
        have hadded := count_reports hreported
        have hnewAttempts := hattempts (heq ▸ hropen) (by omega)
        rw [heq, hid]
        omega
      · have hother : ∀ report ∈ reported call reply, report.id ≠ r.id := by
          intro report hreport heq
          have hsame : r.id = row.id := heq ▸ hreported report hreport
          simp [hasId, hsame] at hne
        rw [(count_reports_of_ne hother).1, (count_reports_of_ne hother).2]
        simpa using hc.counts r hold hropen

theorem reports_snoc {calls : List Call} (h :
    (orchestrator sha3).serve (reached sha3 calls) call = (reply, db')) :
    reports sha3 (calls ++ [call]) = reports sha3 calls ++ reported call reply := by
  rw [reports, Server.collect_snoc]
  show _ ++ reported call ((orchestrator sha3).serve (reached sha3 calls) call).1 = _
  rw [h]
  rfl

theorem counted_reached (sha3 : List UInt8 → List UInt8) (calls : List Call) :
    Counted (reached sha3 calls) (reports sha3 calls) := by
  induction calls using reached_induction sha3 with
  | hempty => exact ⟨List.forall_mem_nil _, List.forall_mem_nil _⟩
  | hstep calls call reply db' hserve heffect ih =>
    have hf := filed_reached sha3 calls
    rw [reports_snoc hserve, reached_snoc hserve]
    exact ih.change hf (outbox_effect hf heffect)

/-! ## 4. Giving up -/

/-- The call gives the row with that id up. -/
def GivesUp (sha3 : List UInt8 → List UInt8) (calls : List Call) (call : Call) (id : Int) : Prop :=
  ((reached sha3 calls).outboxRow id).map (·.status) ≠ some .deadLetter
    ∧ ((reached sha3 (calls ++ [call])).outboxRow id).map (·.status) = some .deadLetter

section
variable {now id : Int} {backoffMs : Nat} {rawCode rawDetail code detail : String}
  {limit : UInt32} {row : OutboxRow}

/-- A row is given up by a failure that reaches the limit, and by nothing else. -/
theorem dead_effect (hf : Filed sha3 db) (h : Effect sha3 db call reply db')
    (hmem : row ∈ db'.outbox) (hdead : row.status = .deadLetter) (hnot : row ∉ db.outbox) :
    ∃ now backoffMs rawCode rawDetail limit code detail old,
      call = .markOutboxRetry now row.id backoffMs rawCode rawDetail limit
      ∧ db.checkRetry row.id rawCode rawDetail = .ok (old, code, detail)
      ∧ satAddI64 old.attempts 1 ≥ max limit.toNat 1 := by
  cases h with
  | @queued now input msg hcheck hnew =>
    have hnew : row = db.newRow sha3 now msg := by
      simpa using (List.mem_append.mp hmem).resolve_left hnot
    rw [hnew] at hdead
    cases hdead
  | @sent now id hcheck =>
    obtain ⟨old, -, -, -, hout⟩ := hf.update_openRow hcheck (.handed now)
    rw [hout] at hmem
    rw [(mem_replaceRow hmem).resolve_right fun h => hnot h.1] at hdead
    cases hdead
  | @acked now id hcheck =>
    obtain ⟨old, -, -, -, hout⟩ := hf.update_openRow hcheck (.done now)
    rw [hout] at hmem
    rw [(mem_replaceRow hmem).resolve_right fun h => hnot h.1] at hdead
    cases hdead
  | retried hcheck hless =>
    obtain ⟨hold, rfl⟩ := mem_of_outboxRow (checkRetry_ok hcheck).1
    rw [hf.update_hasId hold] at hmem
    rw [(mem_replaceRow hmem).resolve_right fun h => hnot h.1] at hdead
    cases hdead
  | @deadLettered now _ backoffMs rawCode rawDetail code detail limit old hcheck hlimit =>
    obtain ⟨hold, rfl⟩ := mem_of_outboxRow (checkRetry_ok hcheck).1
    have hmem : row ∈ (db.updateOutbox (·.id = old.id) _).outbox := hmem
    rw [hf.update_hasId hold] at hmem
    have hrow := (mem_replaceRow hmem).resolve_right fun h => hnot h.1
    have hid : row.id = old.id := by rw [hrow]; rfl
    rw [hid]
    exact ⟨now, backoffMs, rawCode, rawDetail, limit, code, detail, old, rfl, hcheck, hlimit⟩
  | _ => exact absurd hmem hnot

theorem markOutboxRetry_limit (hf : Filed sha3 db)
    (hcheck : db.checkRetry id rawCode rawDetail = .ok (row, code, detail))
    (hlimit : satAddI64 row.attempts 1 ≥ max limit.toNat 1) :
    ((db.markOutboxRetry sha3 now id backoffMs rawCode rawDetail limit).2.outboxRow id).map
      (·.status) = some .deadLetter := by
  obtain ⟨hrow, rfl⟩ := mem_of_outboxRow (checkRetry_ok hcheck).1
  have hserve : (db.markOutboxRetry sha3 now row.id backoffMs rawCode rawDetail limit).2.outbox
      = replaceRow (hasId row.id) (row.failed now backoffMs .deadLetter (satAddI64 row.attempts 1))
        db.outbox := by
    simp only [FlowDb.markOutboxRetry, FlowDb.write, hcheck, if_pos hlimit]
    exact hf.update_hasId hrow _
  unfold FlowDb.outboxRow
  rw [hserve, find?_eq_some_of_unique
    (r := row.failed now backoffMs .deadLetter (satAddI64 row.attempts 1))]
  · rfl
  · refine List.mem_map.mpr ⟨row, hrow, ?_⟩
    simp [hasId]
  · simp [OutboxRow.failed]
  · intro r hr hid
    rcases mem_replaceRow hr with heq | ⟨-, hne⟩
    · exact heq
    · rw [decide_eq_true_eq] at hid
      simp [hasId, hid] at hne

end

section
variable {calls : List Call} {id : Int}

theorem GivesUp.retry (h : GivesUp sha3 calls call id) :
    ∃ now backoffMs rawCode rawDetail limit code detail row,
      call = .markOutboxRetry now id backoffMs rawCode rawDetail limit
      ∧ (reached sha3 calls).checkRetry id rawCode rawDetail = .ok (row, code, detail)
      ∧ satAddI64 row.attempts 1 ≥ max limit.toNat 1 := by
  obtain ⟨hbefore, hafter⟩ := h
  have hf := filed_reached sha3 calls
  have heffect := serve_effect sha3 (reached sha3 calls) call
  have hreached : reached sha3 (calls ++ [call])
      = ((orchestrator sha3).serve (reached sha3 calls) call).2 := by
    unfold reached
    rw [Server.after_snoc]
  rw [hreached] at hafter
  obtain ⟨row, hrow, hdead⟩ := Option.map_eq_some_iff.mp hafter
  obtain ⟨hmem, rfl⟩ := mem_of_outboxRow hrow
  refine dead_effect hf heffect hmem hdead ?_
  intro hold
  rw [hf.outboxRow hold, Option.map_some, hdead] at hbefore
  exact hbefore rfl

theorem attempts_of_checkRetry {rawCode rawDetail code detail : String} {row : OutboxRow}
    (h : (reached sha3 calls).checkRetry id rawCode rawDetail = .ok (row, code, detail)) :
    row.attempts = (reports sha3 calls).count (.handed id)
      + (reports sha3 calls).count (.failed id) := by
  obtain ⟨hfound, hopen⟩ := checkRetry_ok h
  obtain ⟨hrow, rfl⟩ := mem_of_outboxRow hfound
  exact (counted_reached sha3 calls).counts row hrow hopen

/-- The limit is reached when the reports, with the one that comes in, are as many. -/
theorem limit_reached_iff {m n : Nat} {limit : UInt32} :
    satAddI64 ((m : Int) + n) 1 ≥ max limit.toNat 1 ↔ limit.toNat ≤ m + n + 1 := by
  have hlimit := limit.toNat_lt
  unfold satAddI64 i64Max i64Min
  omega

section
variable {now : Int} {backoffMs : Nat} {code detail : String} {limit : UInt32}

/-- **When a row is given up**: by a report that passes its checks, once the reports are as many as
    the limit says. -/
theorem givesUp_retry_iff :
    GivesUp sha3 calls (.markOutboxRetry now id backoffMs code detail limit) id ↔
      ∃ found, (reached sha3 calls).checkRetry id code detail = .ok found
        ∧ limit.toNat ≤ (reports sha3 calls).count (.handed id)
          + (reports sha3 calls).count (.failed id) + 1 := by
  constructor
  · intro h
    obtain ⟨_, _, _, _, _, code', detail', row, hcall, hcheck, hlimit⟩ := h.retry
    cases hcall
    rw [attempts_of_checkRetry hcheck, limit_reached_iff] at hlimit
    exact ⟨_, hcheck, hlimit⟩
  · intro h
    obtain ⟨⟨row, code', detail'⟩, hcheck, hlimit⟩ := h
    rw [← limit_reached_iff, ← attempts_of_checkRetry hcheck] at hlimit
    constructor
    · obtain ⟨hfound, hopen⟩ := checkRetry_ok hcheck
      rw [hfound, Option.map_some]
      intro heq
      rw [Option.some.injEq] at heq
      rw [heq] at hopen
      cases hopen
    · unfold reached
      rw [Server.after_snoc]
      exact markOutboxRetry_limit (filed_reached sha3 calls) hcheck hlimit

theorem count_failed_retry {found : OutboxRow × String × String}
    (hcheck : (reached sha3 calls).checkRetry id code detail = .ok found) :
    (reports sha3 (calls ++ [.markOutboxRetry now id backoffMs code detail limit])).count
        (.failed id)
      = (reports sha3 calls).count (.failed id) + 1 := by
  have hreply : ((orchestrator sha3).serve (reached sha3 calls)
      (.markOutboxRetry now id backoffMs code detail limit)).1 = .done (.ok ()) := by
    show Reply.done ((reached sha3 calls).markOutboxRetry sha3 now id backoffMs code detail
      limit).1 = _
    simp only [FlowDb.markOutboxRetry, FlowDb.write, hcheck]
  rw [reports_snoc (Prod.ext hreply rfl), List.count_append]
  simp [reported]

end

/-- **Outbox lifecycle.** Rows that are acknowledged or given up never change; for every row given
    up there is one dead letter; only a reported failure gives a row up. That happens after as many
    failures as the limit says **exactly if the hand-overs that were reported do not make up for the
    failures that are missing.** -/
theorem outbox_lifecycle (sha3 : List UInt8 → List UInt8) (calls : List Call) :
    (∀ row ∈ (reached sha3 calls).outbox, row.status = .acked ∨ row.status = .deadLetter →
      ∀ later, (reached sha3 (calls ++ later)).outboxRow row.id = some row)
    ∧ (∀ e hash, (reached sha3 calls).deliveryLetters e hash
        = (reached sha3 calls).givenUp sha3 e hash)
    ∧ (∀ call id, GivesUp sha3 calls call id → ∃ now backoffMs code detail limit,
        call = .markOutboxRetry now id backoffMs code detail limit)
    ∧ ∀ now id backoffMs code detail limit,
        (GivesUp sha3 calls (.markOutboxRetry now id backoffMs code detail limit) id →
          limit.toNat ≤ (reports sha3
            (calls ++ [.markOutboxRetry now id backoffMs code detail limit])).count (.failed id))
        ↔ ∀ found, (reached sha3 calls).checkRetry id code detail = .ok found →
          (reports sha3 calls).count (.failed id) + 1 < limit.toNat →
          (reports sha3 calls).count (.handed id) + (reports sha3 calls).count (.failed id) + 1
            < limit.toNat := by
  refine ⟨?_, letters_reached sha3 calls, ?_, ?_⟩
  · intro row hrow hclosed
    refine closed_for_good hrow ?_
    rcases hclosed with hclosed | hclosed
    · rw [hclosed]
      rfl
    · rw [hclosed]
      rfl
  · intro call id h
    obtain ⟨now, backoffMs, code, detail, limit, -, -, -, hcall, -, -⟩ := h.retry
    exact ⟨now, backoffMs, code, detail, limit, hcall⟩
  · intro now id backoffMs code detail limit
    rw [givesUp_retry_iff]
    constructor
    · intro h found hcheck hfew
      by_contra hmany
      -- the limit is reached, so the row is given up, too early
      have hfailed := h ⟨found, hcheck, by omega⟩
      rw [count_failed_retry hcheck] at hfailed
      omega
    · intro h hgives
      obtain ⟨found, hcheck, hlimit⟩ := hgives
      rw [count_failed_retry hcheck]
      by_contra hfew
      have hless := h found hcheck (by omega)
      omega

end

/-! ### Two deliveries, one failure -/

def sampleEscrow : String := "00112233445566778899aabbccddeeff"

/-- A message of a workflow that has just been opened. -/
def sampleMessage : OutboxInput :=
  { escrowIdHex := sampleEscrow, state := .new, toId := "seller", msgType := "prepare_info"
    envelopeJson := "\x7b\"m\":\"hello\"\x7d" }

/-- The digests of its payload and of its key. -/
def sampleSha3 : List UInt8 → List UInt8 :=
  printedHash [
    ("\x7b\"m\":\"hello\"\x7d", "285ad89361d03a12e2e66eb2625f6c7ebba40ed2ad09faaa7972829ac335d1fc"),
    ("00112233445566778899aabbccddeeff:new:seller:prepare_info:"
      ++ "285ad89361d03a12e2e66eb2625f6c7ebba40ed2ad09faaa7972829ac335d1fc",
      "bc9402949a5feb1041579c55c4bde34d04ad19c763ab576568208a3fb4c09171")]

/-- The workflow is opened and the message is put into the outbox. -/
def sampleQueued : List Call :=
  [.createWorkflow sampleEscrow (digit64 'a') ["buyer", "seller", "arbiter"],
    .enqueueOutbox 1000 sampleMessage]

def sampleRetry (limit : UInt32) : Call :=
  .markOutboxRetry 2000 1 500 "mailbox_timeout" "timeout while delivering" limit

/-- **Given up after one failure** where two were asked for: the message was handed over, then the
    delivery failed, and both reports were counted. -/
theorem given_up_early :
    ((reached sampleSha3 (sampleQueued ++ [.markOutboxSent 1500 1])).outboxRow 1).map (·.status)
        = some .sent
    ∧ ((reached sampleSha3
        (sampleQueued ++ [.markOutboxSent 1500 1, sampleRetry 2])).outboxRow 1).map (·.status)
          = some .deadLetter
    ∧ reports sampleSha3 (sampleQueued ++ [.markOutboxSent 1500 1, sampleRetry 2])
        = [.handed 1, .failed 1] := by
  decide +kernel

/-! ## 5. Enqueueing -/

/-- The same escrow, state and payload, and the same text when the recipient and the type are
    written one after the other. -/
def Collides (a b : OutboxInput) : Prop :=
  a.escrowIdHex = b.escrowIdHex ∧ a.state = b.state ∧ a.envelopeJson = b.envelopeJson
    ∧ a.toId ++ ":" ++ a.msgType = b.toId ++ ":" ++ b.msgType

instance (a b : OutboxInput) : Decidable (Collides a b) :=
  inferInstanceAs (Decidable (_ ∧ _ ∧ _ ∧ _))

theorem not_mem_of_hexdigits {cs : List Char} (h : ∀ c ∈ cs, isAsciiHexdigit c = true) :
    ':' ∉ cs := by
  intro hmem
  have hcolon := h ':' hmem
  revert hcolon
  decide

theorem colon_notMem_escrow {input msg : OutboxInput} (h : input.normalize = .ok msg) :
    ':' ∉ msg.escrowIdHex.toList := by
  simp only [OutboxInput.normalize, bind_eq_ok, pure_eq_ok] at h
  obtain ⟨e, he, _, -, _, -, rfl⟩ := h
  exact not_mem_of_hexdigits (digits_of_normalizeHex he)

theorem colon_notMem_sha3Hex (bytes : List UInt8) : ':' ∉ (sha3Hex sha3 bytes).toList :=
  not_mem_of_hexdigits fun _ => hexdigit_of_mem_hexEncode

theorem colon_notMem_asStr (state : WorkflowState) : ':' ∉ state.asStr.toList := by
  cases state <;> decide

theorem asStr_injective : Function.Injective WorkflowState.asStr := by
  intro s t h
  have hall : ∀ s ∈ .failedDeadLetter :: frozenPath, ∀ t ∈ .failedDeadLetter :: frozenPath,
      s.asStr = t.asStr → s = t := by
    decide +kernel
  exact hall s (mem_states s) t (mem_states t) h

/-- **What shares a key**: the separator between recipient and type is the only one that can be
    moved. -/
theorem idemKey_eq_iff (hsha : Function.Injective sha3) {a b : OutboxInput}
    (ha : ∃ input, OutboxInput.normalize input = .ok a)
    (hb : ∃ input, OutboxInput.normalize input = .ok b) :
    a.idemKey sha3 = b.idemKey sha3 ↔ Collides a b := by
  obtain ⟨_, ha⟩ := ha
  obtain ⟨_, hb⟩ := hb
  unfold OutboxInput.idemKey outboxIdemKey
  have hdigest : Function.Injective (sha3Hex sha3) := hexEncode_injective.comp hsha
  rw [hdigest.eq_iff, utf8_injective.eq_iff, ← String.toList_inj]
  have htext : ∀ e state toId type hash : String, (s!"{e}:{state}:{toId}:{type}:{hash}").toList
      = e.toList ++ ':' :: (state.toList ++ ':' ::
        ((toId ++ ":" ++ type).toList ++ ':' :: hash.toList)) := by
    intro e state toId type hash
    simp [toString]
  rw [htext, htext, append_sep_inj (colon_notMem_escrow ha) (colon_notMem_escrow hb),
    append_sep_inj (colon_notMem_asStr _) (colon_notMem_asStr _),
    sep_append_inj (colon_notMem_sha3Hex _) (colon_notMem_sha3Hex _), String.toList_inj,
    String.toList_inj, String.toList_inj, String.toList_inj, asStr_injective.eq_iff,
    hdigest.eq_iff, utf8_injective.eq_iff]
  unfold Collides
  constructor
  · intro h
    exact ⟨h.1, h.2.1, h.2.2.2, h.2.2.1⟩
  · intro h
    exact ⟨h.1, h.2.1, h.2.2.2, h.2.2.1⟩

/-- The message is in the outbox, and it is or will be delivered. -/
def Holds (db : FlowDb) (msg : OutboxInput) : Prop :=
  ∃ row ∈ db.outbox, row.message = msg ∧ row.status ≠ .deadLetter

theorem enqueueOutbox_ok {now : Int} {input msg : OutboxInput}
    (hcheck : db.checkOutbox input = .ok msg) :
    db.enqueueOutbox sha3 now input
      = (.ok (), if db.outbox.any (·.idemKey = msg.idemKey sha3) then db
          else { db with outbox := db.outbox ++ [db.newRow sha3 now msg] }) := by
  simp only [FlowDb.enqueueOutbox, FlowDb.write, hcheck]

/-- After a message was answered with success, it is in the outbox exactly if no row that shares
    its key stands for another message or was given up. -/
theorem Filed.enqueue_holds_iff (hsha : Function.Injective sha3) (hf : Filed sha3 db) (now : Int)
    {input msg : OutboxInput} (hcheck : db.checkOutbox input = .ok msg) :
    Holds (db.enqueueOutbox sha3 now input).2 msg ↔
      ∀ row ∈ db.outbox, Collides row.message msg →
        row.message = msg ∧ row.status ≠ .deadLetter := by
  have hnorm : ∃ input, OutboxInput.normalize input = .ok msg :=
    ⟨input, (checkOutbox_eq_ok.mp hcheck).1⟩
  have hkey : ∀ row ∈ db.outbox, row.idemKey = msg.idemKey sha3 ↔ Collides row.message msg := by
    intro row hrow
    obtain ⟨hmade, hrownorm⟩ := hf.made row hrow
    rw [hmade]
    exact idemKey_eq_iff hsha hrownorm hnorm
  rw [enqueueOutbox_ok hcheck]
  by_cases htaken : db.outbox.any (·.idemKey = msg.idemKey sha3) = true
  · -- the row under the key is the only one the message can be
    rw [if_pos htaken]
    obtain ⟨row, hrow, hrowkey⟩ := List.any_eq_true.mp htaken
    rw [decide_eq_true_eq] at hrowkey
    constructor
    · intro h row' hrow' hcollides
      obtain ⟨held, hheld, hmsg, hstatus⟩ := h
      have hheldkey : held.idemKey = msg.idemKey sha3 := by
        rw [(hf.made held hheld).1, hmsg]
      have heq : row' = held :=
        hf.eq_of_key hrow' hheld (((hkey row' hrow').mpr hcollides).trans hheldkey.symm)
      rw [heq]
      exact ⟨hmsg, hstatus⟩
    · intro h
      exact ⟨row, hrow, h row hrow ((hkey row hrow).mp hrowkey)⟩
  · rw [if_neg htaken]
    constructor
    · intro _ row hrow hcollides
      refine absurd (List.any_eq_true.mpr ⟨row, hrow, ?_⟩) htaken
      rw [decide_eq_true_eq]
      exact (hkey row hrow).mpr hcollides
    · intro _
      exact ⟨_, List.mem_append_right _ List.mem_cons_self, rfl, OutboxStatus.noConfusion⟩

/-- **When enqueueing is faithful.** A success means that the message, as it was normalised, is in
    the outbox and not given up, exactly if no row that shares its key stands for another message
    or was given up before. -/
theorem enqueue_faithful_iff (sha3 : List UInt8 → List UInt8) (hsha : Function.Injective sha3)
    (calls : List Call) (now : Int) (input : OutboxInput) :
    (((reached sha3 calls).enqueueOutbox sha3 now input).1 = .ok () →
      ∃ msg, input.normalize = .ok msg
        ∧ Holds ((reached sha3 calls).enqueueOutbox sha3 now input).2 msg)
    ↔ ∀ msg, (reached sha3 calls).checkOutbox input = .ok msg →
        ∀ row ∈ (reached sha3 calls).outbox, Collides row.message msg →
          row.message = msg ∧ row.status ≠ .deadLetter := by
  have hf := filed_reached sha3 calls
  constructor
  · intro h msg hcheck
    have hok : ((reached sha3 calls).enqueueOutbox sha3 now input).1 = .ok () := by
      rw [enqueueOutbox_ok hcheck]
    obtain ⟨msg', hnorm, hholds⟩ := h hok
    rw [(checkOutbox_eq_ok.mp hcheck).1, Except.ok.injEq] at hnorm
    rw [← hnorm] at hholds
    exact (hf.enqueue_holds_iff hsha now hcheck).mp hholds
  · intro h hok
    cases hcheck : (reached sha3 calls).checkOutbox input with
    | ok msg =>
      exact ⟨msg, (checkOutbox_eq_ok.mp hcheck).1,
        (hf.enqueue_holds_iff hsha now hcheck).mpr (h msg hcheck)⟩
    | error e =>
      simp only [FlowDb.enqueueOutbox, FlowDb.write, hcheck] at hok
      cases hok

theorem sampleSha3_injective : Function.Injective sampleSha3 :=
  tableHash_injective (by decide +kernel) (by decide +kernel)

theorem enqueue_faithful_iff_sample :
    ∃ msg, sampleMessage.normalize = .ok msg
      ∧ Holds ((reached sampleSha3 sampleQueued).enqueueOutbox sampleSha3 3000 sampleMessage).2
        msg := by
  refine (enqueue_faithful_iff sampleSha3 sampleSha3_injective sampleQueued 3000 sampleMessage).mpr
    ?_ (by decide +kernel)
  intro msg hcheck row hrow hcollides
  have hsame : (reached sampleSha3 sampleQueued).checkOutbox sampleMessage = .ok sampleMessage := by
    decide +kernel
  rw [hsame, Except.ok.injEq] at hcheck
  have hall : ∀ row ∈ (reached sampleSha3 sampleQueued).outbox,
      row.message = sampleMessage ∧ row.status ≠ .deadLetter := by
    decide +kernel
  rw [← hcheck]
  exact hall row hrow

/-- **A message that was given up cannot be sent again**: enqueueing it is answered with success,
    and the only row of the outbox is the one that was given up. -/
theorem enqueue_after_giving_up :
    ((reached sampleSha3 (sampleQueued ++ [sampleRetry 1])).enqueueOutbox sampleSha3 3000
        sampleMessage).1 = .ok ()
    ∧ ((reached sampleSha3 (sampleQueued ++ [sampleRetry 1])).enqueueOutbox sampleSha3 3000
        sampleMessage).2.outbox.map (fun row => (row.message, row.status))
      = [(sampleMessage, .deadLetter)] := by
  decide +kernel

end Nexum.Orchestrator
