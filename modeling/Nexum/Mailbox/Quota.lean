import Nexum.Mailbox.Delivery
import Mathlib.Algebra.Order.BigOperators.Group.List

/-!
# What the table identifies, and what it counts

Two promises of a push that hold or fall with how a value gets into the table.

A message is **identified** by its sender, its recipient, its escrow and its sequence number, a
`u64`; the column is an `i64` and the number is clamped on its way there. All numbers from
`i64::MAX` on are one number to the unique index, and the second of two such messages is taken for
the first.

The byte quota of an inbox is **counted** in two units: the new text in bytes, the stored ones with
SQL's `LENGTH`, which counts characters. The two agree on ASCII, and base64 and identifiers are
ASCII; but a push checks only the length of the base64 fields, so anything may stand there.

Neither needs a clock: both are about every history at all, and `stored_induction` is the rule they
are proved with.
-/

namespace Nexum.Mailbox

open Nexum.Lib Nexum.Transport

/-! ## 1. Every history -/

/-- **Along any history.** Rows go, get leases, and come one at a time. -/
theorem stored_induction {P : Db → Prop} (calls : List Call) (hempty : P .empty)
    (hfewer : ∀ db rows, rows.Sublist db.rows → P db → P { db with rows := rows })
    (hleased : ∀ db (f : Row → Row), (∀ row, (f row).content = row.content) → P db →
      P { db with rows := db.rows.map f })
    (hstored : ∀ db now env ttlSecs limits db', .push now env ttlSecs limits ∈ calls →
      P (db.prune now) → Pushed now env ttlSecs limits db (.ok ⟨false, none⟩) db' → P db') :
    P (stored calls) := by
  induction calls using List.reverseRecOn with
  | nil => exact hempty
  | append_singleton calls call ih =>
    have hpast : P (stored calls) := ih fun db now env ttlSecs limits db' hmem =>
      hstored db now env ttlSecs limits db' (List.mem_append_left _ hmem)
    have hprune : ∀ now, P ((stored calls).prune now) := fun now =>
      hfewer _ _ (prune_sublist _ now) hpast
    rw [stored_snoc]
    cases call with
    | push now env ttlSecs limits =>
      have hspec := pushSync_spec now env ttlSecs limits (stored calls)
      rw [serve_push]
      generalize pushSync now env ttlSecs limits (stored calls) = out at hspec ⊢
      obtain ⟨result, db⟩ := out
      simp only at hspec ⊢
      cases hspec with
      | failed e => exact hpast
      | dedup hlength hrow hkey => exact hprune now
      | refused reason => exact hprune now
      | stored hfree hlength hglobal hsum hinbox hbytes =>
        exact hstored (stored calls) now env ttlSecs limits _
          (List.mem_append_right _ (List.mem_singleton.mpr rfl)) (hprune now)
          (.stored hfree hlength hglobal hsum hinbox hbytes)
    | pull now inbox max leaseSecs draw =>
      rw [serve_pull_rows]
      exact hleased _ _ (content_leased _ _) (hprune now)
    | ack now receipt inbox => exact hfewer _ _ List.filter_sublist hpast
    | cleanup now => exact hprune now

theorem key_of_content {row row' : Row} (h : row.content = row'.content) : row.key = row'.key := by
  have hkey := congrArg Row.key h
  exact hkey

theorem envelope_of_content {row row' : Row} (h : row.content = row'.content) :
    row.envelope = row'.envelope := by
  have henvelope := congrArg Row.envelope h
  exact henvelope

theorem toId_of_content {row row' : Row} (h : row.content = row'.content) :
    row.toId = row'.toId := by
  have htoId := congrArg Row.toId h
  exact htoId

/-! ## 2. What identifies a message -/

/-- The index column of every row is the key of its envelope, and no two rows share one. -/
structure Keyed (db : Db) : Prop where
  key : ∀ row ∈ db.rows, row.key = envelopeKey row.envelope
  nodup : (db.rows.map Row.key).Nodup

theorem keyed_stored (calls : List Call) : Keyed (stored calls) := by
  apply stored_induction calls
  · exact ⟨List.forall_mem_nil _, List.nodup_nil⟩
  · intro db rows hrows h
    exact ⟨fun row hrow => h.key row (hrows.subset hrow), h.nodup.sublist (hrows.map _)⟩
  · intro db f hf h
    constructor
    · intro r hr
      obtain ⟨row, hrow, rfl⟩ := List.mem_map.mp hr
      rw [key_of_content (hf row), envelope_of_content (hf row)]
      exact h.key row hrow
    · have hsame : Row.key ∘ f = Row.key := funext fun row => key_of_content (hf row)
      rw [List.map_map, hsame]
      exact h.nodup
  · intro db now env ttlSecs limits db' hmem h hpushed
    cases hpushed with
    | stored hfree hlength hglobal hsum hinbox hbytes =>
      constructor
      · intro row hrow
        rcases List.mem_append.mp hrow with hrow | hrow
        · exact h.key row hrow
        · obtain rfl := List.mem_singleton.mp hrow
          rfl
      · rw [List.map_append, List.map_singleton, List.nodup_append]
        refine ⟨h.nodup, List.nodup_singleton _, ?_⟩
        intro key hkey key' hkey' heq
        obtain ⟨row, hrow, rfl⟩ := List.mem_map.mp hkey
        obtain rfl := List.mem_singleton.mp hkey'
        exact hfree row hrow heq

/-- The same sender, recipient, escrow and sequence number. -/
def SameMessage (a b : NxmsEnvelope) : Prop :=
  a.to_ = b.to_ ∧ a.from_ = b.from_ ∧ a.escrowIdHex = b.escrowIdHex ∧ a.seq = b.seq

/-- What the answer of a push says is so. -/
def PushKept (now : Int) (env : NxmsEnvelope) (ttlSecs : Nat) (limits : MailboxLimits) (db : Db) :
    Prop :=
  let out := pushSync now env ttlSecs limits db
  (out.1 = .ok ⟨true, none⟩ → ∃ row ∈ out.2.rows, SameMessage row.envelope env) ∧
    (out.1 = .ok ⟨false, none⟩ → ∃ row ∈ out.2.rows, row.envelope = env)

/-- Another message of that sender and escrow waits there, and both numbers are out of the range
    of the column. -/
def Clashes (now : Int) (env : NxmsEnvelope) (db : Db) : Prop :=
  (envelopeBytes env : Int) ≤ i64Max ∧
    ∃ row ∈ db.rows, now < row.expiresAtMs ∧ row.envelope.to_ = env.to_ ∧
      row.envelope.from_ = env.from_ ∧ row.envelope.escrowIdHex = env.escrowIdHex ∧
      i64Max ≤ row.envelope.seq ∧ i64Max ≤ env.seq ∧ row.envelope.seq ≠ env.seq

theorem envelopeKey_eq_iff {a b : NxmsEnvelope} :
    envelopeKey a = envelopeKey b ↔
      a.to_ = b.to_ ∧ a.from_ = b.from_ ∧ a.escrowIdHex = b.escrowIdHex ∧
        (a.seq = b.seq ∨ i64Max ≤ a.seq ∧ i64Max ≤ b.seq) := by
  simp only [envelopeKey, MessageKey.mk.injEq, clampI64_eq_iff]

theorem pushSync_dedup {now : Int} {env : NxmsEnvelope} (ttlSecs : Nat) (limits : MailboxLimits)
    {db : Db} {row : Row} (hlength : (envelopeBytes env : Int) ≤ i64Max)
    (hrow : row ∈ (db.prune now).rows) (hkey : row.key = envelopeKey env) :
    pushSync now env ttlSecs limits db = (.ok ⟨true, none⟩, db.prune now) := by
  have hany : (db.prune now).rows.any (·.key = envelopeKey env) = true :=
    List.any_eq_true.mpr ⟨row, hrow, by simpa using hkey⟩
  simp only [pushSync, Int.not_lt.mpr hlength, hany, if_true, if_false]

theorem not_same_of_clashes {calls : List Call} {now : Int} {env : NxmsEnvelope} (ttlSecs : Nat)
    (limits : MailboxLimits) (hclash : Clashes now env (stored calls)) :
    pushSync now env ttlSecs limits (stored calls) = (.ok ⟨true, none⟩, (stored calls).prune now) ∧
      ∀ row ∈ ((stored calls).prune now).rows, ¬ SameMessage row.envelope env := by
  have hkeyed := keyed_stored calls
  obtain ⟨hlength, row, hrow, hlive, hto, hfrom, hescrow, hrowBig, henvBig, hne⟩ := hclash
  have hprune : row ∈ ((stored calls).prune now).rows :=
    List.mem_filter.mpr ⟨hrow, by simpa using hlive⟩
  have hkey : row.key = envelopeKey env := by
    rw [hkeyed.key row hrow, envelopeKey_eq_iff]
    exact ⟨hto, hfrom, hescrow, .inr ⟨hrowBig, henvBig⟩⟩
  refine ⟨pushSync_dedup ttlSecs limits hlength hprune hkey, ?_⟩
  intro found hfound hsame
  obtain ⟨hto', hfrom', hescrow', hseq'⟩ := hsame
  -- the index holds one row under this key, so the message that was found is the other one
  have hmem : found ∈ (stored calls).rows := (prune_sublist _ now).subset hfound
  have hkey' : found.key = envelopeKey env := by
    rw [hkeyed.key found hmem, envelopeKey_eq_iff]
    exact ⟨hto', hfrom', hescrow', .inl hseq'⟩
  have hrow' : found = row :=
    List.inj_on_of_nodup_map hkeyed.nodup hmem hrow (hkey'.trans hkey.symm)
  rw [hrow'] at hseq'
  exact hne hseq'

theorem pushKept_of_not_clashes {calls : List Call} {now : Int} {env : NxmsEnvelope}
    (ttlSecs : Nat) (limits : MailboxLimits) (hclash : ¬ Clashes now env (stored calls)) :
    PushKept now env ttlSecs limits (stored calls) := by
  have hkeyed := keyed_stored calls
  unfold PushKept
  have hspec := pushSync_spec now env ttlSecs limits (stored calls)
  generalize pushSync now env ttlSecs limits (stored calls) = out at hspec ⊢
  obtain ⟨result, db⟩ := out
  simp only at hspec ⊢
  cases hspec with
  | failed e => exact ⟨nofun, nofun⟩
  | refused reason => exact ⟨nofun, nofun⟩
  | stored hfree hlength hglobal hsum hinbox hbytes =>
    refine ⟨nofun, fun _ => ?_⟩
    exact ⟨_, List.mem_append_right _ (List.mem_singleton.mpr rfl), rfl⟩
  | @dedup row hlength hrow hkey =>
    refine ⟨fun _ => ⟨row, hrow, ?_⟩, nofun⟩
    have hmem : row ∈ (stored calls).rows := (prune_sublist _ now).subset hrow
    rw [hkeyed.key row hmem, envelopeKey_eq_iff] at hkey
    obtain ⟨hto, hfrom, hescrow, hseq⟩ := hkey
    refine ⟨hto, hfrom, hescrow, ?_⟩
    by_contra hne
    rcases hseq with hseq | ⟨hrowBig, henvBig⟩
    · exact hne hseq
    · have hlive : now < row.expiresAtMs := by simpa using (List.mem_filter.mp hrow).2
      exact hclash ⟨hlength, row, hmem, hlive, hto, hfrom, hescrow, hrowBig, henvBig, hne⟩

/-- **What a push answers is so, but for a clash beyond the range of the column.** -/
theorem push_kept_iff (calls : List Call) (now : Int) (env : NxmsEnvelope) (ttlSecs : Nat)
    (limits : MailboxLimits) :
    PushKept now env ttlSecs limits (stored calls) ↔ ¬ Clashes now env (stored calls) := by
  constructor
  · intro hkept hclash
    obtain ⟨hanswer, hnone⟩ := not_same_of_clashes ttlSecs limits hclash
    unfold PushKept at hkept
    rw [hanswer] at hkept
    obtain ⟨row, hrow, hsame⟩ := hkept.1 rfl
    exact hnone row hrow hsame
  · exact pushKept_of_not_clashes ttlSecs limits

theorem second_swallowed :
    let first := sampleEnvelope "bob" (2 ^ 63)
    let second := sampleEnvelope "bob" (2 ^ 63 + 1)
    let db := stored [.push 0 first 3600 ⟨10, 10000, 100⟩]
    first.validateBasic = .ok () ∧ second.validateBasic = .ok () ∧
      (pushSync 1 second 3600 ⟨10, 10000, 100⟩ db).1 = .ok ⟨true, none⟩ ∧
      ∀ row ∈ (pushSync 1 second 3600 ⟨10, 10000, 100⟩ db).2.rows,
        row.envelope.seq ≠ second.seq := by
  decide +kernel

/-! ## 3. What the stored text weighs -/

/-- The bytes that are stored for an inbox. -/
def Db.inboxSize (db : Db) (inbox : String) : Nat :=
  ((db.rows.filter (·.toId = inbox)).map fun row => envelopeBytes row.envelope).sum

/-- Every text of the envelope is ASCII. -/
def isAsciiEnvelope (env : NxmsEnvelope) : Bool :=
  [env.proto, env.kemId, env.sigId, env.escrowIdHex, env.from_, env.to_, env.kemCtB64,
    env.nonceB64, env.ciphertextB64, env.tagB64, env.sigB64].all isAscii

/-- Characters that SQL's `LENGTH` counts as one byte each. -/
def Plain (s : String) : Prop := ∀ c ∈ s.toList, 0 < c.toNat ∧ c.toNat < 128

theorem Plain.append {a b : String} (ha : Plain a) (hb : Plain b) : Plain (a ++ b) := by
  intro c hc
  rw [String.toList_append] at hc
  rcases List.mem_append.mp hc with hc | hc
  · exact ha c hc
  · exact hb c hc

theorem plain_of_all {s : String}
    (h : s.toList.all (fun c => decide (0 < c.toNat ∧ c.toNat < 128)) = true) : Plain s := by
  intro c hc
  exact of_decide_eq_true (List.all_eq_true.mp h c hc)

theorem plain_jsonEscape {c : Char} (h : c.toNat < 128) : Plain (jsonEscape c) := by
  have hall : ∀ n < 128, (jsonEscape (Char.ofNat n)).toList.all
      (fun d => decide (0 < d.toNat ∧ d.toNat < 128)) = true := by
    decide +kernel
  have hchar := hall c.toNat h
  rw [Char.ofNat_toNat] at hchar
  exact plain_of_all hchar

theorem plain_jsonString {s : String} (h : isAscii s = true) : Plain (jsonString s) := by
  have hquote : Plain "\"" := plain_of_all (by decide +kernel)
  refine (hquote.append ?_).append hquote
  intro d hd
  rw [String.toList_join] at hd
  obtain ⟨text, htext, hd⟩ := List.mem_flatMap.mp hd
  obtain ⟨c, hc, rfl⟩ := List.mem_map.mp htext
  have hascii : c.toNat < 128 := by simpa using List.all_eq_true.mp h c hc
  exact plain_jsonEscape hascii d hd

theorem plain_toString (n : Nat) : Plain (toString n) := by
  intro c hc
  have hdigit := digit_of_mem_toString hc
  omega

theorem plain_envelopeJson {env : NxmsEnvelope} (h : isAsciiEnvelope env = true) :
    Plain (envelopeJson env) := by
  simp only [isAsciiEnvelope, List.all_cons, List.all_nil, Bool.and_eq_true, and_true] at h
  obtain ⟨hproto, hkem, hsig, hescrow, hfrom, hto, hkemCt, hnonce, hciphertext, htag, hsigB⟩ := h
  have htype : isAscii (msgTypeKey env.msgType) = true := by
    cases env.msgType <;> decide +kernel
  unfold envelopeJson jsonField
  repeat' with_reducible apply Plain.append
  all_goals first
    | with_reducible exact plain_toString _
    | with_reducible exact plain_jsonString (by assumption)
    | exact plain_of_all (by decide +kernel)

theorem sqlLength_of_plain {s : String} (h : Plain s) : sqlLength s = s.utf8ByteSize := by
  have hascii : isAscii s = true := by
    rw [isAscii, List.all_eq_true, chars_eq]
    intro c hc
    simpa using (h c hc).2
  have hnul : (chars s).takeWhile (fun c => c.toNat ≠ 0) = chars s := by
    rw [List.takeWhile_eq_self_iff, chars_eq]
    intro c hc
    simpa using Nat.ne_of_gt (h c hc).1
  rw [sqlLength, hnul, utf8ByteSize_of_isAscii hascii]

theorem inboxBytes_of_ascii {db : Db}
    (h : ∀ row ∈ db.rows, isAsciiEnvelope row.envelope = true) (inbox : String) :
    db.inboxBytes inbox = db.inboxSize inbox := by
  have hrow : ∀ row ∈ db.rows.filter (·.toId = inbox),
      sqlLength (envelopeJson row.envelope) = envelopeBytes row.envelope := by
    intro row hrow
    rw [sqlLength_of_plain (plain_envelopeJson (h row (List.mem_filter.mp hrow).1))]
    rfl
  rw [Db.inboxBytes, Db.inboxSize, List.map_congr_left hrow]

/-- The rows are within the limits on their number. -/
def RowsWithin (limits : MailboxLimits) (db : Db) : Prop :=
  db.rows.length ≤ limits.maxRowsGlobal.toNat ∧
    ∀ inbox, db.inboxRows inbox ≤ limits.maxMessagesPerInbox.toNat

/-- The rows are ASCII and within the limit on their bytes. -/
def BytesWithin (limits : MailboxLimits) (db : Db) : Prop :=
  (∀ row ∈ db.rows, isAsciiEnvelope row.envelope = true) ∧
    ∀ inbox, db.inboxSize inbox ≤ limits.maxBytesPerInbox.toNat

/-- Every push is made under these limits. -/
def FixedLimits (limits : MailboxLimits) (calls : List Call) : Prop :=
  ∀ now env ttlSecs limits', .push now env ttlSecs limits' ∈ calls → limits' = limits

theorem filter_toId_map {f : Row → Row} (hf : ∀ row, (f row).content = row.content)
    (rows : List Row) (inbox : String) :
    (rows.map f).filter (·.toId = inbox) = (rows.filter (·.toId = inbox)).map f := by
  rw [List.filter_map]
  congr 2
  funext row
  simp only [Function.comp_apply, toId_of_content (hf row)]

/-- **The number of rows.** -/
theorem rowsWithin_stored {limits : MailboxLimits} {calls : List Call}
    (hlimits : FixedLimits limits calls) : RowsWithin limits (stored calls) := by
  apply stored_induction calls
  · exact ⟨Nat.zero_le _, fun _ => Nat.zero_le _⟩
  · intro db rows hrows h
    refine ⟨hrows.length_le.trans h.1, ?_⟩
    intro inbox
    exact (hrows.filter _).length_le.trans (h.2 inbox)
  · intro db f hf h
    refine ⟨?_, ?_⟩
    · rw [List.length_map]
      exact h.1
    · intro inbox
      rw [Db.inboxRows, filter_toId_map hf, List.length_map]
      exact h.2 inbox
  · intro db now env ttlSecs limits' db' hmem h hpushed
    obtain rfl := hlimits now env ttlSecs limits' hmem
    cases hpushed with
    | stored hfree hlength hglobal hsum hinbox hbytes =>
      refine ⟨?_, ?_⟩
      · rw [List.length_append]
        exact hglobal
      · intro inbox
        rw [Db.inboxRows, List.filter_append, List.length_append]
        by_cases hto : env.to_ = inbox
        · rw [List.filter_singleton]
          simp only [rowOf, hto, decide_true]
          rw [← hto]
          exact hinbox
        · rw [List.filter_singleton]
          simp only [rowOf, hto, decide_false]
          exact h.2 inbox

/-- **The bytes of an inbox**, as long as everything that is pushed is ASCII. -/
theorem bytesWithin_stored {limits : MailboxLimits} {calls : List Call}
    (hlimits : FixedLimits limits calls)
    (hascii : ∀ now env ttlSecs limits', .push now env ttlSecs limits' ∈ calls →
      isAsciiEnvelope env = true) : BytesWithin limits (stored calls) := by
  apply stored_induction calls
  · exact ⟨List.forall_mem_nil _, fun _ => Nat.zero_le _⟩
  · intro db rows hrows h
    refine ⟨fun row hrow => h.1 row (hrows.subset hrow), ?_⟩
    intro inbox
    refine Nat.le_trans ?_ (h.2 inbox)
    exact ((hrows.filter _).map _).sum_le_sum fun _ _ => Nat.zero_le _
  · intro db f hf h
    refine ⟨?_, ?_⟩
    · intro r hr
      obtain ⟨row, hrow, rfl⟩ := List.mem_map.mp hr
      rw [envelope_of_content (hf row)]
      exact h.1 row hrow
    · intro inbox
      have hsame : (fun row => envelopeBytes row.envelope) ∘ f
          = fun row => envelopeBytes row.envelope := by
        funext row
        simp only [Function.comp_apply, envelope_of_content (hf row)]
      rw [Db.inboxSize, filter_toId_map hf, List.map_map, hsame]
      exact h.2 inbox
  · intro db now env ttlSecs limits' db' hmem h hpushed
    obtain rfl := hlimits now env ttlSecs limits' hmem
    cases hpushed with
    | stored hfree hlength hglobal hsum hinbox hbytes =>
      refine ⟨?_, ?_⟩
      · intro row hrow
        rcases List.mem_append.mp hrow with hrow | hrow
        · exact h.1 row hrow
        · obtain rfl := List.mem_singleton.mp hrow
          exact hascii now env ttlSecs limits' hmem
      · intro inbox
        rw [Db.inboxSize, List.filter_append, List.map_append, List.sum_append,
          List.filter_singleton]
        by_cases hto : env.to_ = inbox
        · -- the sum that was checked is the sum of the bytes
          have hunits := inboxBytes_of_ascii h.1 env.to_
          -- and it did not saturate: either part fits a signed word
          have hfits : (db.prune now).inboxBytes env.to_ + envelopeBytes env ≤ u64Max := by
            unfold i64Max at hlength hsum
            unfold u64Max
            omega
          rw [Nat.min_eq_left hfits, hunits] at hbytes
          simp only [rowOf, hto, decide_true]
          rw [← hto]
          simpa [Db.inboxSize] using hbytes
        · simp only [rowOf, hto, decide_false]
          simpa [Db.inboxSize] using h.2 inbox

/-- **Quotas.** Under fixed limits the rows are always within them; the bytes are as long as what
    is pushed is ASCII. -/
theorem mailbox_quotas (limits : MailboxLimits) (calls : List Call)
    (hlimits : FixedLimits limits calls) :
    (stored calls).rows.length ≤ limits.maxRowsGlobal.toNat ∧
      (∀ inbox, (stored calls).inboxRows inbox ≤ limits.maxMessagesPerInbox.toNat) ∧
      ((∀ now env ttlSecs limits', .push now env ttlSecs limits' ∈ calls →
          isAsciiEnvelope env = true) →
        ∀ inbox, (stored calls).inboxSize inbox ≤ limits.maxBytesPerInbox.toNat) := by
  obtain ⟨hglobal, hinbox⟩ := rowsWithin_stored hlimits
  exact ⟨hglobal, hinbox, fun hascii => (bytesWithin_stored hlimits hascii).2⟩

/-- A tag that is valid for its length, and is no base64. -/
def heavyEnvelope : NxmsEnvelope := { sampleEnvelope "bob" 1 with tagB64 := "ą" }

/-- Three messages, the second one over the quota of its inbox. -/
def threePushes : List Call :=
  [.push 0 (sampleEnvelope "bob" 1) 3600 ⟨10, 300, 100⟩,
    .push 1 (sampleEnvelope "bob" 2) 3600 ⟨10, 300, 100⟩,
    .push 2 (sampleEnvelope "eve" 1) 3600 ⟨10, 300, 100⟩]

theorem mailbox_quotas_sample :
    (stored threePushes).rows.map (fun row => (row.toId, row.envelope.seq)) = [("bob", 1), ("eve", 1)]
      ∧ (stored threePushes).inboxSize "bob" ≤ 300 ∧ (stored threePushes).inboxSize "eve" ≤ 300 := by
  have hmem : ∀ {now env ttlSecs limits}, .push now env ttlSecs limits ∈ threePushes →
      limits = ⟨10, 300, 100⟩ ∧ isAsciiEnvelope env = true := by
    intro now env ttlSecs limits h
    simp only [threePushes, List.mem_cons, Call.push.injEq, List.not_mem_nil, or_false] at h
    rcases h with ⟨-, rfl, -, rfl⟩ | ⟨-, rfl, -, rfl⟩ | ⟨-, rfl, -, rfl⟩
    all_goals exact ⟨rfl, by decide +kernel⟩
  have hbytes := (mailbox_quotas ⟨10, 300, 100⟩ threePushes
    fun now env ttlSecs limits h => (hmem h).1).2.2 fun now env ttlSecs limits h => (hmem h).2
  exact ⟨by decide +kernel, hbytes "bob", hbytes "eve"⟩

theorem sqlLength_heavy : sqlLength (envelopeJson heavyEnvelope) = 282 := by
  -- taken apart first: one long text is slow to read character by character
  rw [sqlLength, chars_eq]
  unfold envelopeJson jsonField jsonString
  simp only [String.toList_append]
  decide +kernel

/-- The table with this one message. -/
def heavyDb : Db := ⟨[{ rowOf heavyEnvelope 0 3600 with id := 1 }], 2⟩

theorem inboxBytes_heavy : (heavyDb.prune 1).inboxBytes "bob" = 282 := by
  have hrows : (heavyDb.prune 1).rows.filter (·.toId = "bob")
      = [{ rowOf heavyEnvelope 0 3600 with id := 1 }] := by
    decide +kernel
  rw [Db.inboxBytes, hrows, List.map_singleton, List.sum_singleton]
  exact sqlLength_heavy

/-- From any calls that leave this table: with concrete ones the length would be read again. -/
theorem inboxSize_second {calls : List Call} (hcalls : stored calls = heavyDb) :
    (stored (calls ++ [.push 1 (sampleEnvelope "bob" 2) 3600 ⟨10, 567, 100⟩])).inboxSize "bob"
      = 568 := by
  have hunits : ((stored calls).prune 1).inboxBytes "bob" = 282 := by
    rw [hcalls, inboxBytes_heavy]
  rw [stored_snoc, serve_push]
  unfold pushSync
  dsimp only
  rw [show (sampleEnvelope "bob" 2).to_ = "bob" from rfl, hunits, hcalls]
  decide +kernel

/-- Two valid messages that weigh more than the quota they were both stored under. -/
theorem bytes_quota_exceeded :
    let limits : MailboxLimits := ⟨10, 567, 100⟩
    let db := stored [.push 0 heavyEnvelope 3600 limits,
      .push 1 (sampleEnvelope "bob" 2) 3600 limits]
    heavyEnvelope.validateBasic = .ok () ∧ (sampleEnvelope "bob" 2).validateBasic = .ok () ∧
      limits.maxBytesPerInbox.toNat < db.inboxSize "bob" := by
  intro limits db
  have hfirst : stored [.push 0 heavyEnvelope 3600 limits] = heavyDb := by decide +kernel
  refine ⟨by decide +kernel, by decide +kernel, ?_⟩
  exact Nat.lt_of_lt_of_eq (by decide) (inboxSize_second hfirst).symm

end Nexum.Mailbox
