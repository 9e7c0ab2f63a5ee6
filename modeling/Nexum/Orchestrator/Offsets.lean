import Nexum.Lib.Watermark
import Nexum.Orchestrator.Flow
import Nexum.Signer.Store

/-!
# Two guards against replays

The orchestrator and the signer were written apart, and each has its own guard: the orchestrator
keeps one offset for a peer and an escrow (`advance_inbox_offset`), the signer keeps every number it
has seen and asks for the largest (`record_incoming_seq`). Both get the number as an unsigned word
and store it as a signed one, clamped.

Both are watermarks over the clamp, so both decide as the order of the numbers does **until a number
of `2 ^ 63 - 1` or more has been let through**; from then on nothing passes. They lose the same
numbers, so on identifiers that are in their normal form the two nodes let the same numbers through.
The orchestrator normalises the identifiers and turns away what it cannot normalise; the signer
takes them as they are.
-/

namespace Nexum.Orchestrator

open Nexum.Lib Nexum.Lib.Check
open Nexum.Signer (SignerDb)

variable {sha3 : List UInt8 → List UInt8} {db db' : FlowDb} {call : Call} {reply : Reply}

/-- The largest signed word. -/
def seqTop : Nat := 2 ^ 63 - 1

/-! ## 1. The orchestrator's guard -/

theorem saturatesAt_clampI64 : SaturatesAt clampI64 seqTop := by
  intro m n
  unfold clampI64 i64Max seqTop
  omega

section
variable {peerId e : String} {seq : Nat}

theorem checkAdvance_eq_ok {new : InboxOffset} :
    db.checkAdvance peerId e seq = .ok new ↔ ∃ key, FlowDb.offsetKey peerId e = .ok key
      ∧ (∀ t, db.lastSeq key = some t → t < clampI64 seq) ∧ ⟨key.1, key.2, clampI64 seq⟩ = new := by
  simp only [FlowDb.checkAdvance, bind_eq_ok, failIf_eq_ok, exists_unit, pure_eq_ok]
  refine exists_congr fun key => and_congr_right fun _ => and_congr_left fun _ => ?_
  cases db.lastSeq key with
  | none => simp
  | some t => simp

/-- **The orchestrator's guard**: the number is past the offset. -/
theorem advance_ok_iff :
    (db.advanceInboxOffset peerId e seq).1 = .ok () ↔ ∃ key, FlowDb.offsetKey peerId e = .ok key
      ∧ ∀ t, db.lastSeq key = some t → t < clampI64 seq := by
  unfold FlowDb.advanceInboxOffset FlowDb.write
  cases hcheck : db.checkAdvance peerId e seq with
  | ok new =>
    obtain ⟨key, hkey, hpass, -⟩ := checkAdvance_eq_ok.mp hcheck
    simp only [true_iff]
    exact ⟨key, hkey, hpass⟩
  | error err =>
    simp only [reduceCtorEq, false_iff]
    intro h
    obtain ⟨key, hkey, hpass⟩ := h
    rw [checkAdvance_eq_ok.mpr ⟨key, hkey, hpass, rfl⟩] at hcheck
    cases hcheck

end

theorem lastSeq_upsert (new : InboxOffset) (key : String × String) :
    FlowDb.lastSeq
        { db with offsets := upsert (FlowDb.sameOffset new) (fun _ => new) new db.offsets } key
      = if key = (new.peerId, new.escrowIdHex) then some new.lastSeq else db.lastSeq key := by
  unfold FlowDb.lastSeq
  dsimp only
  by_cases hkey : key = (new.peerId, new.escrowIdHex)
  · have hsame : (fun o : InboxOffset => decide (o.peerId = key.1 ∧ o.escrowIdHex = key.2))
        = FlowDb.sameOffset new := by
      funext o
      simp [FlowDb.sameOffset, hkey]
    rw [if_pos hkey, hsame, find?_upsert (by simp [FlowDb.sameOffset]), Option.map_some]
  · rw [if_neg hkey, find?_upsert_of_ne]
    · rw [decide_eq_false_iff_not]
      intro h
      exact hkey (Prod.ext h.1.symm h.2.symm)
    · intro o ho
      simp only [FlowDb.sameOffset, Bool.and_eq_true, decide_eq_true_eq] at ho
      rw [decide_eq_false_iff_not]
      intro h
      exact hkey (Prod.ext (h.1.symm.trans ho.1) (h.2.symm.trans ho.2))

/-- What a call has let through: for whom, and which number. -/
def advanced : Call → Reply → List ((String × String) × Nat)
  | .advanceInboxOffset peerId e seq, .done (.ok _) =>
    (FlowDb.offsetKey peerId e).toOption.toList.map (·, seq)
  | _, _ => []

/-- The numbers the orchestrator has let through along a history. -/
def advances (sha3 : List UInt8 → List UInt8) (calls : List Call) :
    List ((String × String) × Nat) :=
  (orchestrator sha3).collect
    (fun db call => advanced call ((orchestrator sha3).serve db call).1) .empty calls

theorem advances_snoc {calls : List Call}
    (h : (orchestrator sha3).serve (reached sha3 calls) call = (reply, db')) :
    advances sha3 (calls ++ [call]) = advances sha3 calls ++ advanced call reply := by
  rw [advances, Server.collect_snoc]
  show _ ++ advanced call ((orchestrator sha3).serve (reached sha3 calls) call).1 = _
  rw [h]
  rfl

theorem marks_effect {passed : List ((String × String) × Nat)}
    (hm : Marks clampI64 passed db.lastSeq) (h : Effect sha3 db call reply db') :
    Marks clampI64 (passed ++ advanced call reply) db'.lastSeq := by
  cases h with
  | refused _ _ err hreply =>
    have hnone : advanced call reply = [] := by
      rcases hreply with hreply | hreply
      · rw [hreply]
        cases call <;> rfl
      · rw [hreply]
        cases call <;> rfl
    rw [hnone, List.append_nil]
    exact hm
  | @advanced peerId e seq new hcheck =>
    obtain ⟨key, hkey, hpass, rfl⟩ := checkAdvance_eq_ok.mp hcheck
    have hone : advanced (.advanceInboxOffset peerId e seq) (.done (.ok ())) = [(key, seq)] := by
      simp only [advanced, hkey]
      rfl
    rw [hone]
    refine hm.snoc hpass ?_ ?_
    · rw [lastSeq_upsert, if_pos rfl]
    · intro key' hne
      rw [lastSeq_upsert, if_neg hne]
  | _ =>
    rw [advanced, List.append_nil]
    · exact hm
    all_goals simp

theorem marks_reached (sha3 : List UInt8 → List UInt8) (calls : List Call) :
    Marks clampI64 (advances sha3 calls) (reached sha3 calls).lastSeq := by
  induction calls using reached_induction sha3 with
  | hempty => exact Marks.empty
  | hstep calls call reply db' hserve heffect ih =>
    rw [advances_snoc hserve, reached_snoc hserve]
    exact marks_effect ih heffect

/-! ## 2. The signer's guard -/

section
variable {sdb : SignerDb} {e f : String} {n : Nat}

def clampSeen (n : Nat) : Nat := min n SignerDb.i64Max

theorem saturatesAt_clampSeen : SaturatesAt clampSeen seqTop := by
  intro m n
  unfold clampSeen SignerDb.i64Max seqTop
  omega

/-- **The signer's guard**: the number is past the largest one seen. -/
theorem recordIncomingSeq_ok_iff :
    (sdb.recordIncomingSeq e f n).1 = .ok ()
      ↔ ∀ t, sdb.maxSeen e f = some t → t < clampSeen n := by
  unfold SignerDb.recordIncomingSeq clampSeen
  cases sdb.maxSeen e f with
  | none => simp
  | some t =>
    dsimp only
    split
    · rename_i hle
      simp only [reduceCtorEq, Option.some.injEq, forall_eq', false_iff]
      omega
    · rename_i hlt
      simp only [Option.some.injEq, forall_eq', true_iff]
      omega

theorem recordIncomingSeq_state :
    (sdb.recordIncomingSeq e f n).2
      = if (sdb.recordIncomingSeq e f n).1 = .ok ()
        then { sdb with incomingSeen := ⟨e, f, clampSeen n⟩ :: sdb.incomingSeen } else sdb := by
  unfold SignerDb.recordIncomingSeq clampSeen
  cases sdb.maxSeen e f with
  | none => simp
  | some t =>
    dsimp only
    split <;> simp

theorem maxSeen_record (hpass : ∀ t, sdb.maxSeen e f = some t → t < n) (e' f' : String) :
    SignerDb.maxSeen { sdb with incomingSeen := ⟨e, f, n⟩ :: sdb.incomingSeen } e' f'
      = if e' = e ∧ f' = f then some n else sdb.maxSeen e' f' := by
  unfold SignerDb.maxSeen at hpass ⊢
  by_cases hkey : e' = e ∧ f' = f
  · obtain ⟨rfl, rfl⟩ := hkey
    rw [if_pos ⟨rfl, rfl⟩, List.filter_cons_of_pos (by simp), List.map_cons, List.max?_cons]
    cases hmax : List.max? (List.map (·.seq) (sdb.incomingSeen.filter fun r =>
        r.escrowIdHex = e' ∧ r.fromId = f')) with
    | none => rfl
    | some t =>
      have ht := hpass t hmax
      show some (max n t) = some n
      rw [Nat.max_eq_left (Nat.le_of_lt ht)]
  · have hne : ¬ (e = e' ∧ f = f') := fun h => hkey ⟨h.1.symm, h.2.symm⟩
    rw [if_neg hkey, List.filter_cons_of_neg (by simpa using hne)]

end

/-- The signer's database behind its guard. A request names the escrow, the sender and the
    number. -/
def signerGuard : Server SignerDb (String × String × Nat) (Except String Unit) where
  serve sdb request := sdb.recordIncomingSeq request.1 request.2.1 request.2.2

def recorded (request : String × String × Nat) : Except String Unit → List ((String × String) × Nat)
  | .ok _ => [((request.2.1, request.1), request.2.2)]
  | .error _ => []

/-- The numbers the signer has let through along a history. -/
def records (requests : List (String × String × Nat)) : List ((String × String) × Nat) :=
  signerGuard.collect (fun sdb request => recorded request (signerGuard.serve sdb request).1)
    .empty requests

/-- The signer's database after a history. -/
def signerAfter (requests : List (String × String × Nat)) : SignerDb :=
  signerGuard.after .empty requests

theorem marks_signerAfter (requests : List (String × String × Nat)) :
    Marks clampSeen (records requests) fun key => (signerAfter requests).maxSeen key.2 key.1 := by
  induction requests using List.reverseRecOn with
  | nil => exact Marks.empty
  | append_singleton requests request ih =>
    obtain ⟨e, f, n⟩ := request
    have hrecords : records (requests ++ [(e, f, n)]) = records requests
        ++ recorded (e, f, n) ((signerAfter requests).recordIncomingSeq e f n).1 := by
      rw [records, Server.collect_snoc]
      rfl
    have hafter : signerAfter (requests ++ [(e, f, n)])
        = ((signerAfter requests).recordIncomingSeq e f n).2 := by
      rw [signerAfter, Server.after_snoc]
      rfl
    rw [hrecords, hafter, recordIncomingSeq_state]
    cases hreply : ((signerAfter requests).recordIncomingSeq e f n).1 with
    | ok u =>
      have hpass := recordIncomingSeq_ok_iff.mp hreply
      rw [if_pos rfl]
      refine ih.snoc hpass ?_ ?_
      · rw [maxSeen_record hpass, if_pos ⟨rfl, rfl⟩]
      · intro key hne
        rw [maxSeen_record hpass, if_neg]
        intro h
        exact hne (Prod.ext h.2 h.1)
    | error err =>
      rw [if_neg (by simp), recorded, List.append_nil]
      exact ih

/-! ## 3. Both -/

/-- The request a call makes to the guard, in the signer's order. -/
def Call.request : Call → Option (String × String × Nat)
  | .advanceInboxOffset peerId e seq => some (e, peerId, seq)
  | _ => none

/-- Identifiers that normalising leaves as they are. -/
def NormalRequest (request : String × String × Nat) : Prop :=
  FlowDb.offsetKey request.2.1 request.1 = .ok (request.2.1, request.1)

/-- **On normal identifiers the two nodes let the same numbers through.** -/
theorem advances_eq_records (sha3 : List UInt8 → List UInt8) (calls : List Call)
    (hnormal : ∀ request ∈ calls.filterMap Call.request, NormalRequest request) :
    advances sha3 calls = records (calls.filterMap Call.request) := by
  induction calls using reached_induction sha3 with
  | hempty => rfl
  | hstep calls call reply db' hserve heffect ih =>
    rw [List.filterMap_append] at hnormal ⊢
    have ih := ih fun request hrequest => hnormal request (List.mem_append_left _ hrequest)
    rw [advances_snoc hserve]
    cases call with
    | advanceInboxOffset peerId e seq =>
      have hkey : FlowDb.offsetKey peerId e = .ok (peerId, e) :=
        hnormal (e, peerId, seq) (List.mem_append_right _ List.mem_cons_self)
      -- both ask the same question about what they have let through so far
      have hsame : ((reached sha3 calls).advanceInboxOffset peerId e seq).1 = .ok ()
          ↔ ((signerAfter (calls.filterMap Call.request)).recordIncomingSeq e peerId seq).1
            = .ok () := by
        rw [advance_ok_iff, recordIncomingSeq_ok_iff]
        have horch := (marks_reached sha3 calls).passes_iff (k := (peerId, e)) (n := seq)
        have hsign := (marks_signerAfter (calls.filterMap Call.request)).passes_iff
          (k := (peerId, e)) (n := seq)
        rw [hsign, ← ih]
        simp only [hkey, Except.ok.injEq, exists_eq_left', horch, saturatesAt_clampI64 _ _,
          saturatesAt_clampSeen _ _]
      have hreply : reply = .done ((reached sha3 calls).advanceInboxOffset peerId e seq).1 :=
        (congrArg Prod.fst hserve).symm
      have hsnoc : records (calls.filterMap Call.request ++ [(e, peerId, seq)])
          = records (calls.filterMap Call.request) ++ recorded (e, peerId, seq)
            ((signerAfter (calls.filterMap Call.request)).recordIncomingSeq e peerId seq).1 := by
        rw [records, Server.collect_snoc]
        rfl
      show _ = records (calls.filterMap Call.request ++ [(e, peerId, seq)])
      rw [hsnoc, ih, hreply]
      congr 1
      cases ha : ((reached sha3 calls).advanceInboxOffset peerId e seq).1 with
      | ok u =>
        rw [hsame.mp ha]
        simp only [advanced, hkey, recorded]
        rfl
      | error err =>
        cases hb : ((signerAfter (calls.filterMap Call.request)).recordIncomingSeq e peerId
            seq).1 with
        | ok u =>
          rw [hsame.mpr hb] at ha
          cases ha
        | error err' => rfl
    | _ =>
      show advances sha3 calls ++ [] = records (calls.filterMap Call.request ++ [])
      rw [List.append_nil, List.append_nil]
      exact ih

/-- **The guards and the order of the numbers.** After every history, the orchestrator's guard lets
    a number through exactly when it is larger than all it let through before for that peer and
    escrow, as long as the identifiers can be normalised and no number from `2 ^ 63 - 1` on, and
    below this one, was let through before; the signer's guard does so under the second condition.
    On normal identifiers both let the same numbers through. -/
theorem sequence_guards (sha3 : List UInt8 → List UInt8) :
    (∀ calls peerId e seq,
      ((((reached sha3 calls).advanceInboxOffset peerId e seq).1 = .ok ()
          ↔ ∀ key, FlowDb.offsetKey peerId e = .ok key →
            ∀ m, (key, m) ∈ advances sha3 calls → m < seq)
        ↔ ∃ key, FlowDb.offsetKey peerId e = .ok key
          ∧ ¬ ∃ m, (key, m) ∈ advances sha3 calls ∧ seqTop ≤ m ∧ m < seq))
    ∧ (∀ requests e f seq,
      ((((signerAfter requests).recordIncomingSeq e f seq).1 = .ok ()
          ↔ ∀ m, ((f, e), m) ∈ records requests → m < seq)
        ↔ ¬ ∃ m, ((f, e), m) ∈ records requests ∧ seqTop ≤ m ∧ m < seq))
    ∧ ∀ calls, (∀ request ∈ calls.filterMap Call.request, NormalRequest request) →
        advances sha3 calls = records (calls.filterMap Call.request) := by
  refine ⟨?_, ?_, advances_eq_records sha3⟩
  · intro calls peerId e seq
    have hexact := fun key => (marks_reached sha3 calls).exact_iff saturatesAt_clampI64
      (k := key) (n := seq)
    rw [advance_ok_iff]
    cases hkey : FlowDb.offsetKey peerId e with
    | ok key =>
      simp only [Except.ok.injEq, exists_eq_left', forall_eq']
      exact hexact key
    | error err => simp
  · intro requests e f seq
    rw [recordIncomingSeq_ok_iff]
    exact (marks_signerAfter requests).exact_iff saturatesAt_clampSeen (k := (f, e))

/-- **The last number**: after `2 ^ 63 - 1` was let through, both guards turn `2 ^ 63` away. -/
theorem larger_number_refused :
    advances id [.advanceInboxOffset "seller" "00112233445566778899aabbccddeeff" (2 ^ 63 - 1)]
        = [(("seller", "00112233445566778899aabbccddeeff"), 2 ^ 63 - 1)]
    ∧ ((reached id [.advanceInboxOffset "seller" "00112233445566778899aabbccddeeff"
        (2 ^ 63 - 1)]).advanceInboxOffset "seller" "00112233445566778899aabbccddeeff" (2 ^ 63)).1
      = .error ("inbox offset replay/reset for peer=seller escrow=00112233445566778899aabbccddeeff "
          ++ "seq=9223372036854775807 <= 9223372036854775807")
    ∧ records [("00112233445566778899aabbccddeeff", "seller", 2 ^ 63 - 1)]
        = [(("seller", "00112233445566778899aabbccddeeff"), 2 ^ 63 - 1)]
    ∧ ((signerAfter [("00112233445566778899aabbccddeeff", "seller", 2 ^ 63 - 1)]).recordIncomingSeq
          "00112233445566778899aabbccddeeff" "seller" (2 ^ 63)).1
      = .error ("replay/out-of-order seq detected for (00112233445566778899aabbccddeeff, seller): "
          ++ "9223372036854775807 <= 9223372036854775807") := by
  decide +kernel

end Nexum.Orchestrator
