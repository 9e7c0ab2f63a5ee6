import Nexum.Escrow.Contract

/-!
# Failed operations

Does an operation that fails leave the contract as it was? Most do: they check everything first,
and what follows the one write that can fail — a slot that holds another text — cannot. Five do
not. `submit_round1` stores the round-1 data before it looks at the refund address; `open_dispute`
records who opened the dispute before it compares the reasons; and the three imports replace what
they were given first and check the rest afterwards.

`HalfDone` says exactly when: the operation gets past its first write, the write changes
something, and a later check fails. **An operation can fail with an effect in these cases, and in
no others** (`failed_unchanged_iff`).
-/

namespace Nexum.Escrow

open Nexum.Lib Nexum.Lib.Method

/-! ## 1. The checks -/

theorem reads_requireXmr (what : String) : Reads (requireXmr what) :=
  FrameOn.bind FrameOn.get fun _ => FrameOn.failIf _ _

theorem reads_ensureStateIn (allowed : List EscrowState) (op : String) :
    Reads (ensureStateIn allowed op) :=
  FrameOn.bind FrameOn.get fun _ => FrameOn.failIf _ _

theorem reads_validateTxid (txid : String) : Reads (validateTxid txid) :=
  FrameOn.ite (FrameOn.pure ()) (FrameOn.throw _)

theorem reads_normalizeDisputeReason (reason : Option String) :
    Reads (normalizeDisputeReason reason) := by
  cases reason with
  | none => exact FrameOn.pure none
  | some raw =>
    exact FrameOn.ite (FrameOn.pure none) (FrameOn.ite (FrameOn.throw _) (FrameOn.pure _))

theorem total_setState (s : EscrowState) : Total (setState s) := Total.modify _

theorem total_transition (prev : EscrowState) (action : String) :
    Total (transition prev action) :=
  Total.bind Total.get fun _ => Total.pure _

/-! ## 2. The operations that write once -/

theorem atomic_storeOnce (s : Slot) (incoming : String) : Atomic (storeOnce s incoming) := by
  refine Atomic.reads_bind FrameOn.get fun c => ?_
  cases c.slot s with
  | some current => exact Atomic.of_reads (FrameOn.failIf _ _)
  | none => exact Atomic.of_total fun _ _ => nofun

theorem atomic_setOnce (s : Slot) (incoming : String) (requireNonEmpty : Bool) :
    Atomic (setOnce s incoming requireNonEmpty) :=
  Atomic.reads_bind (FrameOn.failIf _ _) fun _ => atomic_storeOnce s incoming

theorem atomic_setArbiterRound1 (info : String) : Atomic (setArbiterRound1 info) :=
  Atomic.reads_bind (reads_requireXmr _) fun _ => Atomic.reads_bind FrameOn.get fun _ =>
    Atomic.reads_bind (reads_ensureStateIn _ _) fun _ =>
    Atomic.bind_total (atomic_setOnce _ _ _) fun _ =>
    Total.bind (total_setState _) fun _ => total_transition _ _

theorem atomic_setArbiterRound {name op incomplete : String} {allowed : List EscrowState}
    {before : EscrowParticipant → Slot} {mine : Slot} {next : EscrowState} (info : String) :
    Atomic (setArbiterRound name allowed op before incomplete mine next info) :=
  Atomic.reads_bind (reads_requireXmr _) fun _ =>
    Atomic.reads_bind (reads_ensureStateIn _ _) fun _ => Atomic.reads_bind FrameOn.get fun _ =>
    Atomic.reads_bind (FrameOn.failIf _ _) fun _ => Atomic.reads_bind FrameOn.get fun _ =>
    Atomic.bind_total (atomic_setOnce _ _ _) fun _ =>
    Total.bind (total_setState _) fun _ => total_transition _ _

theorem atomic_submitRound {name op arbiterText action : String} {allowed : List EscrowState}
    {round : EscrowParticipant → Slot} (who : EscrowParticipant) (info : String) :
    Atomic (submitRound name allowed op round arbiterText action who info) :=
  Atomic.reads_bind (reads_requireXmr _) fun _ => Atomic.reads_bind FrameOn.get fun _ =>
    Atomic.reads_bind (reads_ensureStateIn _ _) fun _ =>
    Atomic.reads_bind (FrameOn.failIf _ _) fun _ =>
    Atomic.bind_total (atomic_setOnce _ _ _) fun _ => total_transition _ _

theorem atomic_setDepositAddress (keccak256 : List UInt8 → List UInt8) (address : String) :
    Atomic (setDepositAddress keccak256 address) :=
  Atomic.reads_bind (reads_requireXmr _) fun _ =>
    Atomic.reads_bind (reads_ensureStateIn _ _) fun _ => Atomic.reads_bind FrameOn.get fun _ =>
    Atomic.reads_bind (FrameOn.failIf _ _) fun _ =>
    Atomic.reads_bind (FrameOn.failIf _ _) fun _ => Atomic.reads_bind FrameOn.get fun _ =>
    Atomic.bind_total (atomic_setOnce _ _ _) fun _ =>
    Total.bind (total_setState _) fun _ => total_transition _ _

theorem atomic_markFunded (balance : Nat) : Atomic (markFunded balance) :=
  Atomic.reads_bind FrameOn.get fun _ => Atomic.reads_bind (reads_ensureStateIn _ _) fun _ =>
    Atomic.reads_bind FrameOn.get fun _ => Atomic.reads_bind (FrameOn.failIf _ _) fun _ =>
    Atomic.of_total (Total.bind (total_setState _) fun _ => total_transition _ _)

theorem atomic_recordTxid (s : Slot) (txid : Option String) : Atomic (recordTxid s txid) := by
  cases txid with
  | none => exact Atomic.of_reads (FrameOn.pure ())
  | some v => exact Atomic.reads_bind (reads_validateTxid v) fun _ => atomic_setOnce _ _ _

theorem atomic_confirm {o : Outcome} {beaten settled : EscrowState} {beatenText op action : String}
    {txidSlot : Slot} (who : EscrowParticipant) (txid : Option String) :
    Atomic (confirm o beaten beatenText op txidSlot settled action who txid) :=
  Atomic.reads_bind FrameOn.get fun _ => Atomic.reads_bind (FrameOn.failIf _ _) fun _ =>
    Atomic.reads_bind (reads_ensureStateIn _ _) fun _ =>
    Atomic.bind_total (atomic_recordTxid _ _) fun _ => Total.bind (Total.modify _) fun _ =>
    Total.bind Total.get fun _ => Total.bind (Total.doIf (total_setState _)) fun _ =>
    Total.bind (total_transition _ _) fun _ => Total.bind Total.get fun _ => Total.pure _

/-! ## 3. The operations that go on after a write -/

/-- The operations of the contract, the imports included. -/
inductive PublicOp
  | call (op : EscrowOp)
  | importDisputeSnapshot (openedBy : Option EscrowParticipant) (reason : Option String)
      (openedAt : Option Int)
  | importReleaseSnapshot (buyer seller arbiter : Bool) (txid : Option String)
  | importRefundSnapshot (buyer seller arbiter : Bool) (txid : Option String)

def PublicOp.method (keccak256 : List UInt8 → List UInt8) : PublicOp → Op Unit
  | .call op => op.method keccak256
  | .importDisputeSnapshot openedBy reason openedAt =>
    Escrow.importDisputeSnapshot openedBy reason openedAt
  | .importReleaseSnapshot buyer seller arbiter txid =>
    Escrow.importReleaseSnapshot buyer seller arbiter txid
  | .importRefundSnapshot buyer seller arbiter txid =>
    Escrow.importRefundSnapshot buyer seller arbiter txid

/-- Where the refund address of a party that has one is kept. -/
def refundSlot : EscrowParticipant → Slot
  | .buyer => .refundAddressBuyer
  | _ => .refundAddressSeller

/-- A refund address that `set_refund_once` does not take. -/
def RefundRefused (keccak256 : List UInt8 → List UInt8) (c : EscrowContract) (s : Slot)
    (incoming : Option String) : Prop :=
  ∃ refund ∈ incoming, trim refund ≠ "" ∧
    (isValidXmrAddress keccak256 (trim refund) = false
      ∨ ∃ current ∈ c.slot s, current ≠ trim refund)

/-- A txid that `validate_txid` does not take. -/
def TxidRefused (txid : Option String) : Prop :=
  ∃ v ∈ txid, ¬ (v.utf8ByteSize = 64 ∧ v.toList.all isAsciiHexdigit)

/-- The operation fails after it has changed something. -/
def HalfDone (keccak256 : List UInt8 → List UInt8) (c : EscrowContract) : PublicOp → Prop
  | .call (.submitRound1 who info refund) =>
    c.asset = .xmr ∧ c.state ∈ [.new, .xmrMsigR1] ∧ who ≠ .arbiter ∧ isBlank info = false
      ∧ c.slot (.xmrR1 who) = none ∧ RefundRefused keccak256 c (refundSlot who) refund
  | .call (.openDispute _ _ reason) =>
    c.state ∈ [.ready, .funded, .dispute] ∧ c.disputeOpenedBy = none
      ∧ ∃ raw ∈ reason, trim raw ≠ "" ∧ (trim raw).utf8ByteSize ≤ maxDisputeReasonLen
        ∧ ∃ current ∈ c.disputeReason, current ≠ trim raw
  | .call _ => False
  | .importDisputeSnapshot openedBy reason openedAt =>
    (∀ ts ∈ openedAt, 0 < ts) ∧ openedBy ≠ c.disputeOpenedBy
      ∧ ∃ raw ∈ reason, (trim raw).utf8ByteSize > maxDisputeReasonLen
  | .importReleaseSnapshot buyer seller arbiter txid =>
    flagged buyer seller arbiter ≠ c.releaseConfirmations ∧ TxidRefused txid
  | .importRefundSnapshot buyer seller arbiter txid =>
    flagged buyer seller arbiter ≠ c.refundConfirmations ∧ TxidRefused txid

section
variable {keccak256 : List UInt8 → List UInt8} {c : EscrowContract}

theorem atomic_setRefundOnce (s : Slot) (incoming : Option String) :
    Atomic (setRefundOnce keccak256 s incoming) := by
  intro c
  cases incoming with
  | none => exact Atomic.of_reads (FrameOn.pure ()) c
  | some refund =>
    unfold setRefundOnce
    dsimp only
    split
    · exact Atomic.of_reads (FrameOn.pure ()) c
    · split
      · exact Atomic.of_reads (FrameOn.throw _) c
      · exact atomic_storeOnce s _ c

/-- `set_refund_once` fails on the addresses it does not take, and on no others. -/
theorem succeeds_setRefundOnce (s : Slot) (incoming : Option String) :
    Succeeds (setRefundOnce keccak256 s incoming) c ↔
      ¬ RefundRefused keccak256 c s incoming := by
  unfold Succeeds RefundRefused
  cases incoming with
  | none => simp [setRefundOnce]
  | some refund =>
    simp only [setRefundOnce, ends_ite, ends_pure, ends_throw, storeOnce, ends_bind, ends_get]
    by_cases hempty : trim refund = ""
    · simp [hempty]
    · by_cases hvalid : isValidXmrAddress keccak256 (trim refund) = true
      · cases hslot : c.slot s with
        | none => simp [hempty, hvalid]
        | some current => simp [hempty, hvalid]
      · simp [hempty, hvalid]

theorem whole_get_bind {α : Type} (f : EscrowContract → Op α) :
    Whole (get >>= f) c ↔ Whole (f c) c := by
  rw [whole_reads_bind FrameOn.get]
  simp

theorem whole_requireXmr_bind {α : Type} (what : String) (f : Unit → Op α) :
    Whole (requireXmr what >>= f) c ↔ (c.asset = .xmr → Whole (f ()) c) := by
  rw [whole_reads_bind (reads_requireXmr what)]
  simp only [requireXmr, ends_bind, ends_get, ends_failIf, ne_eq, not_not]
  constructor
  · intro h hasset
    exact h.2 hasset () trivial
  · intro h
    refine ⟨?_, fun hasset _ _ => h hasset⟩
    intro _ _ hok
    cases hok

theorem whole_ensureStateIn_bind {α : Type} (allowed : List EscrowState) (op : String)
    (f : Unit → Op α) :
    Whole (ensureStateIn allowed op >>= f) c ↔ (c.state ∈ allowed → Whole (f ()) c) := by
  rw [whole_reads_bind (reads_ensureStateIn allowed op)]
  simp only [ensureStateIn, ends_bind, ends_get, ends_failIf, not_not]
  constructor
  · intro h hstate
    exact h.2 hstate () trivial
  · intro h
    refine ⟨?_, fun hstate _ _ => h hstate⟩
    intro _ _ hok
    cases hok

theorem setSlot_ne {s : Slot} {v : String} (h : c.slot s = none) : c.setSlot s v ≠ c := by
  intro heq
  have hslot : (c.setSlot s v).slot s = some v := by
    unfold EscrowContract.setSlot
    split <;> rfl
  rw [heq, h] at hslot
  cases hslot

/-- How `set_once` ends: with what, and with which contract. -/
inductive Stored (s : Slot) (v : String) (c : EscrowContract) :
    Except MoneroArbitraError Unit → EscrowContract → Prop
  | refused (e : MoneroArbitraError) (h : isBlank v = true ∨ ∃ current ∈ c.slot s, current ≠ v) :
      Stored s v c (.error e) c
  | fresh (hv : isBlank v = false) (h : c.slot s = none) : Stored s v c (.ok ()) (c.setSlot s v)
  | again (hv : isBlank v = false) (h : c.slot s = some v) : Stored s v c (.ok ()) c

theorem setOnce_spec (s : Slot) (v : String) : (setOnce s v true).Ends c (Stored s v c) := by
  simp only [setOnce, ends_bind, ends_failIf, Bool.true_and, Bool.not_eq_true]
  refine ⟨fun hblank => .refused _ (.inl hblank), fun hv => ?_⟩
  simp only [storeOnce, ends_bind, ends_get]
  split
  · rename_i current hslot
    simp only [ends_failIf, not_not]
    refine ⟨fun hne => .refused _ (.inr ⟨current, hslot, hne⟩), ?_⟩
    rintro rfl
    exact .again hv hslot
  · rename_i hslot
    exact .fresh hv hslot

/-- Storing the round-1 data and then failing on the refund address is the one way to fail with
    an effect. -/
theorem whole_storeParty {s refund : Slot}
    (hother : ∀ v, (c.setSlot s v).slot refund = c.slot refund) (info : String)
    (incoming : Option String) :
    Whole (setOnce s info true >>= fun _ => setRefundOnce keccak256 refund incoming) c ↔
      ¬ (isBlank info = false ∧ c.slot s = none ∧ RefundRefused keccak256 c refund incoming) := by
  cases hcall : (setOnce s info true).call c with
  | mk r c' =>
    have hspec : Stored s info c r c' := by
      have h := setOnce_spec (c := c) s info
      rwa [Ends, hcall] at h
    cases hspec with
    | refused e h =>
      refine iff_of_true (whole_failed_bind hcall) ?_
      rintro ⟨hblank, hslot, -⟩
      rcases h with h | ⟨current, hcurrent, -⟩
      · rw [h] at hblank
        cases hblank
      · rw [hslot] at hcurrent
        cases hcurrent
    | again hv h =>
      refine iff_of_true ((whole_idle_bind hcall).mpr (atomic_setRefundOnce refund incoming c)) ?_
      rintro ⟨-, hslot, -⟩
      rw [hslot] at h
      cases h
    | fresh hv h =>
      rw [whole_write_bind hcall (setSlot_ne h) (atomic_setRefundOnce refund incoming),
        succeeds_setRefundOnce]
      simp only [RefundRefused, hother, hv, h, true_and]

theorem whole_submitRound1 (who : EscrowParticipant) (info : String) (refund : Option String) :
    Whole (submitRound1 keccak256 who info refund) c ↔
      ¬ HalfDone keccak256 c (.call (.submitRound1 who info refund)) := by
  have hstore : Whole (storeRound1 keccak256 info refund who) c ↔
      ¬ (who ≠ .arbiter ∧ isBlank info = false ∧ c.slot (.xmrR1 who) = none
        ∧ RefundRefused keccak256 c (refundSlot who) refund) := by
    cases who with
    | buyer => simpa [storeRound1, refundSlot] using whole_storeParty (fun _ => rfl) info refund
    | seller => simpa [storeRound1, refundSlot] using whole_storeParty (fun _ => rfl) info refund
    | arbiter => exact iff_of_true (fun _ _ => rfl) fun h => h.1 rfl
  have htotal : ∀ prev, ∀ _ : Unit, Total (do
      setState .xmrMsigR1
      transition prev "xmr_r1") :=
    fun _ _ => Total.bind (total_setState _) fun _ => total_transition _ _
  unfold submitRound1 HalfDone
  rw [whole_requireXmr_bind, whole_get_bind, whole_ensureStateIn_bind,
    whole_bind_total (htotal _), hstore]
  simp only [not_and]

theorem atomic_recordDisputeReason (reason : Option String) :
    Atomic (recordDisputeReason reason) := by
  cases reason with
  | none => exact Atomic.of_reads (FrameOn.pure ())
  | some incoming =>
    refine Atomic.reads_bind FrameOn.get fun c => ?_
    cases c.disputeReason with
    | some current => exact Atomic.of_reads (FrameOn.failIf _ _)
    | none => exact Atomic.of_total (Total.modify _)

theorem succeeds_recordDisputeReason (reason : Option String) :
    Succeeds (recordDisputeReason reason) c ↔
      ¬ ∃ incoming ∈ reason, ∃ current ∈ c.disputeReason, current ≠ incoming := by
  unfold Succeeds
  cases reason with
  | none => simp [recordDisputeReason]
  | some incoming =>
    simp only [recordDisputeReason, ends_bind, ends_get]
    cases hreason : c.disputeReason with
    | some current => simp
    | none => simp

theorem whole_openDispute (now : Int) (who : EscrowParticipant) (reason : Option String) :
    Whole (openDispute now who reason) c ↔
      ¬ HalfDone keccak256 c (.call (.openDispute now who reason)) := by
  have htotal : ∀ prev, ∀ _ : Unit, Total (do
      doIf (← get).disputeOpenedAt.isNone (modify fun c => { c with disputeOpenedAt := some now })
      setState .dispute
      transition prev "dispute") := by
    intro prev _
    refine Total.bind Total.get fun _ => Total.bind (Total.doIf (Total.modify _)) fun _ => ?_
    exact Total.bind (total_setState _) fun _ => total_transition _ _
  have hrecord : ∀ prev (normalized : Option String), Whole (do
      recordDisputeOpener who
      recordDisputeReason normalized
      doIf (← get).disputeOpenedAt.isNone (modify fun c => { c with disputeOpenedAt := some now })
      setState .dispute
      transition prev "dispute") c ↔
      ¬ (c.disputeOpenedBy = none
        ∧ ∃ incoming ∈ normalized, ∃ current ∈ c.disputeReason, current ≠ incoming) := by
    intro prev normalized
    have hatomic := fun _ : Unit =>
      Atomic.bind_total (atomic_recordDisputeReason normalized) (htotal prev)
    cases hopener : c.disputeOpenedBy with
    | none =>
      have hcall : (recordDisputeOpener who).call c
          = (.ok (), { c with disputeOpenedBy := some who }) := by
        simp only [recordDisputeOpener, call_get_bind, hopener]
        rfl
      have hne : { c with disputeOpenedBy := some who } ≠ c := by
        intro heq
        have hsome := congrArg EscrowContract.disputeOpenedBy heq
        rw [hopener] at hsome
        cases hsome
      rw [whole_write_bind hcall hne (hatomic ()), succeeds_bind_total (htotal prev),
        succeeds_recordDisputeReason]
      simp only [true_and]
    | some existing =>
      refine iff_of_true ?_ (fun h => nomatch h.1)
      by_cases hsame : existing = who
      · have hcall : (recordDisputeOpener who).call c = (.ok (), c) := by
          simp only [recordDisputeOpener, call_get_bind, hopener, hsame, ne_eq, not_true, failIf]
          rfl
        exact (whole_idle_bind hcall).mpr (hatomic () c)
      · have hcall : (recordDisputeOpener who).call c
            = (.error (.conflict "dispute already opened by a different participant"), c) := by
          simp only [recordDisputeOpener, call_get_bind, hopener, ne_eq, hsame, not_false_eq_true,
            failIf]
          rfl
        exact whole_failed_bind hcall
  unfold openDispute HalfDone
  rw [whole_get_bind, whole_ensureStateIn_bind, whole_reads_bind (reads_normalizeDisputeReason _)]
  simp only [hrecord]
  cases reason with
  | none => simp [normalizeDisputeReason]
  | some raw =>
    simp only [normalizeDisputeReason, ends_ite, ends_pure, ends_throw]
    by_cases hempty : trim raw = ""
    · simp [hempty]
    · by_cases hlong : (trim raw).utf8ByteSize > maxDisputeReasonLen
      · simp [hempty, hlong]
      · simp [hempty, hlong, Nat.le_of_not_lt hlong]

theorem succeeds_normalizeDisputeReason (reason : Option String) :
    Succeeds (normalizeDisputeReason reason) c ↔
      ¬ ∃ raw ∈ reason, (trim raw).utf8ByteSize > maxDisputeReasonLen := by
  unfold Succeeds
  cases reason with
  | none => simp [normalizeDisputeReason]
  | some raw =>
    simp only [normalizeDisputeReason, ends_ite, ends_pure, ends_throw]
    by_cases hempty : trim raw = ""
    · simp [hempty]
    · simp [hempty]

theorem whole_importDisputeSnapshot (openedBy : Option EscrowParticipant) (reason : Option String)
    (openedAt : Option Int) :
    Whole (importDisputeSnapshot openedBy reason openedAt) c ↔
      ¬ HalfDone keccak256 c (.importDisputeSnapshot openedBy reason openedAt) := by
  have htotal : ∀ normalized : Option String, Total (do
      modify fun c => { c with disputeReason := normalized }
      modify fun c => { c with disputeOpenedAt := openedAt } : Op Unit) :=
    fun _ => Total.bind (Total.modify _) fun _ => Total.modify _
  have hatomic := fun _ : Unit =>
    Atomic.bind_total (Atomic.of_reads (reads_normalizeDisputeReason reason)) htotal
  have hcall : (modify fun c => { c with disputeOpenedBy := openedBy } : Op Unit).call c
      = (.ok (), { c with disputeOpenedBy := openedBy }) := rfl
  have htime : openedAt.any (· ≤ 0) = true ↔ ¬ ∀ ts ∈ openedAt, 0 < ts := by
    cases openedAt <;> simp
  have hrest : Whole (do
      modify fun c => { c with disputeOpenedBy := openedBy }
      let normalized ← normalizeDisputeReason reason
      modify fun c => { c with disputeReason := normalized }
      modify fun c => { c with disputeOpenedAt := openedAt } : Op Unit) c ↔
      ¬ (openedBy ≠ c.disputeOpenedBy
        ∧ ∃ raw ∈ reason, (trim raw).utf8ByteSize > maxDisputeReasonLen) := by
    by_cases hsame : openedBy = c.disputeOpenedBy
    · subst hsame
      refine iff_of_true ((whole_idle_bind hcall).mpr (hatomic () c)) fun h => h.1 rfl
    · have hne : { c with disputeOpenedBy := openedBy } ≠ c :=
        fun heq => hsame (congrArg EscrowContract.disputeOpenedBy heq)
      rw [whole_write_bind hcall hne (hatomic ()), succeeds_bind_total htotal,
        succeeds_normalizeDisputeReason]
      simp only [ne_eq, hsame, not_false_eq_true, true_and]
  unfold importDisputeSnapshot HalfDone
  rw [whole_reads_bind (FrameOn.failIf _ _), ends_failIf, htime, not_not]
  constructor
  · rintro ⟨-, hok⟩ ⟨hpos, hhalf⟩
    exact hrest.mp (hok hpos () rfl) hhalf
  · intro hnot
    refine ⟨fun _ _ => nofun, fun hpos _ _ => hrest.mpr fun hhalf => hnot ⟨hpos, hhalf⟩⟩

theorem succeeds_validateTxid (v : String) :
    Succeeds (validateTxid v) c ↔ (v.utf8ByteSize = 64 ∧ v.toList.all isAsciiHexdigit) := by
  unfold Succeeds validateTxid
  rw [ends_ite, ends_pure, ends_throw]
  by_cases hvalid : v.utf8ByteSize = 64 ∧ v.toList.all isAsciiHexdigit = true
  · simp [hvalid]
  · simp only [hvalid, false_implies, true_and, not_false_eq_true, forall_const]
    exact iff_of_false (fun h => h _ rfl) id

theorem whole_importSnapshot (o : Outcome) (buyer seller arbiter : Bool) (txid : Option String) :
    Whole (importSnapshot o buyer seller arbiter txid) c ↔
      ¬ (flagged buyer seller arbiter ≠ c.confirmations o ∧ TxidRefused txid) := by
  have hcall : (modify (·.setConfirmations (flagged buyer seller arbiter) o) : Op Unit).call c
      = (.ok (), c.setConfirmations (flagged buyer seller arbiter) o) := rfl
  have hconfirmations : ∀ who, (c.setConfirmations who o).confirmations o = who := by
    intro who
    cases o <;> rfl
  unfold importSnapshot TxidRefused
  cases txid with
  | none =>
    refine iff_of_true (Atomic.of_total ?_ c) (by simp)
    exact Total.bind (Total.modify _) fun _ => Total.modify _
  | some v =>
    have htotal : ∀ _ : Unit, Total (modify (·.setTxid (some v) o) : Op Unit) :=
      fun _ => Total.modify _
    have hatomic : Atomic (do
        validateTxid v
        modify (·.setTxid (some v) o) : Op Unit) :=
      Atomic.bind_total (Atomic.of_reads (reads_validateTxid v)) htotal
    by_cases hsame : flagged buyer seller arbiter = c.confirmations o
    · have hidle : c.setConfirmations (flagged buyer seller arbiter) o = c := by
        rw [hsame]
        cases o <;> rfl
      rw [hidle] at hcall
      exact iff_of_true ((whole_idle_bind hcall).mpr (hatomic c)) fun h => h.1 hsame
    · have hne : c.setConfirmations (flagged buyer seller arbiter) o ≠ c := by
        intro heq
        have hwho := hconfirmations (flagged buyer seller arbiter)
        rw [heq] at hwho
        exact hsame hwho.symm
      rw [whole_write_bind hcall hne hatomic, succeeds_bind_total htotal, succeeds_validateTxid]
      simp [hsame]

/-- **A failed operation leaves the contract as it was, except where it is half done**: for every
    contract and every operation, the imports included. -/
theorem failed_unchanged_iff (keccak256 : List UInt8 → List UInt8) (c : EscrowContract)
    (op : PublicOp) :
    (∀ e, ((op.method keccak256).call c).1 = .error e → (op.method keccak256).after c = c) ↔
      ¬ HalfDone keccak256 c op := by
  show Whole (op.method keccak256) c ↔ _
  cases op with
  | importDisputeSnapshot openedBy reason openedAt =>
    exact whole_importDisputeSnapshot openedBy reason openedAt
  | importReleaseSnapshot buyer seller arbiter txid =>
    exact whole_importSnapshot .release buyer seller arbiter txid
  | importRefundSnapshot buyer seller arbiter txid =>
    exact whole_importSnapshot .refund buyer seller arbiter txid
  | call op =>
    -- nine of the eleven are atomic
    have hatomic : ∀ {α : Type} {m : Op α}, Atomic m → (Whole (silent m) c ↔ ¬ False) :=
      fun h => iff_of_true ((whole_silent _ c).mpr (h c)) not_false
    cases op with
    | setArbiterRound1 info => exact hatomic (atomic_setArbiterRound1 info)
    | submitRound1 who info refund =>
      exact (whole_silent _ c).trans (whole_submitRound1 who info refund)
    | setArbiterRound2 info => exact hatomic (atomic_setArbiterRound info)
    | submitRound2 who info => exact hatomic (atomic_submitRound who info)
    | setArbiterRound3 info => exact hatomic (atomic_setArbiterRound info)
    | submitRound3 who info => exact hatomic (atomic_submitRound who info)
    | setDepositAddress address => exact hatomic (atomic_setDepositAddress keccak256 address)
    | markFunded balance => exact hatomic (atomic_markFunded balance)
    | openDispute now who reason =>
      exact (whole_silent _ c).trans (whole_openDispute now who reason)
    | confirmRelease who txid => exact hatomic (atomic_confirm who txid)
    | confirmRefund who txid => exact hatomic (atomic_confirm who txid)

end

/-- **A failed `submit_round1` has stored the buyer's data**: the refund address is no address. -/
theorem failed_with_effect :
    let c := newXmr 1 "buyer" "seller" "arbiter" 5
    let op := PublicOp.call (.submitRound1 .buyer "info" (some "no address"))
    ((op.method fun _ => []).call c).1
        = .error (.invalidArgument "invalid refund address for refund_address_buyer")
      ∧ c.xmrR1Buyer = none
      ∧ ((op.method fun _ => []).after c).xmrR1Buyer = some "info" := by
  refine ⟨?_, ?_, ?_⟩ <;> rfl

end Nexum.Escrow
