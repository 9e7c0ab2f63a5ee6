import Nexum.Escrow.Atomicity
import Nexum.Lib.Ballot

/-!
# What an operation can do

Three things are said of every operation here, whether it succeeds or stops halfway. **It only
adds** (`Grows`): what is stored in a slot, and what is recorded of a dispute, stays, and what gets
in has been checked. **It moves the contract from one state to the next in one of eight ways**
(`Effect`), each with what must have been there: the rounds before it, the deposit address, the
money. And seen as a ballot between release and refund, **it is one step of that ballot**: only a
confirmation votes, and only the other operations' guards keep them away from a settled contract.

Everything about whole histories follows from these three.
-/

namespace Nexum.Escrow

open Nexum.Lib Nexum.Lib.Method

/-! ## 1. Operations add -/

def Slot.isTxid : Slot → Bool
  | .releaseTxid | .refundTxid => true
  | _ => false

/-- What `validate_txid` takes. -/
def ValidTxid (v : String) : Prop :=
  v.utf8ByteSize = 64 ∧ v.toList.all isAsciiHexdigit = true

/-- A reason as `normalize_dispute_reason` gives it. -/
def Normal (reason : String) : Prop :=
  trim reason = reason ∧ reason ≠ "" ∧ reason.utf8ByteSize ≤ maxDisputeReasonLen

structure Grows (c c' : EscrowContract) : Prop where
  slots : ∀ s v, c.slot s = some v → c'.slot s = some v
  fresh : ∀ s v, c'.slot s = some v → c.slot s = some v ∨ isBlank v = false
  txids : ∀ s v, s.isTxid = true → c'.slot s = some v → c.slot s = some v ∨ ValidTxid v
  opener : ∀ who, c.disputeOpenedBy = some who → c'.disputeOpenedBy = some who
  reason : ∀ text, c.disputeReason = some text → c'.disputeReason = some text
  given : ∀ text, c'.disputeReason = some text → c.disputeReason = some text ∨ Normal text
  openedAt : ∀ ts, c.disputeOpenedAt = some ts → c'.disputeOpenedAt = some ts
  amount : c'.amountAtomic = c.amountAtomic
  asset : c'.asset = c.asset

theorem Grows.refl (c : EscrowContract) : Grows c c where
  slots _ _ h := h
  fresh _ _ h := .inl h
  txids _ _ _ h := .inl h
  opener _ h := h
  reason _ h := h
  given _ h := .inl h
  openedAt _ h := h
  amount := rfl
  asset := rfl

theorem Grows.trans {c₁ c₂ c₃ : EscrowContract} (h : Grows c₁ c₂) (h' : Grows c₂ c₃) :
    Grows c₁ c₃ where
  slots s v hv := h'.slots s v (h.slots s v hv)
  fresh s v hv := by
    rcases h'.fresh s v hv with hv | hv
    · exact h.fresh s v hv
    · exact .inr hv
  txids s v hs hv := by
    rcases h'.txids s v hs hv with hv | hv
    · exact h.txids s v hs hv
    · exact .inr hv
  opener who hwho := h'.opener who (h.opener who hwho)
  reason text htext := h'.reason text (h.reason text htext)
  given text htext := by
    rcases h'.given text htext with htext | htext
    · exact h.given text htext
    · exact .inr htext
  openedAt ts hts := h'.openedAt ts (h.openedAt ts hts)
  amount := h'.amount.trans h.amount
  asset := h'.asset.trans h.asset

section
variable {c : EscrowContract}

theorem slot_setSlot_self (s : Slot) (v : String) : (c.setSlot s v).slot s = some v := by
  unfold EscrowContract.setSlot
  split <;> rfl

theorem slot_setSlot_of_ne {s s' : Slot} (h : s' ≠ s) (v : String) :
    (c.setSlot s v).slot s' = c.slot s' := by
  unfold EscrowContract.setSlot
  split <;> (unfold EscrowContract.slot; split <;> first | rfl | exact absurd rfl h)

theorem slot_setSlot_fresh {s s' : Slot} {v v' : String} {P : Slot → String → Prop} (hP : P s v)
    (h : (c.setSlot s v).slot s' = some v') : c.slot s' = some v' ∨ P s' v' := by
  by_cases hs : s' = s
  · subst hs
    rw [slot_setSlot_self] at h
    cases h
    exact .inr hP
  · rw [slot_setSlot_of_ne hs] at h
    exact .inl h

theorem Grows.setSlot {s : Slot} {v : String} (h : c.slot s = none) (hv : isBlank v = false)
    (htxid : s.isTxid = true → ValidTxid v) : Grows c (c.setSlot s v) where
  slots s' v' hv' := by
    have hne : s' ≠ s := by
      rintro rfl
      rw [h] at hv'
      cases hv'
    rw [slot_setSlot_of_ne hne]
    exact hv'
  fresh s' v' hv' := slot_setSlot_fresh (P := fun _ v => isBlank v = false) hv hv'
  txids s' v' hs' hv' := by
    rcases slot_setSlot_fresh (P := fun s v => s.isTxid = true → ValidTxid v) htxid hv' with h | h
    · exact .inl h
    · exact .inr (h hs')
  opener who hwho := by simpa using hwho
  reason text htext := by simpa using htext
  given text htext := .inl (by simpa using htext)
  openedAt ts hts := by simpa using hts
  amount := by simp
  asset := by simp

end

/-! ## 2. The parts of an operation -/

/-- The contract grows; its state and the votes are the same. -/
structure Added (c c' : EscrowContract) : Prop where
  grows : Grows c c'
  state : c'.state = c.state
  votes : c'.confirmations = c.confirmations

theorem Added.refl (c : EscrowContract) : Added c c := ⟨.refl c, rfl, rfl⟩

def Within {α : Type} (m : Op α) : Prop :=
  ∀ c, m.Ends c fun _ c' => Added c c'

theorem Within.of_reads {α : Type} {m : Op α} (h : Reads m) : Within m :=
  fun c => (h c trivial).mono fun _ _ hc => by
    obtain rfl := hc
    exact .refl _

theorem Within.bind {α β : Type} {m : Op α} {f : α → Op β} (hm : Within m)
    (hf : ∀ a, Within (f a)) : Within (m >>= f) := by
  intro c
  refine (hm c).bind ?_ ?_
  · intro a c₁ h₁
    exact (hf a c₁).mono fun _ _ h =>
      ⟨h₁.grows.trans h.grows, h.state.trans h₁.state, h.votes.trans h₁.votes⟩
  · intro e c₁ h
    exact h

theorem within_setOnce (s : Slot) (v : String) (htxid : s.isTxid = true → ValidTxid v) :
    Within (setOnce s v true) := by
  intro c
  refine (setOnce_spec s v).mono fun r c' h => ?_
  cases h with
  | refused e h => exact .refl c
  | fresh hv h =>
    exact ⟨Grows.setSlot h hv htxid, by simp, funext fun o => c.setSlot_confirmations s v o⟩
  | again hv h => exact .refl c

theorem not_blank_of_valid {keccak256 : List UInt8 → List UInt8} {address : String}
    (h : isValidXmrAddress keccak256 address = true) : isBlank address = false := by
  by_contra hblank
  have hempty : trim address = "" := by simpa [isBlank] using hblank
  simp [isValidXmrAddress, hempty] at h

theorem within_setRefundOnce (keccak256 : List UInt8 → List UInt8) {s : Slot}
    (hs : s.isTxid = false) (incoming : Option String) :
    Within (setRefundOnce keccak256 s incoming) := by
  cases incoming with
  | none => exact .of_reads (FrameOn.pure ())
  | some refund =>
    intro c
    unfold setRefundOnce
    dsimp only
    rw [ends_ite, ends_ite]
    refine ⟨fun _ => .refl c, fun _ => ⟨fun _ => .refl c, fun hvalid => ?_⟩⟩
    -- the address is stored as `set_once` would store it
    have hblank := not_blank_of_valid (not_not.mp hvalid)
    have hsame : (setOnce s (trim refund) true).Ends c fun _ c' => Added c c' :=
      within_setOnce s _ (fun h => by rw [hs] at h; cases h) c
    rw [setOnce, ends_bind, ends_failIf] at hsame
    exact hsame.2 (by simp [hblank])

theorem within_recordTxid (s : Slot) (txid : Option String) : Within (recordTxid s txid) := by
  cases txid with
  | none => exact .of_reads (FrameOn.pure ())
  | some v =>
    intro c
    simp only [recordTxid, validateTxid, ends_bind, ends_ite, ends_pure, ends_throw]
    exact ⟨fun hvalid => within_setOnce s v (fun _ => hvalid) c, fun _ => .refl c⟩

theorem within_storeRound1 (keccak256 : List UInt8 → List UInt8) (info : String)
    (refund : Option String) (who : EscrowParticipant) :
    Within (storeRound1 keccak256 info refund who) := by
  cases who with
  | buyer => exact .bind (within_setOnce _ _ nofun) fun _ => within_setRefundOnce _ rfl _
  | seller => exact .bind (within_setOnce _ _ nofun) fun _ => within_setRefundOnce _ rfl _
  | arbiter => exact .of_reads (FrameOn.throw _)

theorem grows_of_slots {c c' : EscrowContract} (hslots : ∀ s, c'.slot s = c.slot s)
    (hopener : ∀ who, c.disputeOpenedBy = some who → c'.disputeOpenedBy = some who)
    (hreason : ∀ text, c.disputeReason = some text → c'.disputeReason = some text)
    (hgiven : ∀ text, c'.disputeReason = some text → c.disputeReason = some text ∨ Normal text)
    (htime : ∀ ts, c.disputeOpenedAt = some ts → c'.disputeOpenedAt = some ts)
    (hamount : c'.amountAtomic = c.amountAtomic) (hasset : c'.asset = c.asset) : Grows c c' where
  slots s _ hv := (hslots s).trans hv
  fresh s _ hv := .inl ((hslots s).symm.trans hv)
  txids s _ _ hv := .inl ((hslots s).symm.trans hv)
  opener := hopener
  reason := hreason
  given := hgiven
  openedAt := htime
  amount := hamount
  asset := hasset

theorem within_recordDisputeOpener (who : EscrowParticipant) :
    Within (recordDisputeOpener who) := by
  intro c
  simp only [recordDisputeOpener, ends_bind, ends_get]
  cases hopener : c.disputeOpenedBy with
  | some existing =>
    rw [ends_failIf]
    exact ⟨fun _ => .refl c, fun _ => .refl c⟩
  | none =>
    refine ⟨grows_of_slots (fun _ => rfl) ?_ (fun _ h => h) (fun _ h => .inl h) (fun _ h => h) rfl
      rfl, rfl, rfl⟩
    intro who' hwho'
    rw [hopener] at hwho'
    cases hwho'

theorem within_recordDisputeReason {reason : Option String}
    (hnormal : ∀ text, reason = some text → Normal text) :
    Within (recordDisputeReason reason) := by
  intro c
  cases reason with
  | none => exact .refl c
  | some incoming =>
    simp only [recordDisputeReason, ends_bind, ends_get]
    cases hreason : c.disputeReason with
    | some current =>
      rw [ends_failIf]
      exact ⟨fun _ => .refl c, fun _ => .refl c⟩
    | none =>
      refine ⟨grows_of_slots (fun _ => rfl) (fun _ h => h) ?_ (fun text h => .inr (hnormal text h))
        (fun _ h => h) rfl rfl, rfl, rfl⟩
      intro text htext
      rw [hreason] at htext
      cases htext

theorem normal_of_normalizeDisputeReason {c : EscrowContract} {reason normalized : Option String}
    (h : (normalizeDisputeReason reason).call c = (.ok normalized, c)) :
    ∀ text, normalized = some text → Normal text := by
  have hends : (normalizeDisputeReason reason).Ends c fun r _ => r = .ok normalized := by
    rw [Ends, h]
  intro text htext
  subst htext
  cases reason with
  | none => cases hends
  | some raw =>
    simp only [normalizeDisputeReason, ends_ite, ends_pure, ends_throw] at hends
    by_cases hempty : trim raw = ""
    · cases hends.1 hempty
    · by_cases hlong : (trim raw).utf8ByteSize > maxDisputeReasonLen
      · cases (hends.2 hempty).1 hlong
      · cases (hends.2 hempty).2 hlong
        exact ⟨trim_trim raw, hempty, Nat.le_of_not_lt hlong⟩

theorem within_recordDisputeTime (now : Int) : Within (do
    doIf (← get).disputeOpenedAt.isNone (modify fun c => { c with disputeOpenedAt := some now })
    : Op Unit) := by
  intro c
  simp only [ends_bind, ends_get, ends_doIf, ends_modify]
  refine ⟨fun hnone => ⟨grows_of_slots (fun _ => rfl) (fun _ h => h) (fun _ h => h)
    (fun _ h => .inl h) ?_ rfl rfl, rfl, rfl⟩, fun _ => .refl c⟩
  intro ts hts
  rw [hts] at hnone
  cases hnone

theorem grows_addConfirmation (c : EscrowContract) (who : EscrowParticipant) (o : Outcome) :
    Grows c (c.addConfirmation who o) := by
  cases o <;> exact grows_of_slots (fun _ => rfl) (fun _ h => h) (fun _ h => h) (fun _ h => .inl h)
    (fun _ h => h) rfl rfl

theorem grows_withState (c : EscrowContract) (s : EscrowState) : Grows c (c.withState s) :=
  grows_of_slots (fun _ => rfl) (fun _ h => h) (fun _ h => h) (fun _ h => .inl h) (fun _ h => h) rfl
    rfl

/-! ## 3. The contract as a ballot -/

/-- The outcome a state stands for, if the escrow has settled. -/
def EscrowState.outcome : EscrowState → Option Outcome
  | .released => some .release
  | .refunded => some .refund
  | _ => none

def EscrowContract.ballot (c : EscrowContract) : Ballot Outcome EscrowParticipant where
  decided := c.state.outcome
  votes := c.confirmations

theorem outcome_eq_release {s : EscrowState} : s.outcome = some .release ↔ s = .released := by
  cases s <;> simp [EscrowState.outcome]

theorem outcome_eq_refund {s : EscrowState} : s.outcome = some .refund ↔ s = .refunded := by
  cases s <;> simp [EscrowState.outcome]

theorem ballot_congr {c c' : EscrowContract} (hstate : c'.state.outcome = c.state.outcome)
    (hvotes : c'.confirmations = c.confirmations) : c'.ballot = c.ballot := by
  simp only [EscrowContract.ballot, hstate, hvotes]

@[simp] theorem withState_confirmations (c : EscrowContract) (s : EscrowState) :
    (c.withState s).confirmations = c.confirmations := by
  funext o
  cases o <;> rfl

theorem ballot_confirm (c : EscrowContract) (who : EscrowParticipant) {o : Outcome}
    {settled : EscrowState} (hs : settled.outcome = some o) :
    (if ((c.addConfirmation who o).confirmations o).card ≥ 2
      then (c.addConfirmation who o).withState settled
      else c.addConfirmation who o).ballot = c.ballot.vote 2 o who := by
  have hvotes : (c.addConfirmation who o).confirmations
      = Function.update c.confirmations o (insert who (c.confirmations o)) := by
    funext o'
    cases o <;> cases o' <;> rfl
  have hmine : (c.addConfirmation who o).confirmations o = insert who (c.confirmations o) := by
    rw [hvotes, Function.update_self]
  have hstate : (c.addConfirmation who o).state = c.state := by cases o <;> rfl
  rw [hmine]
  by_cases h : 2 ≤ (insert who (c.confirmations o)).card
  · have hset : ((c.addConfirmation who o).withState settled).state.outcome = some o := hs
    simp only [ge_iff_le, h, if_true, EscrowContract.ballot, Ballot.vote, withState_confirmations,
      hvotes, hset]
  · simp only [ge_iff_le, h, if_false, EscrowContract.ballot, Ballot.vote, hvotes, hstate]

/-! ## 4. The moves -/

/-- How a contract gets from one state to the next; `r` is what the operation returned. -/
inductive Effect (keccak256 : List UInt8 → List UInt8) (c c' : EscrowContract) :
    EscrowOp → Except MoneroArbitraError Unit → Prop
  | stays {op : EscrowOp} {r : Except MoneroArbitraError Unit} (h : c'.state = c.state) :
      Effect keccak256 c c' op r
  | begun {op : EscrowOp} {r : Except MoneroArbitraError Unit} (h : c.state = .new)
      (h' : c'.state = .xmrMsigR1) : Effect keccak256 c c' op r
  | round2 {op : EscrowOp} {r : Except MoneroArbitraError Unit} (h : c.state = .xmrMsigR1)
      (h' : c'.state = .xmrMsigR2) (hbefore : c'.roundComplete .xmrR1 = true)
      (hmine : (c'.slot (.xmrR2 .arbiter)).isSome = true) : Effect keccak256 c c' op r
  | round3 {op : EscrowOp} {r : Except MoneroArbitraError Unit} (h : c.state = .xmrMsigR2)
      (h' : c'.state = .xmrMsigR3) (hbefore : c'.roundComplete .xmrR2 = true)
      (hmine : (c'.slot (.xmrR3 .arbiter)).isSome = true) : Effect keccak256 c c' op r
  | ready {op : EscrowOp} {r : Except MoneroArbitraError Unit} {address : String}
      (h : c.state = .xmrMsigR3) (h' : c'.state = .ready)
      (hbefore : c'.roundComplete .xmrR3 = true) (haddress : c'.depositAddress = some address)
      (hvalid : isValidXmrAddress keccak256 address = true) : Effect keccak256 c c' op r
  | funded {balance : Nat} (h : c.state = .ready) (h' : c'.state = .funded)
      (hbalance : c.amountAtomic ≤ balance) :
      Effect keccak256 c c' (.markFunded balance) (.ok ())
  | disputed {now : Int} {who : EscrowParticipant} {reason : Option String}
      (h : c.state = .ready ∨ c.state = .funded) (h' : c'.state = .dispute) :
      Effect keccak256 c c' (.openDispute now who reason) (.ok ())
  | settled {op : EscrowOp} {r : Except MoneroArbitraError Unit}
      (h : c.state = .funded ∨ c.state = .dispute)
      (h' : c'.state = .released ∨ c'.state = .refunded) : Effect keccak256 c c' op r

/-- What is said of an operation, however it ends. -/
def Does (keccak256 : List UInt8 → List UInt8) (c : EscrowContract) (op : EscrowOp)
    (r : Except MoneroArbitraError Unit) (c' : EscrowContract) : Prop :=
  Grows c c' ∧ Effect keccak256 c c' op r ∧ Ballot.Step 2 c.ballot c'.ballot

section
variable {keccak256 : List UInt8 → List UInt8} {c : EscrowContract} {op : EscrowOp}

theorem does_of_added {r : Except MoneroArbitraError Unit} {c' : EscrowContract} (h : Added c c') :
    Does keccak256 c op r c' := by
  refine ⟨h.grows, .stays h.state, ?_⟩
  rw [ballot_congr (congrArg _ h.state) h.votes]
  exact .stay

theorem does_of_within {α : Type} {m : Op α} (h : Within m) :
    m.Ends c fun r c' => Does keccak256 c op (r.map fun _ => ()) c' :=
  (h c).mono fun _ _ => does_of_added

theorem does_reads_bind {α β : Type} {m : Op α} {f : α → Op β} (hm : Reads m)
    (hf : ∀ a, m.call c = (.ok a, c) →
      (f a).Ends c fun r c' => Does keccak256 c op (r.map fun _ => ()) c') :
    (m >>= f).Ends c fun r c' => Does keccak256 c op (r.map fun _ => ()) c' := by
  have hs : (m.call c).2 = c := hm c trivial
  rw [ends_bind]
  unfold Ends
  cases hr : (m.call c).1 with
  | error e =>
    rw [hs]
    exact does_of_added (.refl c)
  | ok a =>
    rw [hs]
    exact hf a (Prod.ext hr hs)

theorem state_of_ensureStateIn {allowed : List EscrowState} {name : String} {u : Unit}
    (h : (ensureStateIn allowed name).call c = (.ok u, c)) : c.state ∈ allowed := by
  have hends : (ensureStateIn allowed name).Ends c fun r _ => r = .ok u := by
    rw [Ends, h]
  simp only [ensureStateIn, ends_bind, ends_get, ends_failIf, not_not] at hends
  by_contra hstate
  cases hends.1 hstate

theorem not_of_failIf {p : Prop} [Decidable p] {e : MoneroArbitraError} {u : Unit}
    (h : (failIf p e : Op Unit).call c = (.ok u, c)) : ¬ p := by
  have hends : (failIf p e : Op Unit).Ends c fun r _ => r = .ok u := by
    rw [Ends, h]
  rw [ends_failIf] at hends
  intro hp
  cases hends.1 hp

theorem eq_of_get {c' : EscrowContract} (h : (get : Op EscrowContract).call c = (.ok c', c)) :
    c' = c := by
  cases h
  rfl

theorem step_withState {c₁ : EscrowContract} {next : EscrowState}
    (hvotes : c₁.confirmations = c.confirmations) (hopen : c.state.outcome = none)
    (hnext : next.outcome = none) : Ballot.Step 2 c.ballot (c₁.withState next).ballot := by
  have hsame : (c₁.withState next).ballot = c.ballot :=
    ballot_congr (hnext.trans hopen.symm) ((withState_confirmations c₁ next).trans hvotes)
  rw [hsame]
  exact .stay

/-- **A part that adds, and then the next state.** `R` is what is known after the part. -/
theorem does_move {part : Op Unit} {next prev : EscrowState} {action : String}
    {R : EscrowContract → Prop} (hpart : Within part)
    (hR : part.Ends c fun r c₁ => r = .ok () → R c₁) (hopen : c.state.outcome = none)
    (hnext : next.outcome = none)
    (hmove : ∀ c₁, Grows c c₁ → R c₁ → Effect keccak256 c (c₁.withState next) op (.ok ())) :
    (do
      part
      setState next
      transition prev action).Ends c fun r c' => Does keccak256 c op (r.map fun _ => ()) c' := by
  have hboth : part.Ends c fun r c₁ => Added c c₁ ∧ (r = .ok () → R c₁) := ⟨hpart c, hR⟩
  refine hboth.bind ?_ ?_
  · rintro u c₁ ⟨h, hr⟩
    exact ⟨h.grows.trans (grows_withState c₁ next), hmove c₁ h.grows (hr rfl),
      step_withState h.votes hopen hnext⟩
  · rintro e c₁ ⟨h, -⟩
    exact does_of_added h

theorem holds_of_setOnce (s : Slot) (v : String) :
    (setOnce s v true).Ends c fun r c' => r = .ok () → c'.slot s = some v := by
  refine (setOnce_spec s v).mono fun r c' h hr => ?_
  cases h with
  | refused e h => cases hr
  | fresh hv h => exact slot_setSlot_self s v
  | again hv h => exact h

theorem undecided {allowed : List EscrowState} (h : ∀ s ∈ allowed, s.outcome = none)
    (hstate : c.state ∈ allowed) : c.state.outcome = none :=
  h _ hstate

/-- The first data of a party begin the first round, the others' are added to it. -/
theorem does_round1 {part : Op Unit} {name action : String} (hpart : Within part) :
    (do
      requireXmr "round1"
      let prev := (← get).state
      ensureStateIn [.new, .xmrMsigR1] name
      part
      setState .xmrMsigR1
      transition prev action).Ends c fun r c' => Does keccak256 c op (r.map fun _ => ()) c' := by
  refine does_reads_bind (reads_requireXmr _) fun _ _ => does_reads_bind FrameOn.get fun _ _ =>
    does_reads_bind (reads_ensureStateIn _ _) fun _ hensure => ?_
  have hstate := state_of_ensureStateIn hensure
  refine does_move (R := fun _ => True) hpart (fun _ => trivial) (undecided (by decide) hstate)
    rfl ?_
  intro c₁ hgrows _
  rcases List.mem_pair.mp hstate with h | h
  · exact .begun h rfl
  · exact .stays h.symm

theorem does_setArbiterRound1 (info : String) : (setArbiterRound1 info).Ends c fun r c' =>
    Does keccak256 c op (r.map fun _ => ()) c' :=
  does_round1 (within_setOnce _ _ nofun)

theorem does_submitRound1 (who : EscrowParticipant) (info : String) (refund : Option String) :
    (submitRound1 keccak256 who info refund).Ends c fun r c' =>
      Does keccak256 c op (r.map fun _ => ()) c' :=
  does_round1 (within_storeRound1 _ _ _ _)

theorem Grows.roundComplete {c₁ : EscrowContract} (h : Grows c c₁)
    {round : EscrowParticipant → Slot} (hc : c.roundComplete round = true) :
    c₁.roundComplete round = true := by
  have hsome : ∀ s, (c.slot s).isSome = true → (c₁.slot s).isSome = true := by
    intro s hs
    obtain ⟨v, hv⟩ := Option.isSome_iff_exists.mp hs
    rw [h.slots s v hv]
    rfl
  simp only [EscrowContract.roundComplete, Bool.and_eq_true] at hc ⊢
  exact ⟨⟨hsome _ hc.1.1, hsome _ hc.1.2⟩, hsome _ hc.2⟩

theorem does_setArbiterRound {name opName incomplete : String} {open_ next : EscrowState}
    {before : EscrowParticipant → Slot} {mine : Slot} (info : String) (hs : mine.isTxid = false)
    (hallowed : ∀ s ∈ [open_, next], s.outcome = none)
    (hmove : ∀ c', c.state = open_ → c'.state = next → c'.roundComplete before = true →
      (c'.slot mine).isSome = true → Effect keccak256 c c' op (.ok ())) :
    (setArbiterRound name [open_, next] opName before incomplete mine next info).Ends c fun r c' =>
      Does keccak256 c op (r.map fun _ => ()) c' := by
  refine does_reads_bind (reads_requireXmr _) fun _ _ =>
    does_reads_bind (reads_ensureStateIn _ _) fun _ hensure =>
    does_reads_bind FrameOn.get fun c₀ hget => does_reads_bind (FrameOn.failIf _ _) fun _ hfail =>
    does_reads_bind FrameOn.get fun _ _ => ?_
  obtain rfl := eq_of_get hget
  have hcomplete : c₀.roundComplete before = true := by simpa using not_of_failIf hfail
  have htxid : mine.isTxid = true → ValidTxid info := fun h => by rw [hs] at h; cases h
  have hstate := state_of_ensureStateIn hensure
  refine does_move (within_setOnce _ _ htxid) (holds_of_setOnce _ _) (undecided hallowed hstate)
    (hallowed next (by simp)) ?_
  intro c₁ hgrows hmine
  rcases List.mem_pair.mp hstate with h | h
  · refine hmove _ h rfl (hgrows.roundComplete hcomplete) ?_
    show (c₁.slot mine).isSome = true
    rw [hmine]
    rfl
  · exact .stays h.symm

theorem within_submitRound {name opName arbiterText action : String} {allowed : List EscrowState}
    {round : EscrowParticipant → Slot} (who : EscrowParticipant) (info : String)
    (hs : (round who).isTxid = false) :
    Within (submitRound name allowed opName round arbiterText action who info) :=
  .bind (.of_reads (reads_requireXmr _)) fun _ => .bind (.of_reads FrameOn.get) fun _ =>
    .bind (.of_reads (reads_ensureStateIn _ _)) fun _ =>
    .bind (.of_reads (FrameOn.failIf _ _)) fun _ =>
    .bind (within_setOnce _ _ fun h => by rw [hs] at h; cases h) fun _ =>
    .bind (.of_reads FrameOn.get) fun _ => .of_reads (FrameOn.pure _)

theorem does_setDepositAddress (address : String) :
    (setDepositAddress keccak256 address).Ends c fun r c' =>
      Does keccak256 c op (r.map fun _ => ()) c' := by
  refine does_reads_bind (reads_requireXmr _) fun _ _ =>
    does_reads_bind (reads_ensureStateIn _ _) fun _ hensure =>
    does_reads_bind FrameOn.get fun c₀ hget => does_reads_bind (FrameOn.failIf _ _) fun _ hfail =>
    does_reads_bind (FrameOn.failIf _ _) fun _ hinvalid =>
    does_reads_bind FrameOn.get fun _ _ => ?_
  obtain rfl := eq_of_get hget
  have hcomplete : c₀.roundComplete .xmrR3 = true := by simpa using not_of_failIf hfail
  have hvalid : isValidXmrAddress keccak256 (trim address) = true :=
    not_not.mp (not_of_failIf hinvalid)
  have hstate := state_of_ensureStateIn hensure
  refine does_move (within_setOnce _ _ nofun) (holds_of_setOnce _ _) (undecided (by decide) hstate)
    rfl ?_
  intro c₁ hgrows hmine
  rcases List.mem_pair.mp hstate with h | h
  · exact .ready h rfl (hgrows.roundComplete hcomplete) hmine hvalid
  · exact .stays h.symm

theorem does_markFunded (balance : Nat) : (markFunded balance).Ends c fun r c' =>
    Does keccak256 c (.markFunded balance) (r.map fun _ => ()) c' := by
  refine does_reads_bind FrameOn.get fun _ _ =>
    does_reads_bind (reads_ensureStateIn _ _) fun _ hensure =>
    does_reads_bind FrameOn.get fun c₀ hget =>
    does_reads_bind (FrameOn.failIf _ _) fun _ hfail => ?_
  obtain rfl := eq_of_get hget
  have hstate := List.mem_singleton.mp (state_of_ensureStateIn hensure)
  exact ⟨grows_withState c₀ _, .funded hstate rfl (Nat.le_of_not_lt (not_of_failIf hfail)),
    step_withState rfl (hstate ▸ rfl) rfl⟩

theorem does_openDispute (now : Int) (who : EscrowParticipant) (reason : Option String) :
    (openDispute now who reason).Ends c fun r c' =>
      Does keccak256 c (.openDispute now who reason) (r.map fun _ => ()) c' := by
  refine does_reads_bind FrameOn.get fun prev _ =>
    does_reads_bind (reads_ensureStateIn _ _) fun _ hensure =>
    does_reads_bind (reads_normalizeDisputeReason reason) fun normalized hnormalize => ?_
  have hstate := state_of_ensureStateIn hensure
  have hopen := undecided (by decide) hstate
  simp only [List.mem_cons, List.not_mem_nil, or_false] at hstate
  -- the three records are one part that adds
  let part : Op Unit := do
    recordDisputeOpener who
    recordDisputeReason normalized
    doIf (← get).disputeOpenedAt.isNone (modify fun c => { c with disputeOpenedAt := some now })
  have hpart : Within part :=
    .bind (within_recordDisputeOpener who) fun _ =>
      .bind (within_recordDisputeReason (normal_of_normalizeDisputeReason hnormalize)) fun _ =>
      within_recordDisputeTime now
  have hmove : (part >>= fun _ => setState .dispute >>= fun _ =>
      transition prev.state "dispute").Ends
      c fun r c' => Does keccak256 c (.openDispute now who reason) (r.map fun _ => ()) c' := by
    refine does_move (R := fun _ => True) hpart (fun _ => trivial) hopen rfl ?_
    intro c₁ hgrows _
    rcases hstate with h | h | h
    · exact .disputed (.inl h) rfl
    · exact .disputed (.inr h) rfl
    · exact .stays h.symm
  simpa only [part, bind_assoc] using hmove

theorem does_confirm {o : Outcome} {beaten settled : EscrowState}
    {beatenText opName action : String} {txidSlot : Slot} (hs : settled.outcome = some o)
    (hb : ∀ s : EscrowState, ∀ d ∈ s.outcome, s ≠ beaten → d = o) (who : EscrowParticipant)
    (txid : Option String) :
    (confirm o beaten beatenText opName txidSlot settled action who txid).Ends c fun r c' =>
      Does keccak256 c op (r.map fun _ => ()) c' := by
  refine does_reads_bind FrameOn.get fun c₀ hget =>
    does_reads_bind (FrameOn.failIf _ _) fun _ hfail =>
    does_reads_bind (reads_ensureStateIn _ _) fun _ hensure => ?_
  obtain rfl := eq_of_get hget
  have hstate := state_of_ensureStateIn hensure
  simp only [List.mem_cons, List.not_mem_nil, or_false] at hstate
  have hsettled : settled = .released ∨ settled = .refunded := by
    cases o
    · exact .inl (outcome_eq_release.mp hs)
    · exact .inr (outcome_eq_refund.mp hs)
  refine (within_recordTxid txidSlot txid c₀).bind ?_ fun e c₁ h => does_of_added h
  intro _ c₁ h
  have hgrows := h.grows.trans (grows_addConfirmation c₁ who o)
  have hsame : (c₁.addConfirmation who o).state = c₀.state := by cases o <;> exact h.state
  have hstep : Ballot.Step 2 c₀.ballot (c₀.ballot.vote 2 o who) :=
    .vote o who fun d hd => hb c₀.state d hd (not_of_failIf hfail)
  rw [← ballot_congr (congrArg _ h.state) h.votes, ← ballot_confirm c₁ who hs,
    ballot_congr (congrArg _ h.state) h.votes] at hstep
  simp only [transition, setState, ends_bind, ends_get, ends_doIf, ends_modify, ends_pure]
  refine ⟨fun hmade => ⟨hgrows.trans (grows_withState _ settled), ?_, ?_⟩,
    fun hnot => ⟨hgrows, .stays hsame, ?_⟩⟩
  · rcases hstate with h | h | h
    · exact .settled (.inl h) hsettled
    · exact .settled (.inr h) hsettled
    · exact .stays h.symm
  · rwa [if_pos hmade] at hstep
  · rwa [if_neg hnot] at hstep

/-- **Every operation, however it ends.** -/
theorem method_does (keccak256 : List UInt8 → List UInt8) (c : EscrowContract) (op : EscrowOp) :
    (op.method keccak256).Ends c (Does keccak256 c op) := by
  cases op with
  | setArbiterRound1 info => exact (ends_silent ..).mpr (does_setArbiterRound1 info)
  | submitRound1 who info refund =>
    exact (ends_silent ..).mpr (does_submitRound1 who info refund)
  | setArbiterRound2 info =>
    exact (ends_silent ..).mpr (does_setArbiterRound info rfl (by decide) fun _ => .round2)
  | submitRound2 who info =>
    exact (ends_silent ..).mpr (does_of_within (within_submitRound who info rfl))
  | setArbiterRound3 info =>
    exact (ends_silent ..).mpr (does_setArbiterRound info rfl (by decide) fun _ => .round3)
  | submitRound3 who info =>
    exact (ends_silent ..).mpr (does_of_within (within_submitRound who info rfl))
  | setDepositAddress address => exact (ends_silent ..).mpr (does_setDepositAddress address)
  | markFunded balance => exact (ends_silent ..).mpr (does_markFunded balance)
  | openDispute now who reason =>
    exact (ends_silent ..).mpr (does_openDispute now who reason)
  | confirmRelease who txid =>
    have hbeaten : ∀ s : EscrowState, ∀ d ∈ s.outcome, s ≠ .refunded → d = .release := by
      intro s
      cases s <;> simp [EscrowState.outcome]
    exact (ends_silent ..).mpr (does_confirm rfl hbeaten who txid)
  | confirmRefund who txid =>
    have hbeaten : ∀ s : EscrowState, ∀ d ∈ s.outcome, s ≠ .released → d = .refund := by
      intro s
      cases s <;> simp [EscrowState.outcome]
    exact (ends_silent ..).mpr (does_confirm rfl hbeaten who txid)

end

/-- What the operation returned. -/
def EscrowOp.result (keccak256 : List UInt8 → List UInt8) (c : EscrowContract) (op : EscrowOp) :
    Except MoneroArbitraError Unit :=
  ((op.method keccak256).call c).1

/-- **One step of a history.** -/
theorem apply_does (keccak256 : List UInt8 → List UInt8) (c : EscrowContract) (op : EscrowOp) :
    Does keccak256 c op (op.result keccak256 c) (op.apply keccak256 c) :=
  method_does keccak256 c op

end Nexum.Escrow
