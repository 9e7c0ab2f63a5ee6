import Nexum.Escrow.Address
import Nexum.Lib.Method
import Mathlib.Data.Finset.Card

/-!
# The escrow contract

`EscrowContract` is the state machine of one escrow: three rounds of multisig set-up, a deposit
address, funding, an optional dispute, and the two ways it can settle. Every operation is a
`Method`: it may fail, and what it wrote before failing stays written — `submit_round1` can
store the buyer's round-1 data and then fail on the refund address, `open_dispute` can record
who opened the dispute and then fail on the reason.

The text columns that are written at most once are named by `Slot`, so that `set_once` and
`set_refund_once` are one function each, as in the source; `label` is the name the error texts
use for the column.
-/

namespace Nexum.Escrow

open Nexum.Lib Nexum.Lib.Method

/-! ## 1. The record -/

inductive EscrowState
  | new | xmrMsigR1 | xmrMsigR2 | xmrMsigR3 | ready | funded | released | refunded | dispute
  | closed
  deriving DecidableEq

/-- The `Debug` rendering of a state, as error texts quote it. -/
def EscrowState.debug : EscrowState → String
  | .new => "New"
  | .xmrMsigR1 => "XmrMsigR1"
  | .xmrMsigR2 => "XmrMsigR2"
  | .xmrMsigR3 => "XmrMsigR3"
  | .ready => "Ready"
  | .funded => "Funded"
  | .released => "Released"
  | .refunded => "Refunded"
  | .dispute => "Dispute"
  | .closed => "Closed"

inductive Asset
  | xmr | btc
  deriving DecidableEq

inductive EscrowParticipant
  | buyer | seller | arbiter
  deriving DecidableEq

inductive MoneroArbitraError
  | invalidArgument (text : String)
  | conflict (text : String)
  | missingData (text : String)
  | invalidTxid
  | insufficientBalance (available needed : Nat)
  deriving DecidableEq

structure EscrowTransition where
  from_ : EscrowState
  to_ : EscrowState
  action : String
  deriving DecidableEq

structure EscrowContract where
  id : Nat
  asset : Asset
  state : EscrowState
  buyerNick : String
  sellerNick : String
  arbiterNick : String
  amountAtomic : Nat
  memo : Option String
  refundAddressBuyer : Option String
  refundAddressSeller : Option String
  xmrR1Buyer : Option String
  xmrR1Seller : Option String
  xmrR1Arbiter : Option String
  xmrR2Buyer : Option String
  xmrR2Seller : Option String
  xmrR2Arbiter : Option String
  xmrR3Buyer : Option String
  xmrR3Seller : Option String
  xmrR3Arbiter : Option String
  depositAddress : Option String
  releaseTxid : Option String
  refundTxid : Option String
  disputeOpenedBy : Option EscrowParticipant
  disputeReason : Option String
  disputeOpenedAt : Option Int
  releaseConfirmations : Finset EscrowParticipant
  refundConfirmations : Finset EscrowParticipant
  deriving DecidableEq

def newXmr (id : Nat) (buyerNick sellerNick arbiterNick : String) (amountAtomic : Nat) :
    EscrowContract where
  id := id
  asset := .xmr
  state := .new
  buyerNick := buyerNick
  sellerNick := sellerNick
  arbiterNick := arbiterNick
  amountAtomic := amountAtomic
  memo := none
  refundAddressBuyer := none
  refundAddressSeller := none
  xmrR1Buyer := none
  xmrR1Seller := none
  xmrR1Arbiter := none
  xmrR2Buyer := none
  xmrR2Seller := none
  xmrR2Arbiter := none
  xmrR3Buyer := none
  xmrR3Seller := none
  xmrR3Arbiter := none
  depositAddress := none
  releaseTxid := none
  refundTxid := none
  disputeOpenedBy := none
  disputeReason := none
  disputeOpenedAt := none
  releaseConfirmations := ∅
  refundConfirmations := ∅

/-- The two ways an escrow can settle. -/
inductive Outcome
  | release | refund
  deriving DecidableEq

/-! ## 2. The columns written at most once -/

inductive Slot
  | xmrR1 (who : EscrowParticipant)
  | xmrR2 (who : EscrowParticipant)
  | xmrR3 (who : EscrowParticipant)
  | refundAddressBuyer
  | refundAddressSeller
  | depositAddress
  | releaseTxid
  | refundTxid
  deriving DecidableEq

def Slot.label : Slot → String
  | .xmrR1 .buyer => "xmr_r1_buyer"
  | .xmrR1 .seller => "xmr_r1_seller"
  | .xmrR1 .arbiter => "xmr_r1_arbiter"
  | .xmrR2 .buyer => "xmr_r2_buyer"
  | .xmrR2 .seller => "xmr_r2_seller"
  | .xmrR2 .arbiter => "xmr_r2_arbiter"
  | .xmrR3 .buyer => "xmr_r3_buyer"
  | .xmrR3 .seller => "xmr_r3_seller"
  | .xmrR3 .arbiter => "xmr_r3_arbiter"
  | .refundAddressBuyer => "refund_address_buyer"
  | .refundAddressSeller => "refund_address_seller"
  | .depositAddress => "deposit_address"
  | .releaseTxid => "release_txid"
  | .refundTxid => "refund_txid"

namespace EscrowContract

def slot (c : EscrowContract) : Slot → Option String
  | .xmrR1 .buyer => c.xmrR1Buyer
  | .xmrR1 .seller => c.xmrR1Seller
  | .xmrR1 .arbiter => c.xmrR1Arbiter
  | .xmrR2 .buyer => c.xmrR2Buyer
  | .xmrR2 .seller => c.xmrR2Seller
  | .xmrR2 .arbiter => c.xmrR2Arbiter
  | .xmrR3 .buyer => c.xmrR3Buyer
  | .xmrR3 .seller => c.xmrR3Seller
  | .xmrR3 .arbiter => c.xmrR3Arbiter
  | .refundAddressBuyer => c.refundAddressBuyer
  | .refundAddressSeller => c.refundAddressSeller
  | .depositAddress => c.depositAddress
  | .releaseTxid => c.releaseTxid
  | .refundTxid => c.refundTxid

def setSlot (c : EscrowContract) (s : Slot) (v : String) : EscrowContract :=
  match s with
  | .xmrR1 .buyer => { c with xmrR1Buyer := some v }
  | .xmrR1 .seller => { c with xmrR1Seller := some v }
  | .xmrR1 .arbiter => { c with xmrR1Arbiter := some v }
  | .xmrR2 .buyer => { c with xmrR2Buyer := some v }
  | .xmrR2 .seller => { c with xmrR2Seller := some v }
  | .xmrR2 .arbiter => { c with xmrR2Arbiter := some v }
  | .xmrR3 .buyer => { c with xmrR3Buyer := some v }
  | .xmrR3 .seller => { c with xmrR3Seller := some v }
  | .xmrR3 .arbiter => { c with xmrR3Arbiter := some v }
  | .refundAddressBuyer => { c with refundAddressBuyer := some v }
  | .refundAddressSeller => { c with refundAddressSeller := some v }
  | .depositAddress => { c with depositAddress := some v }
  | .releaseTxid => { c with releaseTxid := some v }
  | .refundTxid => { c with refundTxid := some v }

section
variable (c : EscrowContract) (s : Slot) (v : String)

@[simp] theorem setSlot_asset : (c.setSlot s v).asset = c.asset := by
  unfold setSlot
  split <;> rfl

@[simp] theorem setSlot_state : (c.setSlot s v).state = c.state := by
  unfold setSlot
  split <;> rfl

@[simp] theorem setSlot_amountAtomic : (c.setSlot s v).amountAtomic = c.amountAtomic := by
  unfold setSlot
  split <;> rfl

@[simp] theorem setSlot_disputeOpenedBy : (c.setSlot s v).disputeOpenedBy = c.disputeOpenedBy := by
  unfold setSlot
  split <;> rfl

@[simp] theorem setSlot_disputeReason : (c.setSlot s v).disputeReason = c.disputeReason := by
  unfold setSlot
  split <;> rfl

@[simp] theorem setSlot_disputeOpenedAt : (c.setSlot s v).disputeOpenedAt = c.disputeOpenedAt := by
  unfold setSlot
  split <;> rfl

end

def withState (c : EscrowContract) (s : EscrowState) : EscrowContract := { c with state := s }

def confirmations (c : EscrowContract) : Outcome → Finset EscrowParticipant
  | .release => c.releaseConfirmations
  | .refund => c.refundConfirmations

@[simp] theorem setSlot_confirmations (c : EscrowContract) (s : Slot) (v : String) (o : Outcome) :
    (c.setSlot s v).confirmations o = c.confirmations o := by
  unfold setSlot
  cases o <;> split <;> rfl

def addConfirmation (c : EscrowContract) (who : EscrowParticipant) : Outcome → EscrowContract
  | .release => { c with releaseConfirmations := insert who c.releaseConfirmations }
  | .refund => { c with refundConfirmations := insert who c.refundConfirmations }

def setConfirmations (c : EscrowContract) (who : Finset EscrowParticipant) :
    Outcome → EscrowContract
  | .release => { c with releaseConfirmations := who }
  | .refund => { c with refundConfirmations := who }

def setTxid (c : EscrowContract) (txid : Option String) : Outcome → EscrowContract
  | .release => { c with releaseTxid := txid }
  | .refund => { c with refundTxid := txid }

/-- All three parties' data of one round is stored. -/
def roundComplete (c : EscrowContract) (round : EscrowParticipant → Slot) : Bool :=
  (c.slot (round .buyer)).isSome && (c.slot (round .seller)).isSome
    && (c.slot (round .arbiter)).isSome

end EscrowContract

/-! ## 3. The shared checks -/

abbrev Op (α : Type) := Method EscrowContract MoneroArbitraError α

def requireXmr (what : String) : Op Unit := do
  let c ← get
  failIf (c.asset ≠ .xmr) (.invalidArgument s!"{what} only valid for XMR")

def ensureStateIn (allowed : List EscrowState) (op : String) : Op Unit := do
  let c ← get
  failIf (c.state ∉ allowed) (.invalidArgument s!"bad state for {op}: {c.state.debug}")

/-- Store `incoming` in an empty slot; a slot that holds something else is a conflict, one that
    already holds the same text is left alone. -/
def storeOnce (s : Slot) (incoming : String) : Op Unit := do
  let c ← get
  match c.slot s with
  | some current =>
    failIf (current ≠ incoming) (.conflict s!"different value already stored for {s.label}")
  | none => set (c.setSlot s incoming)

/-- `set_once`; every caller asks for a non-empty text. -/
def setOnce (s : Slot) (incoming : String) (requireNonEmpty : Bool) : Op Unit := do
  failIf (requireNonEmpty && isBlank incoming) (.invalidArgument s!"{s.label} cannot be empty")
  storeOnce s incoming

def setRefundOnce (keccak256 : List UInt8 → List UInt8) (s : Slot) (incoming : Option String) :
    Op Unit := do
  match incoming with
  | none => pure ()
  | some refund =>
    let normalized := trim refund
    if normalized = "" then pure ()
    else if ¬ isValidXmrAddress keccak256 normalized then
      throw (.invalidArgument s!"invalid refund address for {s.label}")
    else storeOnce s normalized

def validateTxid (txid : String) : Op Unit :=
  if txid.utf8ByteSize = 64 ∧ txid.toList.all isAsciiHexdigit then pure ()
  else throw .invalidTxid

def maxDisputeReasonLen : Nat := 2000

def normalizeDisputeReason (reason : Option String) : Op (Option String) :=
  match reason with
  | none => pure none
  | some rawReason =>
    let trimmed := trim rawReason
    if trimmed = "" then pure none
    else if trimmed.utf8ByteSize > maxDisputeReasonLen then
      throw (.invalidArgument s!"reason too long (max {maxDisputeReasonLen})")
    else pure (some trimmed)

/-- The transition record an operation returns: from `prev` to the state it is in now. -/
def transition (prev : EscrowState) (action : String) : Op EscrowTransition := do
  let c ← get
  pure ⟨prev, c.state, action⟩

def setState (s : EscrowState) : Op Unit :=
  modify (·.withState s)

/-! ## 4. The set-up rounds -/

def setArbiterRound1 (multisigInfo : String) : Op EscrowTransition := do
  requireXmr "round1"
  let prev := (← get).state
  ensureStateIn [.new, .xmrMsigR1] "set_arbiter_round1"
  setOnce (.xmrR1 .arbiter) multisigInfo true
  setState .xmrMsigR1
  transition prev "xmr_r1_arbiter"

/-- The `match who` of `submit_round1`. -/
def storeRound1 (keccak256 : List UInt8 → List UInt8) (multisigInfo : String)
    (refundAddress : Option String) : EscrowParticipant → Op Unit
  | .buyer => do
    setOnce (.xmrR1 .buyer) multisigInfo true
    setRefundOnce keccak256 .refundAddressBuyer refundAddress
  | .seller => do
    setOnce (.xmrR1 .seller) multisigInfo true
    setRefundOnce keccak256 .refundAddressSeller refundAddress
  | .arbiter => throw (.invalidArgument "arbiter should use set_arbiter_round1")

def submitRound1 (keccak256 : List UInt8 → List UInt8) (who : EscrowParticipant)
    (multisigInfo : String) (refundAddress : Option String) : Op EscrowTransition := do
  requireXmr "round1"
  let prev := (← get).state
  ensureStateIn [.new, .xmrMsigR1] "submit_round1"
  storeRound1 keccak256 multisigInfo refundAddress who
  setState .xmrMsigR1
  transition prev "xmr_r1"

/-- What `set_arbiter_round2` and `set_arbiter_round3` share: the round before must be complete,
    and storing the arbiter's data opens the round. -/
def setArbiterRound (name : String) (allowed : List EscrowState) (op : String)
    (before : EscrowParticipant → Slot) (incomplete : String) (mine : Slot)
    (next : EscrowState) (multisigInfo : String) : Op EscrowTransition := do
  requireXmr name
  ensureStateIn allowed op
  failIf (¬ (← get).roundComplete before) (.missingData incomplete)
  let prev := (← get).state
  setOnce mine multisigInfo true
  setState next
  transition prev mine.label

def setArbiterRound2 (multisigInfo : String) : Op EscrowTransition :=
  setArbiterRound "round2" [.xmrMsigR1, .xmrMsigR2] "set_arbiter_round2" .xmrR1
    "round1 data incomplete" (.xmrR2 .arbiter) .xmrMsigR2 multisigInfo

def setArbiterRound3 (multisigInfo : String) : Op EscrowTransition :=
  setArbiterRound "round3" [.xmrMsigR2, .xmrMsigR3] "set_arbiter_round3" .xmrR2
    "round2 data incomplete" (.xmrR3 .arbiter) .xmrMsigR3 multisigInfo

/-- What `submit_round2` and `submit_round3` share: buyer and seller fill their slot of an open
    round, the arbiter is turned away. -/
def submitRound (name : String) (allowed : List EscrowState) (op : String)
    (round : EscrowParticipant → Slot) (arbiterText : String) (action : String)
    (who : EscrowParticipant) (multisigInfo : String) : Op EscrowTransition := do
  requireXmr name
  let prev := (← get).state
  ensureStateIn allowed op
  failIf (who = .arbiter) (.invalidArgument arbiterText)
  setOnce (round who) multisigInfo true
  transition prev action

def submitRound2 (who : EscrowParticipant) (multisigInfo : String) : Op EscrowTransition :=
  submitRound "round2" [.xmrMsigR2] "submit_round2" .xmrR2
    "arbiter should use set_arbiter_round2" "xmr_r2" who multisigInfo

def submitRound3 (who : EscrowParticipant) (multisigInfo : String) : Op EscrowTransition :=
  submitRound "round3" [.xmrMsigR3] "submit_round3" .xmrR3
    "arbiter should use set_arbiter_round3" "xmr_r3" who multisigInfo

def setDepositAddress (keccak256 : List UInt8 → List UInt8) (address : String) :
    Op EscrowTransition := do
  requireXmr "deposit address"
  ensureStateIn [.xmrMsigR3, .ready] "set_deposit_address"
  failIf (¬ (← get).roundComplete .xmrR3) (.missingData "round3 data incomplete")
  let normalized := trim address
  failIf (¬ isValidXmrAddress keccak256 normalized) (.invalidArgument "invalid deposit address")
  let prev := (← get).state
  setOnce .depositAddress normalized true
  setState .ready
  transition prev "deposit_address"

/-! ## 5. Funding, dispute, settlement -/

def markFunded (unlockedBalance : Nat) : Op EscrowTransition := do
  let prev := (← get).state
  ensureStateIn [.ready] "mark_funded"
  let needed := (← get).amountAtomic
  failIf (unlockedBalance < needed) (.insufficientBalance unlockedBalance needed)
  setState .funded
  transition prev "funded"

/-- Record who opened the dispute, or check that it is the same party again. -/
def recordDisputeOpener (who : EscrowParticipant) : Op Unit := do
  match (← get).disputeOpenedBy with
  | some existing =>
    failIf (existing ≠ who) (.conflict "dispute already opened by a different participant")
  | none => modify fun c => { c with disputeOpenedBy := some who }

def recordDisputeReason (reason : Option String) : Op Unit := do
  match reason with
  | none => pure ()
  | some incoming =>
    match (← get).disputeReason with
    | some current =>
      failIf (current ≠ incoming) (.conflict "dispute reason already set to a different value")
    | none => modify fun c => { c with disputeReason := some incoming }

/-- `now` is what the clock reads at the call. -/
def openDispute (now : Int) (who : EscrowParticipant) (reason : Option String) :
    Op EscrowTransition := do
  let prev := (← get).state
  ensureStateIn [.ready, .funded, .dispute] "open_dispute"
  let normalizedReason ← normalizeDisputeReason reason
  recordDisputeOpener who
  recordDisputeReason normalizedReason
  doIf (← get).disputeOpenedAt.isNone (modify fun c => { c with disputeOpenedAt := some now })
  setState .dispute
  transition prev "dispute"

/-- The txid of a settlement, when the caller gives one. -/
def recordTxid (s : Slot) (txid : Option String) : Op Unit :=
  match txid with
  | none => pure ()
  | some v => do
    validateTxid v
    setOnce s v true

/-- What `confirm_release` and `confirm_refund` share: the other outcome's state is refused with
    its own text, the txid is stored, and the second distinct party settles the escrow. -/
def confirm (o : Outcome) (beaten : EscrowState) (beatenText op : String) (txidSlot : Slot)
    (settled : EscrowState) (action : String) (who : EscrowParticipant) (txid : Option String) :
    Op (EscrowTransition × Nat) := do
  let prev := (← get).state
  failIf (prev = beaten) (.invalidArgument beatenText)
  ensureStateIn [.funded, .dispute, settled] op
  recordTxid txidSlot txid
  modify (·.addConfirmation who o)
  doIf (((← get).confirmations o).card ≥ 2) (setState settled)
  let t ← transition prev action
  pure (t, ((← get).confirmations o).card)

def confirmRelease (who : EscrowParticipant) (txid : Option String) :
    Op (EscrowTransition × Nat) :=
  confirm .release .refunded "escrow already refunded" "confirm_release" .releaseTxid .released
    "release_confirm" who txid

def confirmRefund (who : EscrowParticipant) (txid : Option String) :
    Op (EscrowTransition × Nat) :=
  confirm .refund .released "escrow already released" "confirm_refund" .refundTxid .refunded
    "refund_confirm" who txid

/-! ## 6. Snapshots -/

/-- The texts of a dispute are replaced by those of a snapshot. -/
def importDisputeSnapshot (openedBy : Option EscrowParticipant) (reason : Option String)
    (openedAt : Option Int) : Op Unit := do
  failIf (openedAt.any (· ≤ 0)) (.invalidArgument "dispute_opened_at must be > 0")
  modify fun c => { c with disputeOpenedBy := openedBy }
  let normalized ← normalizeDisputeReason reason
  modify fun c => { c with disputeReason := normalized }
  modify fun c => { c with disputeOpenedAt := openedAt }

def EscrowContract.disputeSnapshot (c : EscrowContract) :=
  (c.disputeOpenedBy, c.disputeReason, c.disputeOpenedAt)

/-- The parties whose flags are set. -/
def flagged (buyer seller arbiter : Bool) : Finset EscrowParticipant :=
  (if buyer then {.buyer} else ∅) ∪ (if seller then {.seller} else ∅)
    ∪ (if arbiter then {.arbiter} else ∅)

/-- What `import_release_snapshot` and `import_refund_snapshot` share: the confirmations are
    replaced, and after that the txid is looked at. -/
def importSnapshot (o : Outcome) (buyer seller arbiter : Bool) (txid : Option String) :
    Op Unit := do
  modify (·.setConfirmations (flagged buyer seller arbiter) o)
  match txid with
  | some v => do
    validateTxid v
    modify (·.setTxid (some v) o)
  | none => modify (·.setTxid none o)

def importReleaseSnapshot (buyer seller arbiter : Bool) (txid : Option String) : Op Unit :=
  importSnapshot .release buyer seller arbiter txid

def importRefundSnapshot (buyer seller arbiter : Bool) (txid : Option String) : Op Unit :=
  importSnapshot .refund buyer seller arbiter txid

/-! ## 7. Runs -/

/-- The operations a party can call, with their arguments; `openDispute` carries the reading of
    the clock. -/
inductive EscrowOp
  | setArbiterRound1 (multisigInfo : String)
  | submitRound1 (who : EscrowParticipant) (multisigInfo : String) (refundAddress : Option String)
  | setArbiterRound2 (multisigInfo : String)
  | submitRound2 (who : EscrowParticipant) (multisigInfo : String)
  | setArbiterRound3 (multisigInfo : String)
  | submitRound3 (who : EscrowParticipant) (multisigInfo : String)
  | setDepositAddress (address : String)
  | markFunded (unlockedBalance : Nat)
  | openDispute (now : Int) (who : EscrowParticipant) (reason : Option String)
  | confirmRelease (who : EscrowParticipant) (txid : Option String)
  | confirmRefund (who : EscrowParticipant) (txid : Option String)

/-- The operation, without what it returns. -/
def EscrowOp.method (keccak256 : List UInt8 → List UInt8) : EscrowOp → Op Unit
  | .setArbiterRound1 info => silent (Escrow.setArbiterRound1 info)
  | .submitRound1 who info refund => silent (Escrow.submitRound1 keccak256 who info refund)
  | .setArbiterRound2 info => silent (Escrow.setArbiterRound2 info)
  | .submitRound2 who info => silent (Escrow.submitRound2 who info)
  | .setArbiterRound3 info => silent (Escrow.setArbiterRound3 info)
  | .submitRound3 who info => silent (Escrow.submitRound3 who info)
  | .setDepositAddress address => silent (Escrow.setDepositAddress keccak256 address)
  | .markFunded balance => silent (Escrow.markFunded balance)
  | .openDispute now who reason => silent (Escrow.openDispute now who reason)
  | .confirmRelease who txid => silent (Escrow.confirmRelease who txid)
  | .confirmRefund who txid => silent (Escrow.confirmRefund who txid)

/-- The contract an operation leaves behind, whether it succeeded or failed midway. -/
def EscrowOp.apply (keccak256 : List UInt8 → List UInt8) (c : EscrowContract) (op : EscrowOp) :
    EscrowContract :=
  (op.method keccak256).after c

def EscrowContract.run (keccak256 : List UInt8 → List UInt8) (c : EscrowContract)
    (ops : List EscrowOp) : EscrowContract :=
  ops.foldl (EscrowOp.apply keccak256) c

end Nexum.Escrow
