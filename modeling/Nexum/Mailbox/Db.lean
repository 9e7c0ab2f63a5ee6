import Nexum.Lib.History
import Nexum.Lib.Json
import Nexum.Lib.Saturating
import Nexum.Transport.Wire

/-!
# The mailbox database

The mailbox keeps one table of messages. Each function here is one of the `_sync` functions, as one
transaction on that table: it reads the clock (`now`, in milliseconds), and sees and leaves the
whole table. Expired rows are swept whenever somebody pushes, pulls or cleans up.

A pulled message is **leased**, not removed: it gets a receipt and a time until which nobody else
is given it. Only an ack with that receipt removes it, and a message whose lease has run out is
given out again under a new receipt.

A row keeps the envelope as JSON text. The column is written by `push_sync` alone and is the text
`serde_json` makes of the envelope, so a row holds the envelope here; the text matters where it is
measured (`envelopeJson`). The receipts of one pull are drawn one after the other: `draw k` is the
`k`-th.
-/

namespace Nexum.Mailbox

open Nexum.Lib Nexum.Transport

/-! ## 1. The JSON text of an envelope -/

/-- `serde_json::to_string(env)`. -/
def envelopeJson (env : NxmsEnvelope) : String :=
  "\x7b" ++ jsonField "proto" (jsonString env.proto)
    ++ "," ++ jsonField "kem_id" (jsonString env.kemId)
    ++ "," ++ jsonField "sig_id" (jsonString env.sigId)
    ++ "," ++ jsonField "msg_type" (jsonString (msgTypeKey env.msgType))
    ++ "," ++ jsonField "escrow_id_hex" (jsonString env.escrowIdHex)
    ++ "," ++ jsonField "from" (jsonString env.from_)
    ++ "," ++ jsonField "to" (jsonString env.to_)
    ++ "," ++ jsonField "seq" (toString env.seq)
    ++ "," ++ jsonField "kem_ct_b64" (jsonString env.kemCtB64)
    ++ "," ++ jsonField "nonce_b64" (jsonString env.nonceB64)
    ++ "," ++ jsonField "ciphertext_b64" (jsonString env.ciphertextB64)
    ++ "," ++ jsonField "tag_b64" (jsonString env.tagB64)
    ++ "," ++ jsonField "sig_b64" (jsonString env.sigB64) ++ "\x7d"

/-- The bytes of the stored text. -/
def envelopeBytes (env : NxmsEnvelope) : Nat := (envelopeJson env).utf8ByteSize

/-- SQL's `LENGTH` of a text: its characters, up to the first NUL. -/
def sqlLength (text : String) : Nat :=
  ((chars text).takeWhile fun c => c.toNat ≠ 0).length

/-! ## 2. The table -/

structure Row where
  id : Nat
  toId : String
  fromId : String
  escrowIdHex : String
  msgType : String
  seq : Int
  envelope : NxmsEnvelope
  receivedAtMs : Int
  expiresAtMs : Int
  leaseId : Option String
  leaseUntilMs : Option Int
  deriving DecidableEq

/-- The rows in the order of their ids, and the next id: an `AUTOINCREMENT` id is never given
    twice. -/
structure Db where
  rows : List Row
  nextId : Nat
  deriving DecidableEq

def Db.empty : Db := ⟨[], 1⟩

structure MailboxLimits where
  maxMessagesPerInbox : UInt64
  maxBytesPerInbox : UInt64
  maxRowsGlobal : UInt64

inductive PushRejection
  | inboxMessageLimit | inboxBytesLimit | globalRowsLimit
  deriving DecidableEq

structure PushResult where
  dedup : Bool
  rejection : Option PushRejection
  deriving DecidableEq

structure LeasedMessage where
  receipt : String
  envelope : NxmsEnvelope
  deriving DecidableEq

/-- The columns of the unique index. -/
structure MessageKey where
  toId : String
  fromId : String
  escrowIdHex : String
  seq : Int
  deriving DecidableEq

def Row.key (row : Row) : MessageKey := ⟨row.toId, row.fromId, row.escrowIdHex, row.seq⟩

def envelopeKey (env : NxmsEnvelope) : MessageKey :=
  ⟨env.to_, env.from_, env.escrowIdHex, clampI64 env.seq⟩

/-- `DELETE FROM messages WHERE expires_at_ms <= now`. -/
def Db.prune (db : Db) (now : Int) : Db :=
  { db with rows := db.rows.filter fun row => now < row.expiresAtMs }

/-- A row under the next id, unless the unique index refuses it. -/
def Db.insert (db : Db) (row : Row) : Option Db :=
  if db.rows.any (·.key = row.key) then none
  else some ⟨db.rows ++ [{ row with id := db.nextId }], db.nextId + 1⟩

/-! ## 3. Pushing -/

/-- Seconds as a positive number of milliseconds in a signed word. -/
def spanMs (secs : Nat) : Int :=
  max (clampI64 (min (secs * 1000) u64Max)) 1

def rowOf (env : NxmsEnvelope) (now : Int) (ttlSecs : Nat) : Row where
  id := 0
  toId := env.to_
  fromId := env.from_
  escrowIdHex := env.escrowIdHex
  msgType := msgTypeKey env.msgType
  seq := clampI64 env.seq
  envelope := env
  receivedAtMs := now
  expiresAtMs := satAddI64 now (spanMs ttlSecs)
  leaseId := none
  leaseUntilMs := none

/-- `COALESCE(SUM(LENGTH(envelope_json)), 0)` over an inbox. -/
def Db.inboxBytes (db : Db) (inbox : String) : Nat :=
  ((db.rows.filter (·.toId = inbox)).map fun row => sqlLength (envelopeJson row.envelope)).sum

def Db.inboxRows (db : Db) (inbox : String) : Nat :=
  (db.rows.filter (·.toId = inbox)).length

/-- `push_sync`. A text longer than a signed word can count cannot be made, and `SUM` fails past
    that range; an error leaves the table as it was. -/
def pushSync (now : Int) (env : NxmsEnvelope) (ttlSecs : Nat) (limits : MailboxLimits) (db : Db) :
    Except String PushResult × Db :=
  if (envelopeBytes env : Int) > i64Max then (.error "capacity overflow", db)
  else
    let swept := db.prune now
    if swept.rows.any (·.key = envelopeKey env) then (.ok ⟨true, none⟩, swept)
    else if swept.rows.length ≥ limits.maxRowsGlobal.toNat then
      (.ok ⟨false, some .globalRowsLimit⟩, swept)
    else if (swept.inboxBytes env.to_ : Int) > i64Max then (.error "integer overflow", db)
    else if swept.inboxRows env.to_ ≥ limits.maxMessagesPerInbox.toNat then
      (.ok ⟨false, some .inboxMessageLimit⟩, swept)
    else if min (swept.inboxBytes env.to_ + envelopeBytes env) u64Max
        > limits.maxBytesPerInbox.toNat then
      (.ok ⟨false, some .inboxBytesLimit⟩, swept)
    else
      match swept.insert (rowOf env now ttlSecs) with
      | some stored => (.ok ⟨false, none⟩, stored)
      | none => (.ok ⟨true, none⟩, swept)

/-- How a push ends: with what, and with which table. -/
inductive Pushed (now : Int) (env : NxmsEnvelope) (ttlSecs : Nat) (limits : MailboxLimits)
    (db : Db) : Except String PushResult → Db → Prop
  | failed (e : String) : Pushed now env ttlSecs limits db (.error e) db
  | dedup {row : Row} (hlength : (envelopeBytes env : Int) ≤ i64Max)
      (hrow : row ∈ (db.prune now).rows) (hkey : row.key = envelopeKey env) :
      Pushed now env ttlSecs limits db (.ok ⟨true, none⟩) (db.prune now)
  | refused (reason : PushRejection) :
      Pushed now env ttlSecs limits db (.ok ⟨false, some reason⟩) (db.prune now)
  | stored (hfree : ∀ row ∈ (db.prune now).rows, row.key ≠ envelopeKey env)
      (hlength : (envelopeBytes env : Int) ≤ i64Max)
      (hglobal : (db.prune now).rows.length < limits.maxRowsGlobal.toNat)
      (hsum : ((db.prune now).inboxBytes env.to_ : Int) ≤ i64Max)
      (hinbox : (db.prune now).inboxRows env.to_ < limits.maxMessagesPerInbox.toNat)
      (hbytes : min ((db.prune now).inboxBytes env.to_ + envelopeBytes env) u64Max
        ≤ limits.maxBytesPerInbox.toNat) :
      Pushed now env ttlSecs limits db (.ok ⟨false, none⟩)
        ⟨(db.prune now).rows ++ [{ rowOf env now ttlSecs with id := db.nextId }], db.nextId + 1⟩

theorem pushSync_spec (now : Int) (env : NxmsEnvelope) (ttlSecs : Nat) (limits : MailboxLimits)
    (db : Db) : Pushed now env ttlSecs limits db (pushSync now env ttlSecs limits db).1
      (pushSync now env ttlSecs limits db).2 := by
  by_cases hlength : (envelopeBytes env : Int) > i64Max
  · simp only [pushSync, hlength, if_true]
    exact .failed _
  by_cases hkey : (db.prune now).rows.any (·.key = envelopeKey env) = true
  · simp only [pushSync, hlength, hkey, if_true, if_false]
    obtain ⟨row, hrow, hsame⟩ := List.any_eq_true.mp hkey
    exact .dedup (Int.not_lt.mp hlength) hrow (by simpa using hsame)
  by_cases hglobal : (db.prune now).rows.length ≥ limits.maxRowsGlobal.toNat
  · simp only [pushSync, hlength, hkey, hglobal, if_true, if_false]
    exact .refused _
  by_cases hsum : ((db.prune now).inboxBytes env.to_ : Int) > i64Max
  · simp only [pushSync, hlength, hkey, hglobal, hsum, if_true, if_false]
    exact .failed _
  by_cases hinbox : (db.prune now).inboxRows env.to_ ≥ limits.maxMessagesPerInbox.toNat
  · simp only [pushSync, hlength, hkey, hglobal, hsum, hinbox, if_true, if_false]
    exact .refused _
  by_cases hbytes : min ((db.prune now).inboxBytes env.to_ + envelopeBytes env) u64Max
      > limits.maxBytesPerInbox.toNat
  · simp only [pushSync, hlength, hkey, hglobal, hsum, hinbox, hbytes, if_true, if_false]
    exact .refused _
  -- the index has nothing to add: the key was looked up in the same transaction
  have hinsert : (db.prune now).insert (rowOf env now ttlSecs) = some
      ⟨(db.prune now).rows ++ [{ rowOf env now ttlSecs with id := db.nextId }], db.nextId + 1⟩ :=
    if_neg hkey
  simp only [pushSync, hlength, hkey, hglobal, hsum, hinbox, hbytes, if_false, hinsert]
  refine .stored ?_ (Int.not_lt.mp hlength) (Nat.lt_of_not_le hglobal) (Int.not_lt.mp hsum)
    (Nat.lt_of_not_le hinbox) (Nat.le_of_not_lt hbytes)
  intro row hrow hsame
  exact hkey (List.any_eq_true.mpr ⟨row, hrow, by simpa using hsame⟩)

/-! ## 4. Pulling, acknowledging, cleaning up -/

/-- The `WHERE` of the selection. -/
def Row.available (row : Row) (inbox : String) (now : Int) : Bool :=
  row.toId = inbox && now < row.expiresAtMs && row.leaseUntilMs.all (· < now)

/-- The rows a pull selects. -/
def Db.selected (db : Db) (inbox : String) (now : Int) (max : Nat) : List Row :=
  (db.rows.filter (·.available inbox now)).take max

/-- Each of them with the receipt drawn for it. -/
def Db.drawn (db : Db) (inbox : String) (now : Int) (max : Nat) (draw : Nat → String) :
    List (String × Row) :=
  (db.selected inbox now max).mapIdx fun k row => (draw k, row)

/-- `UPDATE messages SET lease_id=.., lease_until_ms=.. WHERE id=..`. -/
def Db.lease (db : Db) (id : Nat) (receipt : String) (until_ : Int) : Db :=
  { db with
    rows := db.rows.map fun row =>
      if row.id = id then { row with leaseId := some receipt, leaseUntilMs := some until_ }
      else row }

def pullSync (now : Int) (inbox : String) (max leaseSecs : Nat) (draw : Nat → String) (db : Db) :
    List LeasedMessage × Db :=
  let leaseUntilMs := satAddI64 now (spanMs leaseSecs)
  let swept := db.prune now
  let drawn := swept.drawn inbox now max draw
  (drawn.map fun given => ⟨given.1, given.2.envelope⟩,
    drawn.foldl (fun db given => db.lease given.2.id given.1 leaseUntilMs) swept)

def Row.acked (row : Row) (receipt inbox : String) : Bool :=
  row.leaseId = some receipt && row.toId = inbox

def ackSync (receipt inbox : String) (db : Db) : Bool × Db :=
  (db.rows.any (·.acked receipt inbox),
    { db with rows := db.rows.filter fun row => ¬ row.acked receipt inbox })

def cleanupExpiredSync (now : Int) (db : Db) : Db := db.prune now

/-! ## 5. Histories -/

/-- The calls of the database, each with the time it is made at. -/
inductive Call
  | push (now : Int) (env : NxmsEnvelope) (ttlSecs : Nat) (limits : MailboxLimits)
  | pull (now : Int) (inbox : String) (max leaseSecs : Nat) (draw : Nat → String)
  | ack (now : Int) (receipt inbox : String)
  | cleanup (now : Int)

def Call.now : Call → Int
  | .push now .. | .pull now .. | .ack now .. | .cleanup now => now

inductive Reply
  | pushed (result : Except String PushResult)
  | pulled (messages : List LeasedMessage)
  | acked (ok : Bool)
  | cleaned

def mailbox : Server Db Call Reply where
  serve db call :=
    match call with
    | .push now env ttlSecs limits =>
      let (result, db) := pushSync now env ttlSecs limits db
      (.pushed result, db)
    | .pull now inbox max leaseSecs draw =>
      let (messages, db) := pullSync now inbox max leaseSecs draw db
      (.pulled messages, db)
    | .ack _ receipt inbox =>
      let (ok, db) := ackSync receipt inbox db
      (.acked ok, db)
    | .cleanup now => (.cleaned, cleanupExpiredSync now db)

/-- The database after a history that starts with an empty table. -/
def stored (calls : List Call) : Db := mailbox.after .empty calls

end Nexum.Mailbox
