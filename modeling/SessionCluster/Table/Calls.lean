/-
  The table as a store — every call on a store as a program of statements.

  * A guarded statement that changed no row is followed by a read, which tells a conflict from a
    missing key.
  * An insertion that neither succeeded nor finds a row afterwards raced with a purge and is
    tried again, up to three times.
  * A version above the largest signed word of sixty-four bits is refused before anything is
    sent.
-/
import SessionCluster.Program
import SessionCluster.Store.Slot
import SessionCluster.Table.Row
import SessionCluster.Table.Statement

namespace SessionCluster.Table

/-- A computation that sends statements. -/
abbrev Query (α : Type) := Program (fun _ : Statement => Reply) α

/-- A version as an argument. -/
def versionArgument (v : Version) : Except StoreFault Int :=
  if v.number < 9223372036854775808 then .ok v.number
  else .error (.corrupt ("version " ++ v.text ++ " exceeds BIGINT"))

/-- The failure that a reply reports. -/
def Reply.fault? : Reply → Option StoreFault
  | .failed reason => some (databaseFault reason)
  | .lost => some (databaseFault "connection lost")
  | .affected _ | .rows _ => none

/-- How many rows a statement changed or returned. -/
def Reply.count : Reply → Nat
  | .affected n => n
  | .rows rs => rs.length
  | .failed _ | .lost => 0

/-- The rows of a reply. -/
def Reply.rowsOf : Reply → List Row
  | .rows rs => rs
  | .affected _ | .failed _ | .lost => []

/-- Sends a statement, and goes on unless it failed. -/
def send {α : Type} (s : Statement) (next : Reply → Query (Except StoreFault α)) :
    Query (Except StoreFault α) :=
  .ask s fun r =>
    match r.fault? with
    | some f => .done (.error f)
    | none => next r

/-- Goes on with a value, or ends with its failure. -/
def proceed {α β : Type} (r : Except StoreFault α) (next : α → Query (Except StoreFault β)) :
    Query (Except StoreFault β) :=
  match r with
  | .ok a => next a
  | .error f => .done (.error f)

/-- What is stored under a key. -/
def fetch (key : SessionKey) : Query (Except StoreFault (Option Stored)) :=
  send (.fetch key.text) fun r =>
    match r.rowsOf with
    | [] => .done (.ok none)
    | row :: _ =>
      proceed row.read fun values => proceed values.stored fun s => .done (.ok (some s))

/-- What became of a guarded statement that changed no row. -/
def missed (key : SessionKey) : Query (Except StoreFault WriteOutcome) :=
  (fetch key).bind fun found =>
    proceed found fun s =>
      match s with
      | some (.live current) => .done (.ok (.conflict current))
      | some (.tombstone _) | none => .done (.ok .missing)

/-- How often an insertion is tried. -/
def insertTries : Nat := 3

/-- Inserts a record, with so many tries left. -/
def insertFrom (r : Record) (version : Int) : Nat → Query (Except StoreFault InsertOutcome)
  | 0 => .done (.error (.unavailable ("insert of " ++ r.key.text ++ " kept racing with row purges")))
  | tries + 1 =>
    send (.insert r.key.text r.payload.text version r.owner.text (micros r.createdAt)
        (micros r.updatedAt) (micros r.expiresAt)) fun reply =>
      if reply.count = 1 then .done (.ok .inserted)
      else (fetch r.key).bind fun found =>
        proceed found fun s =>
          match s with
          | some (.live existing) => .done (.ok (.occupied existing))
          | some (.tombstone v) => .done (.ok (.tombstoned v))
          | none => insertFrom r version tries

/-- What a guarded statement came to. -/
def guarded (key : SessionKey) (s : Statement) : Query (Except StoreFault WriteOutcome) :=
  send s fun reply => if reply.count = 0 then missed key else .done (.ok .applied)

/-- The records of rows; all rows are read before any is made a record. -/
def scanned (rows : List Row) : Except StoreFault (List Record) := do
  let values ← rows.mapM Row.read
  values.mapM StoredRow.record

/-- A call on the store. -/
def call : (c : StoreCall) → Query (Except StoreFault c.Outcome)
  | .get key =>
    (fetch key).bind fun found =>
      proceed found fun s =>
        match s with
        | some (.live r) => .done (.ok (some r))
        | some (.tombstone _) | none => .done (.ok none)
  | .insert r => proceed (versionArgument r.version) fun version => insertFrom r version insertTries
  | .swap key expected r =>
    proceed (versionArgument expected) fun e =>
      proceed (versionArgument r.version) fun v =>
        guarded key (.swap key.text e r.payload.text v r.owner.text (micros r.createdAt)
          (micros r.updatedAt) (micros r.expiresAt))
  | .remove key expected =>
    proceed (versionArgument expected) fun e => guarded key (.delete key.text e)
  | .scan now limit =>
    send (.scan (micros now) limit) fun reply => .done (scanned reply.rowsOf)
  | .ping => send .ping fun _ => .done (.ok ())

/-- Sets the table up, statement by statement. -/
def define : List String → Query (Except StoreFault Unit)
  | [] => .done (.ok ())
  | text :: rest => send (.define text) fun _ => define rest

end SessionCluster.Table
