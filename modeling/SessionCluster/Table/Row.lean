/-
  Rows — what the table answers, and how a row becomes a record.

  A row that lacks a column, or has one of another kind, is refused before its values are looked
  at, in the order of the columns.  Then a tombstone needs no more than a version from zero up,
  while a record must hold a valid key, a payload that is a JSON text, a node name, and such a
  version, in that order.
-/
import SessionCluster.Session.Fault

namespace SessionCluster.Table

/-- A value in a row. -/
inductive Cell where
  | null
  | text (s : String)
  | number (i : Int)
  | instant (t : Instant)
  | truth (b : Bool)
  /-- A value of a kind that no column of the table has. -/
  | foreign

/-- A row, its cells by the names of their columns. -/
abbrev Row := List (String × Cell)

/-- What the database answers. -/
inductive Reply where
  /-- So many rows were changed. -/
  | affected (n : Nat)
  | rows (rs : List Row)
  | failed (reason : String)
  /-- The connection was lost before the answer. -/
  | lost

/-- The values of a row of the table. -/
structure StoredRow where
  id : String
  payload : String
  version : Int
  owner : String
  createdAt : Instant
  updatedAt : Instant
  expiresAt : Instant
  deleted : Bool

/-- A failure of the database. -/
def databaseFault (reason : String) : StoreFault := .unavailable ("Database error: " ++ reason)

namespace Row

/-- The cell of a column, made a value. -/
def column {α : Type} (r : Row) (name : String) (value? : Cell → Option α) : Except StoreFault α :=
  match r.lookup name with
  | none => .error (databaseFault ("no column named " ++ name))
  | some c =>
    match value? c with
    | some a => .ok a
    | none => .error (.corrupt ("column " ++ name ++ " has no value of its kind"))

def text? : Cell → Option String
  | .text s => some s
  | _ => none

def number? : Cell → Option Int
  | .number i => some i
  | _ => none

def instant? : Cell → Option Instant
  | .instant t => some t
  | _ => none

def truth? : Cell → Option Bool
  | .truth b => some b
  | _ => none

/-- The values of a row. -/
def read (r : Row) : Except StoreFault StoredRow := do
  return ⟨← r.column "id" text?, ← r.column "payload" text?, ← r.column "version" number?,
    ← r.column "owner_node" text?, ← r.column "created_at" instant?,
    ← r.column "updated_at" instant?, ← r.column "expires_at" instant?,
    ← r.column "deleted" truth?⟩

end Row

namespace StoredRow

/-- The version of a row of a key. -/
def version? (row : StoredRow) (key : String) : Except StoreFault Version :=
  match row.version with
  | .ofNat n =>
    match Version.ofNat? n with
    | some v => .ok v
    | none => .error (.corrupt ("version too large on " ++ key))
  | .negSucc _ => .error (.corrupt ("negative version on " ++ key))

/-- The record of a row. -/
def record (row : StoredRow) : Except StoreFault Record :=
  match SessionKey.make row.id with
  | .error e => .error (.corrupt ("invalid key: " ++ e.message))
  | .ok key =>
    match Json.Reader.ofText Json.Reader.value row.payload with
    | .error _ => .error (.corrupt ("payload of " ++ key.text ++ ": not a JSON text"))
    | .ok payload =>
      match NodeName.make row.owner with
      | .error e => .error (.corrupt ("owner of " ++ key.text ++ ": " ++ e.message))
      | .ok owner =>
        match row.version? key.text with
        | .error e => .error e
        | .ok version =>
          .ok ⟨key, payload, version, owner, row.createdAt, row.updatedAt, row.expiresAt⟩

end StoredRow

/-- What a row stands for. -/
inductive Stored where
  | live (r : Record)
  | tombstone (v : Version)

/-- What a row stands for, by its mark. -/
def StoredRow.stored (row : StoredRow) : Except StoreFault Stored :=
  if row.deleted then
    match row.version? row.id with
    | .ok v => .ok (.tombstone v)
    | .error e => .error e
  else
    match row.record with
    | .ok r => .ok (.live r)
    | .error e => .error e

end SessionCluster.Table
