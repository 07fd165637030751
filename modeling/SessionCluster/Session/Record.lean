/-
  Session records — one versioned state of one session, and its successors.

  A record never changes; a write makes a successor with the next version.  The record that
  follows the end of a session continues above the version of the end, so that versions of one
  key never repeat: `recreate` starts one above a tombstone, `createOver` starts two above an
  expired record, whose own end takes the version in between.
-/
import SessionCluster.Session.Key
import SessionCluster.Time.Rfc3339

namespace SessionCluster

/-! ## Versions -/

/-- A version of a session, below 2⁶⁴. -/
structure Version where
  number : Nat
  number_lt : number < 18446744073709551616 := by omega
deriving DecidableEq

namespace Version

/-- The version of a session that never existed before. -/
def initial : Version := ⟨1, by omega⟩

/-- The version after this one; the last version is its own successor. -/
def next (v : Version) : Version :=
  ⟨min (v.number + 1) 18446744073709551615, by omega⟩

def ofNat? (n : Nat) : Option Version :=
  if h : n < 18446744073709551616 then some ⟨n, h⟩ else none

instance : LE Version := ⟨fun a b => a.number ≤ b.number⟩
instance : LT Version := ⟨fun a b => a.number < b.number⟩
instance (a b : Version) : Decidable (a ≤ b) := inferInstanceAs (Decidable (a.number ≤ b.number))
instance (a b : Version) : Decidable (a < b) := inferInstanceAs (Decidable (a.number < b.number))

def text (v : Version) : String := Text.decimal v.number

def toJson (v : Version) : Json := .natural v.number

/-- Reads a version. -/
def reader : Json.Reader Version :=
  Json.Reader.check ofNat? (.natural 18446744073709551616)

/-- Below the last version, the successor is one more. -/
theorem next_number {v : Version} (h : v.number < 18446744073709551615) :
    v.next.number = v.number + 1 := by
  unfold next; simp only; omega

end Version

namespace Instant

/-- An instant as records and events hold it. -/
def toJson (t : Instant) : Json := .string (Rfc3339.text t)

/-- Reads an instant. -/
def reader : Json.Reader Instant := Json.Reader.check Rfc3339.read? .string

end Instant

/-! ## Records -/

/-- One state of a session. -/
structure Record where
  key : SessionKey
  payload : Json
  version : Version
  owner : NodeName
  createdAt : Instant
  updatedAt : Instant
  expiresAt : Instant
deriving DecidableEq

namespace Record

/-- The first record of a key. -/
def create (key : SessionKey) (payload : Json) (ttl : Span) (owner : NodeName) (now : Instant) :
    Record :=
  ⟨key, payload, .initial, owner, now, now, now.plus ttl⟩

/-- The first record of a key after its tombstone. -/
def recreate (key : SessionKey) (tombstone : Version) (payload : Json) (ttl : Span)
    (owner : NodeName) (now : Instant) : Record :=
  { create key payload ttl owner now with version := tombstone.next }

/-- The version of the event that ends this record. -/
def tombstoneVersion (r : Record) : Version := r.version.next

/-- The first record of a key in place of an expired one. -/
def createOver (expired : Record) (payload : Json) (ttl : Span) (owner : NodeName)
    (now : Instant) : Record :=
  recreate expired.key expired.tombstoneVersion payload ttl owner now

/-- The successor with another payload. -/
def withPayload (r : Record) (payload : Json) (owner : NodeName) (now : Instant) : Record :=
  { r with payload, version := r.version.next, owner, updatedAt := now }

/-- The successor that expires later, but not after `latest`. -/
def extended (r : Record) (extension : Span) (latest : Instant) (owner : NodeName) (now : Instant) :
    Record :=
  { r with
    version := r.version.next
    owner
    updatedAt := now
    expiresAt := (r.expiresAt.plus extension).earlier latest }

/-- Whether the record has expired: its last moment is before `expiresAt`. -/
def isExpiredAt (r : Record) (now : Instant) : Bool := !now.before r.expiresAt

/-! ## The stored form -/

/-- The stored form, its fields in this order. -/
def toTokens (r : Record) : List Json.Token :=
  Json.objectTokens
    [("key", (Json.string r.key.text).toTokens), ("payload", r.payload.toTokens),
     ("version", r.version.toJson.toTokens), ("owner_node", (Json.string r.owner.text).toTokens),
     ("created_at", r.createdAt.toJson.toTokens), ("updated_at", r.updatedAt.toJson.toTokens),
     ("expires_at", r.expiresAt.toJson.toTokens)]

/-- The text of the stored form. -/
def text (r : Record) : String := Json.render r.toTokens

/-- The record as a value. -/
def toJson (r : Record) : Json :=
  .ofMembers
    [("key", .string r.key.text), ("payload", r.payload), ("version", r.version.toJson),
     ("owner_node", .string r.owner.text), ("created_at", r.createdAt.toJson),
     ("updated_at", r.updatedAt.toJson), ("expires_at", r.expiresAt.toJson)]

/-- A record that is being read. -/
structure Draft where
  key : Option SessionKey := none
  payload : Option Json := none
  version : Option Version := none
  owner : Option NodeName := none
  createdAt : Option Instant := none
  updatedAt : Option Instant := none
  expiresAt : Option Instant := none

def Draft.build (d : Draft) : Option Record := do
  some ⟨← d.key, ← d.payload, ← d.version, ← d.owner, ← d.createdAt, ← d.updatedAt, ← d.expiresAt⟩

open Json.Reader in
/-- Reads a record. -/
def reader : Json.Reader Record :=
  ofFields
    [field "key" Draft.key (fun d x => { d with key := x }) SessionKey.reader,
     field "payload" Draft.payload (fun d x => { d with payload := x }) value,
     field "version" Draft.version (fun d x => { d with version := x }) Version.reader,
     field "owner_node" Draft.owner (fun d x => { d with owner := x }) NodeName.reader,
     field "created_at" Draft.createdAt (fun d x => { d with createdAt := x }) Instant.reader,
     field "updated_at" Draft.updatedAt (fun d x => { d with updatedAt := x }) Instant.reader,
     field "expires_at" Draft.expiresAt (fun d x => { d with expiresAt := x }) Instant.reader]
    {} (fun _ => false) Draft.build

/-- Reads a record from a text. -/
def ofText (s : String) : Except Json.Refusal Record := Json.Reader.ofText reader s

theorem tombstoneVersion_lt {r : Record} (h : r.version.number < 18446744073709551615) :
    r.version < r.tombstoneVersion := by
  show r.version.number < r.version.next.number
  rw [Version.next_number h]; omega

end Record

end SessionCluster
