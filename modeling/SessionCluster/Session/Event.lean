/-
  Change events — the announcements of what happened to a session.

  An event points at a version of a session and carries no payload.  It travels in an envelope,
  which repeats what routing needs (the event's identity, type and session) beside the event
  itself, and names the node it comes from.  All events of a session go to one partition,
  chosen by a digest of the key on which all nodes agree.
-/
import SessionCluster.Digest.Sha256
import SessionCluster.Session.Record

namespace SessionCluster

/-- What happened to a session. -/
inductive ChangeKind where
  | created
  | updated
  | expired
  | deleted
deriving DecidableEq

namespace ChangeKind

def text : ChangeKind → String
  | .created => "created"
  | .updated => "updated"
  | .expired => "expired"
  | .deleted => "deleted"

def ofText? (s : String) : Option ChangeKind :=
  if s = "created" then some .created
  else if s = "updated" then some .updated
  else if s = "expired" then some .expired
  else if s = "deleted" then some .deleted
  else none

/-- The type that envelopes are routed by; its suffix is the version of the event's form. -/
def eventType : ChangeKind → String
  | .created => "session.created.v1"
  | .updated => "session.updated.v1"
  | .expired => "session.expired.v1"
  | .deleted => "session.deleted.v1"

/-- Whether the session ended. -/
def isTerminal : ChangeKind → Bool
  | .expired | .deleted => true
  | .created | .updated => false

end ChangeKind

/-- What happened to which version of which session, and when. -/
structure Change where
  key : SessionKey
  version : Version
  kind : ChangeKind
  time : Instant
deriving DecidableEq

/-- The announcement of a change; its identity tells repeats apart. -/
structure Event where
  id : String
  change : Change
deriving DecidableEq

namespace Event

def key (e : Event) : SessionKey := e.change.key
def version (e : Event) : Version := e.change.version
def kind (e : Event) : ChangeKind := e.change.kind
def timestamp (e : Event) : Instant := e.change.time

/-- The event as a value. -/
def toJson (e : Event) : Json :=
  .ofMembers
    [("event_id", .string e.id), ("session_id", .string e.key.text),
     ("version", e.version.toJson), ("kind", .string e.kind.text),
     ("timestamp", e.timestamp.toJson)]

/-- An event that is being read. -/
structure Draft where
  id : Option String := none
  key : Option SessionKey := none
  version : Option Version := none
  kind : Option ChangeKind := none
  timestamp : Option Instant := none

def Draft.build (d : Draft) : Option Event := do
  some ⟨← d.id, ⟨← d.key, ← d.version, ← d.kind, ← d.timestamp⟩⟩

open Json.Reader in
/-- Reads an event. -/
def reader : Json.Reader Event :=
  ofFields
    [field "event_id" Draft.id (fun d x => { d with id := x }) string,
     field "session_id" Draft.key (fun d x => { d with key := x }) SessionKey.reader,
     field "version" Draft.version (fun d x => { d with version := x }) Version.reader,
     field "kind" Draft.kind (fun d x => { d with kind := x }) (oneOf ChangeKind.ofText?),
     field "timestamp" Draft.timestamp (fun d x => { d with timestamp := x }) Instant.reader]
    {} (fun _ => false) Draft.build

end Event

/-! ## Identities

A fresh identity has the form of a random version-4 UUID; this library numbers them instead of
drawing them. -/

/-- The identity with a number. -/
def eventIdOf (n : Nat) : String :=
  let hex := Nat.toDigits 16 n
  "00000000-0000-4000-8000-" ++ String.ofList (List.replicate (12 - hex.length) '0' ++ hex)

/-- Whether a text has the form of a version-4 UUID in lower case. -/
def isUuid4 (s : String) : Bool :=
  let groups := (s.splitOn "-").map String.toList
  let hex (c : Char) := Text.isDigit c || ('a' ≤ c && c ≤ 'f')
  groups.map List.length == [8, 4, 4, 4, 12] && groups.all (·.all hex) &&
    ((groups.getD 2 []).head? == some '4') &&
    (match (groups.getD 3 []).head? with
     | some c => c == '8' || c == '9' || c == 'a' || c == 'b'
     | none => false)

/-! ## Partitions -/

/-- The partition of a routing key: the first sixty-four bits of its digest, modulo their
number. -/
def partitionFor (key : String) (partitions : Nat) : Nat :=
  if partitions ≤ 1 then 0 else Sha256.leading64 key.toUTF8.toList % partitions

/-- The partition of an event. -/
def Event.partition (e : Event) (partitions : Nat) : Nat := partitionFor e.key.text partitions

theorem partitionFor_lt (key : String) {n : Nat} (h : 0 < n) : partitionFor key n < n := by
  unfold partitionFor
  split
  · exact h
  · exact Nat.mod_lt _ h

/-! ## Envelopes -/

/-- The kind of thing that events of this library are about. -/
def aggregateType : String := "Session"

/-- What follows the last `.v` of a text. -/
def versionSuffix? : List Char → Option (List Char)
  | [] => none
  | c :: cs =>
    match versionSuffix? cs with
    | some rest => some rest
    | none =>
      match c, cs with
      | '.', 'v' :: rest => some rest
      | _, _ => none

/-- The version in a type's suffix `.v…`; a type without one has version one. -/
def schemaVersionOf (eventType : String) : Nat :=
  match versionSuffix? eventType.toList with
  | some cs => (Text.unsigned? 4294967296 (String.ofList cs)).getD 1
  | none => 1

/-- An event on its way, or any message of the same form. -/
structure Envelope where
  eventId : String
  eventType : String
  schemaVersion : Nat
  aggregateId : String
  aggregateType : String
  occurredAt : Instant
  payload : Json
  originNode : Option String := none
deriving DecidableEq

namespace Envelope

/-- The envelope around an event. -/
def ofEvent (e : Event) : Envelope where
  eventId := e.id
  eventType := e.kind.eventType
  schemaVersion := schemaVersionOf e.kind.eventType
  aggregateId := e.key.text
  aggregateType := SessionCluster.aggregateType
  occurredAt := e.timestamp
  payload := e.toJson

/-- Names the node that the event comes from. -/
def withOrigin (node : String) (e : Envelope) : Envelope := { e with originNode := some node }

/-- The members of the metadata object, in order. -/
def metadata (e : Envelope) : List (String × Json) :=
  match e.originNode with
  | some n => [("origin_node", .string n)]
  | none => []

/-- The written form, its fields in this order. -/
def toTokens (e : Envelope) : List Json.Token :=
  Json.objectTokens
    [("event_id", (Json.string e.eventId).toTokens),
     ("event_type", (Json.string e.eventType).toTokens),
     ("schema_version", (Json.natural e.schemaVersion).toTokens),
     ("aggregate_id", (Json.string e.aggregateId).toTokens),
     ("aggregate_type", (Json.string e.aggregateType).toTokens),
     ("occurred_at", e.occurredAt.toJson.toTokens),
     ("payload", e.payload.toTokens),
     ("metadata", Json.objectTokens (e.metadata.map fun (n, v) => (n, v.toTokens)))]

/-- The text that goes to the broker. -/
def text (e : Envelope) : String := Json.render e.toTokens

/-- The envelope as a value. -/
def toJson (e : Envelope) : Json :=
  .ofMembers
    [("event_id", .string e.eventId), ("event_type", .string e.eventType),
     ("schema_version", .natural e.schemaVersion), ("aggregate_id", .string e.aggregateId),
     ("aggregate_type", .string e.aggregateType), ("occurred_at", e.occurredAt.toJson),
     ("payload", e.payload), ("metadata", .ofMembers e.metadata)]

/-- An envelope that is being read; the metadata may hold null for the node. -/
structure Draft where
  eventId : Option String := none
  eventType : Option String := none
  schemaVersion : Option Nat := none
  aggregateId : Option String := none
  aggregateType : Option String := none
  occurredAt : Option Instant := none
  payload : Option Json := none
  metadata : Option (Option String) := none

def Draft.build (d : Draft) : Option Envelope := do
  some ⟨← d.eventId, ← d.eventType, ← d.schemaVersion, ← d.aggregateId, ← d.aggregateType,
    ← d.occurredAt, ← d.payload, ← d.metadata⟩

open Json.Reader in
/-- Reads the metadata: the node may be missing from an object, but not from an array. -/
def metadataReader : Json.Reader (Option String) :=
  ofFields
    [field "origin_node" id (fun _ x => some x) (optional string)]
    (none : Option (Option String)) (fun _ => false) (fun s => some (s.getD none))

open Json.Reader in
/-- Reads an envelope. -/
def reader : Json.Reader Envelope :=
  ofFields
    [field "event_id" Draft.eventId (fun d x => { d with eventId := x }) string,
     field "event_type" Draft.eventType (fun d x => { d with eventType := x }) string,
     field "schema_version" Draft.schemaVersion (fun d x => { d with schemaVersion := x })
      (natural 4294967296),
     field "aggregate_id" Draft.aggregateId (fun d x => { d with aggregateId := x }) string,
     field "aggregate_type" Draft.aggregateType (fun d x => { d with aggregateType := x }) string,
     field "occurred_at" Draft.occurredAt (fun d x => { d with occurredAt := x }) Instant.reader,
     field "payload" Draft.payload (fun d x => { d with payload := x }) value,
     field "metadata" Draft.metadata (fun d x => { d with metadata := some x }) metadataReader]
    {} (fun _ => false) Draft.build

end Envelope

/-! ## Warnings -/

/-- A change that was made but not announced, and why. -/
structure Warning where
  event : Event
  reason : String
deriving DecidableEq

namespace Warning

/-- The warning as a value. -/
def toJson (w : Warning) : Json :=
  .ofMembers
    [("event_id", .string w.event.id), ("session_id", .string w.event.key.text),
     ("version", w.event.version.toJson), ("kind", .string w.event.kind.text),
     ("reason", .string w.reason)]

end Warning

end SessionCluster
