/-
  Session operations — create, get, update, delete and touch.

  Nobody holds a lock.  Every change is one conditional write against the store; of several
  writers the store accepts one, and the others learn which record beat them.  What has expired
  is treated as absent, whether or not it is still stored.

  After a write that was applied, the operation hands in its events in the same step, has the
  cached copy removed by a task of its own, and only then waits: for that removal and for the
  outcomes of its events.  So a caller who goes away after the write loses neither.

  * A new key starts at version 1; a key with a tombstone starts above it; an expired record that
    is still stored is replaced two versions up, its own end being the version between.
  * An update or a removal succeeds only at the expected version.
  * A touch moves the expiry, but never further than the longest lifetime from now.
-/
import SessionCluster.Coordinator.Request

namespace SessionCluster

/-- The settings of a node's session operations. -/
structure CoordinatorSettings where
  node : NodeName
  cacheTtl : Span := .ofMillis 5000
  storeTimeout : Span := .ofMillis 2000
  cacheTimeout : Span := .ofMillis 200
  maxTtl : Span := .ofSeconds 604800
  maxPayloadBytes : Nat := 262144

/-- A change that was made: what the caller gets, its event, and the events of the operation that
were not delivered. -/
structure Committed (α : Type) where
  value : α
  event : Event
  warnings : List Warning

/-- Whether some event was not delivered. -/
def Committed.isDegraded {α : Type} (c : Committed α) : Bool := !c.warnings.isEmpty

/-- What an operation that changes something answers. -/
abbrev Outcome (α : Type) := Except SessionError (Committed α)

namespace Coordinator

/-! ## Checks -/

/-- The milliseconds of a span as a word of sixty-four bits, higher bits lost. -/
def wordMillis (d : Span) : Nat := d.millis % 18446744073709551616

/-- Whether a lifetime is at least a millisecond and at most the longest. -/
def checkLifetime (s : CoordinatorSettings) (field : String) (lifetime : Span) :
    Except SessionError Unit :=
  let most := wordMillis s.maxTtl
  let actual := wordMillis lifetime
  if actual = 0 ∨ most < actual then .error (.ofField (.outOfRange field 1 most actual))
  else .ok ()

/-- The size of a payload: the bytes of its compact text. -/
def payloadBytes (payload : Json) : Nat := payload.text.utf8ByteSize

/-- Whether a payload is within the limit. -/
def checkPayload (s : CoordinatorSettings) (payload : Json) : Except SessionError Unit :=
  let size := payloadBytes payload
  if s.maxPayloadBytes < size then
    .error (.ofField (.outOfRange "payload" 0 s.maxPayloadBytes size))
  else .ok ()

/-! ## Parts of operations -/

/-- A call on the store, and then what depends on its outcome; a failure ends the operation. -/
def storeCall {α : Type} (s : CoordinatorSettings) (c : StoreCall)
    (next : c.Outcome → Operation (Except SessionError α)) : Operation (Except SessionError α) :=
  .ask (.store c) fun r =>
    match r with
    | some (.ok o) => next o
    | some (.error f) => .done (.error (.ofStore f))
    | none => .done (.error (.ofStore (.timedOut s.storeTimeout)))

/-- The live record of a key that has not expired, or the answer that there is none. -/
def loadLive {α : Type} (s : CoordinatorSettings) (key : SessionKey) (now : Instant)
    (next : Record → Operation (Except SessionError α)) : Operation (Except SessionError α) :=
  storeCall s (.get key) fun found =>
    match found with
    | some r => if r.isExpiredAt now then .done (.error (.notFound key)) else next r
    | none => .done (.error (.notFound key))

/-- What follows a write that was applied. -/
def commit {α : Type} (key : SessionKey) (value : α) (earlier : List Change) (own : Change) :
    Operation (Outcome α) :=
  .ask (.announce earlier own) fun (pending, event) =>
    .ask (.beginForget key) fun ticket =>
      .ask (.forgotten ticket) fun _ =>
        .ask (.warnings pending) fun warnings => .done (.ok ⟨value, event, warnings⟩)

/-- The change that a new record is. -/
def changeOf (r : Record) (kind : ChangeKind) (now : Instant) : Change :=
  ⟨r.key, r.version, kind, now⟩

/-- The answer to a write that lost against a record. -/
def reject (key : SessionKey) (expected : Version) (latest : Record) (now : Instant) :
    SessionError :=
  if latest.isExpiredAt now then .notFound key else .versionConflict expected latest

/-- Replaces the record of an expected version. -/
def swap (s : CoordinatorSettings) (key : SessionKey) (expected : Version) (next : Record)
    (now : Instant) : Operation (Outcome Record) :=
  storeCall s (.swap key expected next) fun o =>
    match o with
    | .applied => commit next.key next [] (changeOf next .updated now)
    | .conflict latest => .done (.error (reject key expected latest now))
    | .missing => .done (.error (.notFound key))

/-! ## The operations -/

/-- How often a create tries to insert. -/
def createRounds : Nat := 3

/-- The record of a key that is created now, above its tombstone if there is one. -/
def fresh (s : CoordinatorSettings) (key : SessionKey) (payload : Json) (ttl : Span)
    (now : Instant) : Option Version → Record
  | some v => .recreate key v payload ttl s.node now
  | none => .create key payload ttl s.node now

/-- Tries to insert, for a number of rounds.  A tombstone or an eviction in between leads to the
next round, with the version to start above. -/
def createFrom (s : CoordinatorSettings) (key : SessionKey) (payload : Json) (ttl : Span)
    (now : Instant) : Nat → Option Version → Operation (Outcome Record)
  | 0, _ => .done (.error (.alreadyExists key))
  | rounds + 1, tombstone =>
    let record := fresh s key payload ttl now tombstone
    storeCall s (.insert record) fun o =>
      match o with
      | .inserted => commit key record [] (changeOf record .created now)
      | .tombstoned v => createFrom s key payload ttl now rounds (some v)
      | .occupied existing =>
        if !existing.isExpiredAt now then .done (.error (.alreadyExists key))
        else
          let replacement := Record.createOver existing payload ttl s.node now
          storeCall s (.swap key existing.version replacement) fun o =>
            match o with
            | .applied =>
              commit replacement.key replacement [⟨key, existing.tombstoneVersion, .expired, now⟩]
                (changeOf replacement .created now)
            | .conflict _ => .done (.error (.alreadyExists key))
            | .missing => createFrom s key payload ttl now rounds (some existing.tombstoneVersion)

/-- Creates a session. -/
def create (s : CoordinatorSettings) (key : SessionKey) (payload : Json) (ttl : Span) :
    Operation (Outcome Record) :=
  match checkLifetime s "ttl_ms" ttl with
  | .error e => .done (.error e)
  | .ok () =>
    match checkPayload s payload with
    | .error e => .done (.error e)
    | .ok () => .ask .now fun now => createFrom s key payload ttl now createRounds none

/-- Reads a session, from the cache when it has a copy. -/
def get (s : CoordinatorSettings) (key : SessionKey) : Operation (Except SessionError Record) :=
  .ask .now fun now =>
    .ask (.cached key) fun copy =>
      match copy with
      | some r => .done (if r.isExpiredAt now then .error (.notFound key) else .ok r)
      | none =>
        loadLive s key now fun r =>
          let freshFor := s.cacheTtl.shorter (r.expiresAt.remaining now)
          if freshFor.isZero then .done (.ok r)
          else .ask (.cache r freshFor) fun _ => .done (.ok r)

/-- Replaces the payload of the record at an expected version. -/
def update (s : CoordinatorSettings) (key : SessionKey) (expected : Version) (payload : Json) :
    Operation (Outcome Record) :=
  match checkPayload s payload with
  | .error e => .done (.error e)
  | .ok () =>
    .ask .now fun now =>
      loadLive s key now fun current =>
        if current.version ≠ expected then .done (.error (.versionConflict expected current))
        else swap s key expected (current.withPayload payload s.node now) now

/-- Removes the record at an expected version. -/
def delete (s : CoordinatorSettings) (key : SessionKey) (expected : Version) :
    Operation (Outcome Unit) :=
  .ask .now fun now =>
    loadLive s key now fun current =>
      if current.version ≠ expected then .done (.error (.versionConflict expected current))
      else storeCall s (.remove key expected) fun o =>
        match o with
        | .applied => commit key () [] ⟨key, current.tombstoneVersion, .deleted, now⟩
        | .conflict latest => .done (.error (reject key expected latest now))
        | .missing => .done (.error (.notFound key))

/-- Moves the expiry of a session. -/
def touch (s : CoordinatorSettings) (key : SessionKey) (extendBy : Span) :
    Operation (Outcome Record) :=
  match checkLifetime s "extend_by_ms" extendBy with
  | .error e => .done (.error e)
  | .ok () =>
    .ask .now fun now =>
      loadLive s key now fun current =>
        swap s key current.version (current.extended extendBy (now.plus s.maxTtl) s.node now) now

end Coordinator

end SessionCluster
