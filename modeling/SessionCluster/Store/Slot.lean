/-
  The content of a store — one slot per key, and the atomic operations on it.

  A slot holds a live record or, once the session has ended, a tombstone with the version of the
  end.  A key that never had a session has no slot, and a slot once made is never removed.

  Every call on a store is one of `StoreCall`; `Slots.apply` gives its outcome, the content after
  it, and the notice that subscribers get when it changed something.  The four rules:

  * a record is inserted unless the key is live, or dead at a version not below the record's;
  * a record is replaced, or removed, only at exactly the expected version;
  * removing leaves a tombstone one above the removed version;
  * a scan gives the expired records, earliest expiry first, up to a limit.
-/
import SessionCluster.Session.Record

namespace SessionCluster

/-- What a store holds under a key. -/
inductive Slot where
  | live (r : Record)
  | tombstone (v : Version)
deriving DecidableEq

namespace Slot

/-- The version a slot stands at. -/
def version : Slot → Version
  | .live r => r.version
  | .tombstone v => v

/-- The live record of a slot. -/
def record? : Slot → Option Record
  | .live r => some r
  | .tombstone _ => none

end Slot

/-- What becomes of an insertion. -/
inductive InsertOutcome where
  | inserted
  | occupied (existing : Record)
  | tombstoned (v : Version)
deriving DecidableEq

/-- What becomes of a conditional write or removal. -/
inductive WriteOutcome where
  | applied
  | conflict (current : Record)
  | missing
deriving DecidableEq

/-- A call on a store. -/
inductive StoreCall where
  | get (key : SessionKey)
  | insert (record : Record)
  | swap (key : SessionKey) (expected : Version) (record : Record)
  | remove (key : SessionKey) (expected : Version)
  | scan (now : Instant) (limit : Nat)
  | ping
deriving DecidableEq

namespace StoreCall

/-- What a call answers when the store does not fail. -/
def Outcome : StoreCall → Type
  | .get _ => Option Record
  | .insert _ => InsertOutcome
  | .swap _ _ _ => WriteOutcome
  | .remove _ _ => WriteOutcome
  | .scan _ _ => List Record
  | .ping => Unit

end StoreCall

/-- What subscribers of a store learn about a key: the version and expiry of a record that was
written, and neither when a record was removed. -/
structure Notice where
  key : SessionKey
  version : Option Version := none
  expiresAt : Option Instant := none
deriving DecidableEq

namespace Notice

def ofRecord (r : Record) : Notice := ⟨r.key, some r.version, some r.expiresAt⟩
def removed (key : SessionKey) : Notice := ⟨key, none, none⟩

end Notice

/-- The slots of a store, each key at most once. -/
structure Slots where
  entries : List (SessionKey × Slot) := []
deriving DecidableEq

namespace Slots

/-- What is stored under a key. -/
def get? (s : Slots) (key : SessionKey) : Option Slot := s.entries.lookup key

/-- Replaces the slot of a key in a list of entries, or adds it at the end. -/
def putEntry (key : SessionKey) (slot : Slot) : List (SessionKey × Slot) → List (SessionKey × Slot)
  | [] => [(key, slot)]
  | (k, old) :: rest => if k = key then (k, slot) :: rest else (k, old) :: putEntry key slot rest

/-- Makes a slot what a key holds. -/
def put (s : Slots) (key : SessionKey) (slot : Slot) : Slots := ⟨putEntry key slot s.entries⟩

/-- The live record of a key. -/
def live? (s : Slots) (key : SessionKey) : Option Record := (s.get? key).bind Slot.record?

/-- The version of the tombstone of a key. -/
def tombstone? (s : Slots) (key : SessionKey) : Option Version :=
  match s.get? key with
  | some (.tombstone v) => some v
  | _ => none

/-- All live records. -/
def liveRecords (s : Slots) : List Record := s.entries.filterMap fun e => e.2.record?

/-- The expired records, earliest expiry first, at most `limit` of them.  Of records with the same
    expiry, the one whose key has been in the store for longer comes first. -/
def expired (s : Slots) (now : Instant) (limit : Nat) : List Record :=
  let all := s.liveRecords.filter (·.isExpiredAt now)
  (all.mergeSort fun a b => !b.expiresAt.before a.expiresAt).take limit

/-- The outcome of an insertion. -/
def insertOutcome (s : Slots) (r : Record) : InsertOutcome :=
  match s.get? r.key with
  | some (.live existing) => .occupied existing
  | some (.tombstone v) => if r.version ≤ v then .tombstoned v else .inserted
  | none => .inserted

/-- The outcome of a write or removal at an expected version. -/
def writeOutcome (s : Slots) (key : SessionKey) (expected : Version) : WriteOutcome :=
  match s.get? key with
  | some (.live current) => if current.version = expected then .applied else .conflict current
  | _ => .missing

/-- A call: its outcome, the content after it, and the notice of what changed. -/
def apply (s : Slots) : (c : StoreCall) → c.Outcome × Slots × Option Notice
  | .get key => (s.live? key, s, none)
  | .insert r =>
    match s.insertOutcome r with
    | .inserted => (.inserted, s.put r.key (.live r), some (.ofRecord r))
    | o => (o, s, none)
  | .swap key expected r =>
    match s.writeOutcome key expected with
    | .applied => (.applied, s.put key (.live r), some (.ofRecord r))
    | o => (o, s, none)
  | .remove key expected =>
    match s.get? key with
    | some (.live current) =>
      if current.version = expected then
        (.applied, s.put key (.tombstone current.tombstoneVersion), some (.removed key))
      else (.conflict current, s, none)
    | _ => (.missing, s, none)
  | .scan now limit => (s.expired now limit, s, none)
  | .ping => ((), s, none)

/-! ## The view by keys -/

/-- What is found after a slot is put: that slot under its key, and the old ones under the others.
    -/
theorem lookup_putEntry (key k : SessionKey) (slot : Slot) (es : List (SessionKey × Slot)) :
    (putEntry key slot es).lookup k = if k = key then some slot else es.lookup k := by
  induction es with
  | nil =>
    by_cases h : k = key
    · simp [putEntry, h]
    · simp [putEntry, List.lookup_cons, beq_false_of_ne h, h]
  | cons e rest ih =>
    obtain ⟨k', old⟩ := e
    by_cases h' : k' = key
    · subst h'
      by_cases h : k = k'
      · simp [putEntry, h]
      · simp [putEntry, List.lookup_cons, beq_false_of_ne h, h]
    · by_cases h : k = k'
      · subst h
        simp [putEntry, h']
      · simp [putEntry, h', List.lookup_cons, beq_false_of_ne h, ih]

@[simp] theorem get?_put (s : Slots) (key k : SessionKey) (slot : Slot) :
    (s.put key slot).get? k = if k = key then some slot else s.get? k :=
  lookup_putEntry key k slot s.entries

end Slots

end SessionCluster
