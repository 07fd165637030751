/-
  The cache in memory — copies of records that stay fresh for a while.

  Freshness runs on the machine's time, not on the wall clock: an entry is served until its
  moment is reached, and dropped by the first miss after that.  Counters tell hits, misses and
  removals apart.  As in the store, a call first waits, then fails if the cache is marked
  unavailable.
-/
import SessionCluster.Session.Fault

namespace SessionCluster

/-- A copy of a record, and until when it is served, in nanoseconds of the machine's time. -/
structure CacheEntry where
  record : Record
  freshUntil : Nat

/-- A call on a cache. -/
inductive CacheCall where
  | get (key : SessionKey)
  | set (record : Record) (freshFor : Span)
  | remove (key : SessionKey)
  | ping

namespace CacheCall

/-- What a call answers when the cache does not fail. -/
def Outcome : CacheCall → Type
  | .get _ => Option Record
  | .set _ _ => Unit
  | .remove _ => Unit
  | .ping => Unit

end CacheCall

/-- A cache in memory. -/
structure MemoryCache where
  entries : List (SessionKey × CacheEntry) := []
  unavailable : Bool := false
  /-- Milliseconds that every call takes. -/
  latency : Nat := 0
  hits : Nat := 0
  misses : Nat := 0
  removals : Nat := 0

namespace MemoryCache

/-- What a cache that is marked unavailable answers. -/
def fault : CacheFault := .unavailable "in-memory cache marked unavailable"

/-- Nanoseconds at a tick. -/
def nanosAt (tick : Nat) : Nat := tick * 1000000

/-- The entry of a key, if it is still fresh. -/
def fresh? (c : MemoryCache) (tick : Nat) (key : SessionKey) : Option Record :=
  match c.entries.lookup key with
  | some e => if nanosAt tick < e.freshUntil then some e.record else none
  | none => none

/-- The entries without a key. -/
def without (c : MemoryCache) (key : SessionKey) : List (SessionKey × CacheEntry) :=
  c.entries.filter (·.1 != key)

/-- Puts an entry in place. -/
def plant (c : MemoryCache) (tick : Nat) (r : Record) (freshFor : Span) : MemoryCache :=
  { c with entries := (r.key, ⟨r, nanosAt tick + freshFor.nanos⟩) :: c.without r.key }

/-- The moment at which a call takes effect. -/
def call (c : MemoryCache) (tick : Nat) :
    (q : CacheCall) → MemoryCache × Except CacheFault q.Outcome
  | .get key =>
    if c.unavailable then (c, .error fault)
    else match c.fresh? tick key with
      | some r => ({ c with hits := c.hits + 1 }, .ok (some r))
      | none => ({ c with misses := c.misses + 1, entries := c.without key }, .ok none)
  | .set r freshFor =>
    if c.unavailable then (c, .error fault) else (c.plant tick r freshFor, .ok ())
  | .remove key =>
    if c.unavailable then (c, .error fault)
    else ({ c with entries := c.without key, removals := c.removals + 1 }, .ok ())
  | .ping => if c.unavailable then (c, .error fault) else (c, .ok ())

end MemoryCache

end SessionCluster
