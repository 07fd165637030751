/-
  The store in memory — slots with a change feed, a switch that makes it fail, and a delay.

  The delay and the switch come before the operation: a call first waits, then fails if the
  store is marked unavailable, and otherwise takes effect at once.
-/
import SessionCluster.Store.Feed
import SessionCluster.Session.Fault

namespace SessionCluster

/-- A store in memory. -/
structure MemoryStore where
  slots : Slots := {}
  feed : Feed := {}
  unavailable : Bool := false
  /-- Milliseconds that every call takes. -/
  latency : Nat := 0

namespace MemoryStore

/-- What a store that is marked unavailable answers. -/
def fault : StoreFault := .unavailable "in-memory store marked unavailable"

/-- The moment at which a call takes effect. -/
def call (s : MemoryStore) (c : StoreCall) : MemoryStore × Except StoreFault c.Outcome :=
  if s.unavailable then (s, .error fault)
  else
    match s.slots.apply c with
    | (o, slots, some n) => ({ s with slots, feed := s.feed.send n }, .ok o)
    | (o, slots, none) => ({ s with slots }, .ok o)

end MemoryStore

end SessionCluster
