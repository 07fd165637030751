/-
  What session operations ask of their node.

  An operation reads the clock, calls the store, consults the cache, hands in events, has a cache
  entry forgotten, and collects warnings.  Calls on the store and the cache are cut off after the
  node's time limits; `none` is the answer that did not come.  A failure of the cache is no
  different from a miss.

  Reading the clock, handing in events and starting to forget take no time: no other operation
  comes between them and the question before.  Everything else is a point where others run, and
  where the operation itself may be dropped.
-/
import SessionCluster.Delivery.Lanes
import SessionCluster.Program
import SessionCluster.Store.Slot

namespace SessionCluster

/-- A question of a session operation. -/
inductive Request where
  /-- The wall clock. -/
  | now
  /-- A call on the store. -/
  | store (c : StoreCall)
  /-- The cached record of a key. -/
  | cached (key : SessionKey)
  /-- Stores a copy in the cache. -/
  | cache (r : Record) (freshFor : Span)
  /-- Hands in events about changes; the last change is the operation's own. -/
  | announce (earlier : List Change) (own : Change)
  /-- Starts to remove a key from the cache, whatever becomes of the operation. -/
  | beginForget (key : SessionKey)
  /-- Waits until that has been done, or given up. -/
  | forgotten (ticket : Nat)
  /-- Removes a key from the cache, as a part of the operation. -/
  | forget (key : SessionKey)
  /-- Waits for the outcomes of events, as long as the node's limit allows. -/
  | warnings (pending : PendingAcks)

namespace Request

/-- What a question is answered. -/
def Answer : Request → Type
  | .now => Instant
  | .store c => Option (Except StoreFault c.Outcome)
  | .cached _ => Option Record
  | .cache _ _ => Unit
  | .announce _ _ => PendingAcks × Event
  | .beginForget _ => Nat
  | .forgotten _ => Unit
  | .forget _ => Unit
  | .warnings _ => List Warning

/-- Whether others may run, and the operation may be dropped, before the answer comes. -/
def isAwait : Request → Bool
  | .now | .announce _ _ | .beginForget _ => false
  | .store _ | .cached _ | .cache _ _ | .forgotten _ | .forget _ | .warnings _ => true

end Request

/-- A session operation. -/
abbrev Operation (α : Type) := Program Request.Answer α

end SessionCluster
