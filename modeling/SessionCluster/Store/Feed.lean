/-
  The change feed — notices of a store for those who subscribe.

  A feed remembers its latest 1024 notices.  A subscriber is a position: how many notices it has
  seen or missed.  One that falls further behind learns how many it missed and continues with
  the oldest that is remembered.
-/
import SessionCluster.Store.Slot

namespace SessionCluster

/-- How many notices a feed remembers. -/
def feedCapacity : Nat := 1024

/-- The notices of a store, latest first, and how many there ever were. -/
structure Feed where
  latest : List Notice := []
  sent : Nat := 0

namespace Feed

/-- Adds a notice. -/
def send (f : Feed) (n : Notice) : Feed := ⟨(n :: f.latest).take feedCapacity, f.sent + 1⟩

/-- What a subscriber receives. -/
inductive Received where
  | notice (n : Notice)
  | lagged (missed : Nat)
  | nothing

/-- What a subscriber at a position receives, and its position after that. -/
def receive (f : Feed) (position : Nat) : Received × Nat :=
  if position + feedCapacity < f.sent then
    (.lagged (f.sent - feedCapacity - position), f.sent - feedCapacity)
  else if position < f.sent then
    match f.latest[f.sent - 1 - position]? with
    | some n => (.notice n, position + 1)
    | none => (.nothing, position)
  else (.nothing, position)

/-- Whether there is something to receive at a position. -/
def hasMore (f : Feed) (position : Nat) : Bool := position < f.sent

end Feed

end SessionCluster
