/-
  A rehearsed broker — a bus in memory whose behaviour is written down in advance.

  Each publication takes the next step of the script, and the standing step once the script is
  used up: it takes a while, then perhaps never answers, or fails, and otherwise reaches the bus.
  Calls are recorded with their tick.
-/
import SessionCluster.Delivery.Bus

namespace SessionCluster

/-- How one publication goes. -/
structure PublishStep where
  /-- Milliseconds it takes. -/
  delay : Nat := 0
  /-- Whether it never answers. -/
  hangs : Bool := false
  failure : Option BrokerError := none

/-- A broker that follows a script; `calls` holds the publications so far, latest first. -/
structure RehearsedBus where
  bus : MemoryBus := {}
  script : List PublishStep := []
  standing : PublishStep := {}
  pingHangs : Bool := false
  calls : List (Envelope × Nat) := []

namespace RehearsedBus

/-- The beginning of a publication: it is recorded, and takes its step. -/
def begin (b : RehearsedBus) (e : Envelope) (tick : Nat) : RehearsedBus × PublishStep :=
  let called := { b with calls := (e, tick) :: b.calls }
  match b.script with
  | [] => (called, b.standing)
  | s :: rest => ({ called with script := rest }, s)

/-- The end of a publication that reaches the bus. -/
def finish (b : RehearsedBus) (e : Envelope) : RehearsedBus × Except BrokerError Unit :=
  ({ b with bus := (b.bus.publish e).1 }, (b.bus.publish e).2)

end RehearsedBus

end SessionCluster
