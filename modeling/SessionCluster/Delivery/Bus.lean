/-
  The event bus in memory — keeps every envelope it accepts, in order.

  It can be marked unavailable, and it can be told to fail a number of times.
-/
import SessionCluster.Session.Fault

namespace SessionCluster

/-- A bus in memory: the accepted envelopes, latest first. -/
structure MemoryBus where
  accepted : List Envelope := []
  failuresLeft : Nat := 0
  unavailable : Bool := false
  attempts : Nat := 0

namespace MemoryBus

/-- What a bus that is marked unavailable answers. -/
def unavailableError : BrokerError := ⟨.brokerUnavailable, "In-memory bus is unavailable", []⟩

/-- What a bus answers that was told to fail. -/
def injectedError : BrokerError := ⟨.brokerUnavailable, "Injected publish failure", []⟩

/-- Offers an envelope. -/
def publish (b : MemoryBus) (e : Envelope) : MemoryBus × Except BrokerError Unit :=
  let b := { b with attempts := b.attempts + 1 }
  if b.unavailable then (b, .error unavailableError)
  else if 0 < b.failuresLeft then
    ({ b with failuresLeft := b.failuresLeft - 1 }, .error injectedError)
  else ({ b with accepted := e :: b.accepted }, .ok ())

def ping (b : MemoryBus) : Except BrokerError Unit :=
  if b.unavailable then .error unavailableError else .ok ()

/-- The accepted envelopes in order. -/
def events (b : MemoryBus) : List Envelope := b.accepted.reverse

/-- The accepted envelopes of a type. -/
def ofType (b : MemoryBus) (eventType : String) : List Envelope :=
  b.events.filter (·.eventType == eventType)

/-- The accepted envelopes about a session. -/
def about (b : MemoryBus) (aggregateId : String) : List Envelope :=
  b.events.filter (·.aggregateId == aggregateId)

end MemoryBus

end SessionCluster
