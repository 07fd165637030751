/-
  Publishing with retries — one event, several attempts.

  Each attempt may be accepted, refused for a passing reason, refused for good, or not answered
  in time; the last counts as passing.  Passing failures are followed by a wait and another
  attempt while attempts are left.  The failure of the last attempt then carries how many there
  were; a failure for good is handed on as it is.
-/
import SessionCluster.Delivery.Backoff
import SessionCluster.Program
import SessionCluster.Session.Fault

namespace SessionCluster.Publishing

/-- What delivering an event asks for. -/
inductive Request where
  /-- One attempt, cut off after its time limit. -/
  | attempt
  /-- A wait between attempts. -/
  | pause (d : Span)

/-- What it is answered; an attempt that was cut off has no answer. -/
def Answer : Request → Type
  | .attempt => Option (Except BrokerError Unit)
  | .pause _ => Unit

/-- The failure that an attempt without an answer counts as. -/
def timedOut (after : Span) : BrokerError :=
  ⟨.brokerUnavailable, "Publish timed out after " ++ after.text, []⟩

/-- The failure of a probe without an answer. -/
def pingTimedOut (after : Span) : BrokerError :=
  ⟨.brokerUnavailable, "Broker ping timed out after " ++ after.text, []⟩

/-- The outcome of an attempt. -/
def outcome (limit : Span) : Option (Except BrokerError Unit) → Except BrokerError Unit
  | some r => r
  | none => .error (timedOut limit)

/-- The attempt with a number, when `left` more may follow. -/
def tries (b : Backoff) : (left number : Nat) → Program Answer (Except BrokerError Unit)
  | left, number =>
    .ask .attempt fun r =>
      match outcome b.attemptTimeout r with
      | .ok () => .done (.ok ())
      | .error e =>
        if !e.isTransient then .done (.error e)
        else match left with
          | 0 => .done (.error (e.withDetail "attempts" (Text.decimal number)))
          | left + 1 => .ask (.pause (b.delayAfter number)) fun _ => tries b left (number + 1)

/-- Delivers an event. -/
def publish (b : Backoff) : Program Answer (Except BrokerError Unit) :=
  tries b (b.attempts - 1) 1

end SessionCluster.Publishing
