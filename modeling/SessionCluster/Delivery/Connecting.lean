/-
  Connecting with retries — how a node waits for its backends to come up.

  Every failure is worth another attempt.  When none is left, the failure says how many there
  were and what the last one met.
-/
import SessionCluster.Delivery.Backoff
import SessionCluster.Program

namespace SessionCluster.Connecting

/-- What connecting asks for. -/
inductive Request where
  /-- One attempt, cut off after its time limit. -/
  | attempt
  /-- A wait between attempts. -/
  | pause (d : Span)

/-- What it is answered; an attempt that was cut off has no answer. -/
def Answer (α : Type) : Request → Type
  | .attempt => Option (Except String α)
  | .pause _ => Unit

/-- Why no connection was made. -/
structure Failure where
  attempts : Nat
  message : String
deriving DecidableEq

/-- The attempt with a number, when `left` more may follow. -/
def tries {α : Type} (b : Backoff) : (left number : Nat) → Program (Answer α) (Except Failure α)
  | left, number =>
    .ask .attempt fun r =>
      let outcome : Except String α := match r with
        | some r => r
        | none => .error ("timed out after " ++ b.attemptTimeout.text)
      match outcome with
      | .ok a => .done (.ok a)
      | .error message =>
        match left with
        | 0 => .done (.error ⟨number, message⟩)
        | left + 1 => .ask (.pause (b.delayAfter number)) fun _ => tries b left (number + 1)

/-- Connects. -/
def connect {α : Type} (b : Backoff) : Program (Answer α) (Except Failure α) :=
  tries b (b.attempts - 1) 1

/-- The failure to connect to a backend, in words. -/
def Failure.text (f : Failure) (backend : String) : String :=
  "Could not connect to " ++ backend ++ " after " ++ Text.decimal f.attempts ++ " attempts: " ++
    f.message

end SessionCluster.Connecting
