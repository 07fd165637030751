/-
  Attempts — connecting to a target whose behaviour is written down in advance.

  Each attempt takes the next step of the script, and the standing step once the script is used
  up: it takes a while, and then perhaps never answers, or fails, or gives its value.  Attempts
  are recorded with their tick.
-/
import SessionCluster.Delivery.Connecting
import SessionCluster.Run.Machine

namespace SessionCluster

/-- How one attempt goes. -/
structure AttemptStep (α : Type) where
  /-- Milliseconds it takes. -/
  delay : Nat := 0
  /-- Whether it never answers. -/
  hangs : Bool := false
  outcome : Except String α

/-- A target that follows a script; `calls` holds the ticks of the attempts, latest first. -/
structure RehearsedTarget (α : Type) where
  script : List (AttemptStep α) := []
  standing : AttemptStep α
  calls : List Nat := []

namespace RehearsedTarget

variable {α : Type}

/-- The beginning of an attempt: it is recorded, and takes its step. -/
def begin (t : RehearsedTarget α) (tick : Nat) : RehearsedTarget α × AttemptStep α :=
  let called := { t with calls := tick :: t.calls }
  match t.script with
  | [] => (called, t.standing)
  | s :: rest => ({ called with script := rest }, s)

/-- An activity that meets only such a target. -/
abbrev Act (α β : Type) := Activity (RehearsedTarget α) Empty β

/-- One attempt. -/
def attempt : Act α (Except String α) := do
  let how ← Activity.stepAt fun tick t => t.begin tick
  if how.delay ≠ 0 then Activity.sleepTicks how.delay
  if how.hangs then .never else pure how.outcome

/-- Connects, with retries. -/
def connect (b : Backoff) : Act α (Except Connecting.Failure α) :=
  Activity.ofProgram
    (fun (q : Connecting.Request) => show Act α (Connecting.Answer α q) from
      match q with
      | .attempt => Activity.within b.attemptTimeout attempt
      | .pause d => Activity.sleep d)
    (Connecting.connect b)

/-- How many rounds connecting may take. -/
def roundLimit : Nat := 1000000000

/-- Connects from the first tick on; the answer comes with the machine in which it was found. -/
def run (t : RehearsedTarget α) (b : Backoff) :
    Option (Except Connecting.Failure α) × Machine (RehearsedTarget α) Empty :=
  Machine.run (fun task => nomatch task) roundLimit (connect b) { world := t }

end RehearsedTarget

end SessionCluster
