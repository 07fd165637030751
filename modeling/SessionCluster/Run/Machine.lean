/-
  The machine — runs activities against each other in virtual time.

  There is one group of activities in front (the callers) and any number of background tasks.  A
  round lets every caller go on that can, in their order, and then the tasks that are ready, in
  the order in which they became so.  An activity runs until it waits.  Only when nobody can go
  on does time move, and then to the earliest deadline.

  A task that finishes may name its continuation, which then runs at once; so an endless task is
  one that always names another.  Rounds are counted, since callers may wait forever on each
  other; a run that exceeds the count stops where it is.
-/
import SessionCluster.Run.Activity

namespace SessionCluster

/-- A background task. -/
abbrev Task (σ τ : Type) := Activity σ τ (Option τ)

/-- The state of a run: the tick, what is shared, the tasks that can go on in the order they
became able to, and the tasks that wait, the latest to begin first. -/
structure Machine (σ τ : Type) where
  now : Nat := 0
  world : σ
  ready : List (Task σ τ) := []
  waiting : List (Task σ τ) := []

namespace Machine

variable {σ τ α : Type}

/-- Whether an activity waits and can go on. -/
def canGoOn (world : σ) (now : Nat) : Activity σ τ α → Bool
  | .wait r d _ => r world || Activity.reached d now
  | _ => false

/-- The deadline an activity waits for. -/
def deadline? : Activity σ τ α → Option Nat
  | .wait _ d _ => d
  | _ => none

/-- Moves the tasks that can go on to the end of the ready ones, the longest waiting first. -/
def wake (m : Machine σ τ) : Machine σ τ :=
  let (up, rest) := m.waiting.partition (canGoOn m.world m.now)
  if up.isEmpty then m else { m with ready := m.ready ++ up.reverse, waiting := rest }

/-- Lets an activity go on until it waits or finishes.  After every act the tasks that now can go
on are woken. -/
def advance (body : τ → Task σ τ) : Activity σ τ α → Machine σ τ → Activity σ τ α × Machine σ τ
  | .done a, m => (.done a, m)
  | .act u k, m => advance body (k m.now m.world) { m with world := u m.now m.world }.wake
  | .wait r d k, m =>
    if r m.world || Activity.reached d m.now then advance body k m else (.wait r d k, m)
  | .never, m => (.never, m)
  | .spawn t k, m => advance body k { m with ready := m.ready ++ [body t] }

/-- Lets the callers go on, each in turn. -/
def advanceAll (body : τ → Task σ τ) :
    List (Activity σ τ α) → Machine σ τ → List (Activity σ τ α) × Machine σ τ
  | [], m => ([], m)
  | p :: ps, m =>
    let (p, m) := advance body p m
    let (ps, m) := advanceAll body ps m
    (p :: ps, m)

/-- Lets the ready tasks go on, up to a number of them; a continuation counts as another. -/
def runTasks (body : τ → Task σ τ) : Nat → Machine σ τ → Machine σ τ
  | 0, m => m
  | n + 1, m =>
    match m.ready with
    | [] => m
    | t :: ts =>
      let (t, m) := advance body t { m with ready := ts }
      match t with
      | .done none => runTasks body n m
      | .done (some next) => runTasks body n { m with ready := body next :: m.ready }
      | .never => runTasks body n m
      | t => runTasks body n { m with waiting := t :: m.waiting }

/-- The answers, if all callers have finished. -/
def answers? : List (Activity σ τ α) → Option (List α)
  | [] => some []
  | .done a :: ps => (answers? ps).map (a :: ·)
  | _ :: _ => none

/-- The earliest moment somebody waits for. -/
def earliestDeadline (callers : List (Activity σ τ α)) (m : Machine σ τ) : Option Nat :=
  (callers.filterMap deadline? ++ m.waiting.filterMap deadline?).min?

/-- How many tasks run before the callers are looked at again. -/
def roundLength : Nat := 61

/-- Rounds until all callers have finished.  None when nobody can ever go on, or the count is
used up. -/
def rounds (body : τ → Task σ τ) :
    Nat → List (Activity σ τ α) → Machine σ τ → Option (List α) × Machine σ τ
  | 0, _, m => (none, m)
  | n + 1, callers, m =>
    let (callers, m) := advanceAll body callers m
    match answers? callers with
    | some as => (some as, m)
    | none =>
      let m := runTasks body roundLength m
      if !m.ready.isEmpty || callers.any (canGoOn m.world m.now) then rounds body n callers m
      else
        match earliestDeadline callers m with
        | none => (none, m)
        | some t => rounds body n callers { m with now := max m.now t }.wake

/-- Runs callers side by side until all have finished. -/
def runAll (body : τ → Task σ τ) (count : Nat) (callers : List (Activity σ τ α))
    (m : Machine σ τ) : Option (List α) × Machine σ τ :=
  rounds body count callers m

/-- Runs one caller until it has finished. -/
def run (body : τ → Task σ τ) (count : Nat) (caller : Activity σ τ α) (m : Machine σ τ) :
    Option α × Machine σ τ :=
  let (as, m) := rounds body count [caller] m
  (as.bind List.head?, m)

end Machine

end SessionCluster
