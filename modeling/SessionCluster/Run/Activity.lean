/-
  Activities — programs that take time.

  An activity works on a state that it shares with others.  It acts (at once, reading and
  changing the state), waits (until the state satisfies a condition, or a moment is reached), or
  starts another task beside itself.  Between two waits nothing else happens, so what it does
  there is one step for everybody else.

  Time is counted in whole ticks from the start of a run, a millisecond each; a timer set to a
  span fires at the first tick at which the span is over.

  * `within` gives an activity a moment by which to finish.  The activity goes first: at that very
    moment it may still finish.
  * `before` is stricter: at that moment the activity no longer runs.
  * `both` runs two activities side by side; the first goes first.
  * `ofProgram` runs a program, given an activity for each of its questions.
-/
import SessionCluster.Program
import SessionCluster.Time.Span

namespace SessionCluster

/-- A computation over a shared state `σ` that may start tasks named by `τ`. -/
inductive Activity (σ τ α : Type) where
  | done (a : α)
  /-- Changes the state and goes on; both see the tick and the state from before the change. -/
  | act (change : Nat → σ → σ) (next : Nat → σ → Activity σ τ α)
  /-- Goes on when the condition holds or the tick is reached. -/
  | wait (ready : σ → Bool) (deadline : Option Nat) (next : Activity σ τ α)
  /-- Waits for something that does not come. -/
  | never
  /-- Starts a task and goes on. -/
  | spawn (task : τ) (next : Activity σ τ α)

namespace Activity

variable {σ τ α β : Type}

/-- An activity, and then another that knows its answer. -/
def bind : Activity σ τ α → (α → Activity σ τ β) → Activity σ τ β
  | .done a, f => f a
  | .act u k, f => .act u fun n s => (k n s).bind f
  | .wait r d k, f => .wait r d (k.bind f)
  | .never, _ => .never
  | .spawn t k, f => .spawn t (k.bind f)

instance : Monad (Activity σ τ) where
  pure := .done
  bind := bind

theorem bind_done (p : Activity σ τ α) : p.bind .done = p := by
  induction p with
  | done a => rfl
  | act u k ih => simp only [bind]; congr 1; funext n s; exact ih n s
  | wait r d k ih => simp only [bind, ih]
  | never => rfl
  | spawn t k ih => simp only [bind, ih]

/-- Activities in a row may be grouped as one likes. -/
theorem bind_assoc {γ : Type} (p : Activity σ τ α) (f : α → Activity σ τ β)
    (g : β → Activity σ τ γ) : (p.bind f).bind g = p.bind fun a => (f a).bind g := by
  induction p with
  | done a => rfl
  | act u k ih => simp only [bind]; congr 1; funext n s; exact ih n s
  | wait r d k ih => simp only [bind, ih]
  | never => rfl
  | spawn t k ih => simp only [bind, ih]

/-! ## Steps -/

/-- Reads something off the state. -/
def read (f : σ → α) : Activity σ τ α := .act (fun _ s => s) fun _ s => .done (f s)

/-- Changes the state. -/
def change (f : σ → σ) : Activity σ τ Unit := .act (fun _ s => f s) fun _ _ => .done ()

/-- Changes the state and answers with something about it. -/
def step (f : σ → σ × α) : Activity σ τ α := .act (fun _ s => (f s).1) fun _ s => .done (f s).2

/-- Like `step`, with the tick. -/
def stepAt (f : Nat → σ → σ × α) : Activity σ τ α :=
  .act (fun n s => (f n s).1) fun n s => .done (f n s).2

/-- The tick. -/
def tick : Activity σ τ Nat := .act (fun _ s => s) fun n _ => .done n

/-- Waits until a tick is reached. -/
def sleepUntil (t : Nat) : Activity σ τ Unit := .wait (fun _ => false) (some t) (.done ())

/-- Waits for a number of ticks. -/
def sleepTicks (n : Nat) : Activity σ τ Unit := tick.bind fun now => sleepUntil (now + n)

/-- Waits for a span. -/
def sleep (d : Span) : Activity σ τ Unit := sleepTicks d.ticks

/-- Waits until the state satisfies a condition. -/
def until_ (ready : σ → Bool) : Activity σ τ Unit := .wait ready none (.done ())

/-! ## Deadlines -/

/-- The earlier of a deadline and a moment. -/
def earliest (d : Option Nat) (t : Nat) : Option Nat :=
  match d with
  | some e => some (min e t)
  | none => some t

/-- Whether a deadline is reached. -/
def reached (d : Option Nat) (now : Nat) : Bool :=
  match d with
  | some t => t ≤ now
  | none => false

/-- Runs an activity until a moment.  Where it waits, it goes on if it can, even at that very
moment; otherwise it is dropped. -/
def withinTick (t : Nat) : Activity σ τ α → Activity σ τ (Option α)
  | .done a => .done (some a)
  | .act u k => .act u fun n s => withinTick t (k n s)
  | .wait r d k =>
    .wait r (earliest d t) <| .act (fun _ s => s) fun n s =>
      if r s || reached d n then withinTick t k else .done none
  | .never => .wait (fun _ => false) (some t) (.done none)
  | .spawn x k => .spawn x (withinTick t k)

/-- Runs an activity for at most a span from now. -/
def within (d : Span) (p : Activity σ τ α) : Activity σ τ (Option α) :=
  tick.bind fun now => withinTick (now + d.ticks) p

/-- Runs an activity before a moment: at that moment it is dropped, even if it could go on. -/
def beforeTick (t : Nat) : Activity σ τ α → Activity σ τ (Option α)
  | .done a => .done (some a)
  | .act u k => .act u fun n s => beforeTick t (k n s)
  | .wait r d k =>
    .wait r (earliest d t) <| .act (fun _ s => s) fun n _ =>
      if t ≤ n then .done none else beforeTick t k
  | .never => .wait (fun _ => false) (some t) (.done none)
  | .spawn x k => .spawn x (beforeTick t k)

/-- Runs an activity for less than a span from now; with no time at all it does not begin. -/
def before (d : Span) (p : Activity σ τ α) : Activity σ τ (Option α) :=
  tick.bind fun now => if d.ticks = 0 then .done none else beforeTick (now + d.ticks) p

/-! ## Side by side -/

/-- The earlier of two deadlines. -/
def earlier (d e : Option Nat) : Option Nat :=
  match e with
  | some t => earliest d t
  | none => d

/-- Runs an activity beside one that waits: `resume` is what becomes of the waiting one when its
condition holds or its deadline is reached. -/
def beside (r : σ → Bool) (d : Option Nat) (resume : Activity σ τ β → Activity σ τ (α × β))
    (waiting : Activity σ τ α) : Activity σ τ β → Activity σ τ (α × β)
  | .done b => waiting.bind fun a => .done (a, b)
  | .act u k => .act u fun n s => beside r d resume waiting (k n s)
  | .wait r' d' k =>
    .wait (fun s => r s || r' s) (earlier d d') <| .act (fun _ s => s) fun n s =>
      if r s || reached d n then resume (.wait r' d' k) else beside r d resume waiting k
  | .never => .wait r d (resume .never)
  | .spawn x k => .spawn x (beside r d resume waiting k)

/-- Runs two activities at once; where both can go on, the first goes first. -/
def both : Activity σ τ α → Activity σ τ β → Activity σ τ (α × β)
  | .done a, q => q.bind fun b => .done (a, b)
  | .act u k, q => .act u fun n s => both (k n s) q
  | .wait r d k, q => beside r d (both k) (.wait r d k) q
  | .never, q => q.bind fun _ => .never
  | .spawn x k, q => .spawn x (both k q)

/-! ## Programs -/

/-- Runs a program, given an activity for each question. -/
def ofProgram {Q : Type} {A : Q → Type} (answer : (q : Q) → Activity σ τ (A q)) :
    Program A α → Activity σ τ α
  | .done a => .done a
  | .ask q next => (answer q).bind fun x => ofProgram answer (next x)

/-- Programs in a row are carried out as activities in a row. -/
theorem ofProgram_bind {Q : Type} {A : Q → Type} (answer : (q : Q) → Activity σ τ (A q))
    (p : Program A α) (f : α → Program A β) :
    ofProgram answer (p.bind f) = (ofProgram answer p).bind fun a => ofProgram answer (f a) := by
  induction p with
  | done a => rfl
  | ask q next ih =>
    show (answer q).bind _ = ((answer q).bind _).bind _
    rw [bind_assoc]
    exact congrArg _ (funext ih)

end Activity

end SessionCluster
