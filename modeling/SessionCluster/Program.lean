/-
  Programs — what an operation asks of its surroundings, and what it does with the answers.

  A program is finished, or it asks a question and continues with the answer.  It holds no state
  and no time: whoever answers decides how the questions of several programs interleave, which of
  them fail, and whether a program is dropped between a question and its answer.  So one
  definition of an operation serves both to run it and to reason about every way of running it.

  `Program.bind` puts programs in sequence; with it programs are a lawful monad.
-/

namespace SessionCluster

/-- A computation with answer `α` that asks questions `q : Q`, answered in `A q`. -/
inductive Program {Q : Type} (A : Q → Type) (α : Type) where
  | done (a : α)
  | ask (q : Q) (next : A q → Program A α)

namespace Program

variable {Q : Type} {A : Q → Type} {α β γ : Type}

/-- A program, and then another that knows its answer. -/
def bind : Program A α → (α → Program A β) → Program A β
  | .done a, f => f a
  | .ask q next, f => .ask q fun x => (next x).bind f

/-- The program that asks one question. -/
def query (q : Q) : Program A (A q) := .ask q .done

/-- Replaces every question by a program of other questions. -/
def expand {R : Type} {B : R → Type} (f : (q : Q) → Program B (A q)) :
    Program A α → Program B α
  | .done a => .done a
  | .ask q next => (f q).bind fun x => expand f (next x)

instance : Monad (Program A) where
  pure := .done
  bind := bind

theorem bind_done (p : Program A α) : p.bind .done = p := by
  induction p with
  | done a => rfl
  | ask q next ih => simp only [bind]; congr 1; funext x; exact ih x

theorem bind_assoc (p : Program A α) (f : α → Program A β) (g : β → Program A γ) :
    (p.bind f).bind g = p.bind fun a => (f a).bind g := by
  induction p with
  | done a => rfl
  | ask q next ih => simp only [bind]; congr 1; funext x; exact ih x

@[simp] theorem pure_eq (a : α) : (pure a : Program A α) = .done a := rfl

@[simp] theorem bind_eq (p : Program A α) (f : α → Program A β) : p >>= f = p.bind f := rfl

instance : LawfulMonad (Program A) :=
  LawfulMonad.mk' _ (fun p => bind_done p) (fun _ _ => rfl) (fun p f g => bind_assoc p f g)

end Program

end SessionCluster
