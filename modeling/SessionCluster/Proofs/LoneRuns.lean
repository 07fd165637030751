/-
  Lone runs — an activity that nobody else disturbs.

  Without other tasks an activity only waits for moments: what it waits for in the state does not
  come by itself.  So the tick and the state in which it is over are determined by those in which it
  begins, and `Alone` says which, one constructor for each thing that an activity can do.

  * `Alone.withinTick`, `Outlasts.withinTick` — under a limit, an activity that is over by then has
    its answer, and one that still waits then (`Outlasts`) is dropped at that very tick.
  * `Machine.run_alone` — the machine agrees: given rounds enough, a run ends in that tick and state.
-/
import SessionCluster.Run.Machine

namespace SessionCluster

namespace Activity

variable {σ τ α β : Type}

/-- An activity that begins at a tick in a state, alone, is over with an answer at a tick in a
    state. -/
inductive Alone : Activity σ τ α → Nat → σ → α → Nat → σ → Prop where
  | done {a t s} : Alone (.done a) t s a t s
  | act {u k t s a t' s'} (h : Alone (k t s) t (u t s) a t' s') : Alone (.act u k) t s a t' s'
  | go {r d k t s a t' s'} (hr : (r s || reached d t) = true) (h : Alone k t s a t' s') :
      Alone (.wait r d k) t s a t' s'
  | sleep {r e k t s a t' s'} (hr : r s = false) (he : t < e) (h : Alone k e s a t' s') :
      Alone (.wait r (some e) k) t s a t' s'

/-- An activity that begins at a tick in a state, alone, still waits when the moment `T` has come;
    the state is then as given. -/
inductive Outlasts (T : Nat) : Activity σ τ α → Nat → σ → σ → Prop where
  | act {u k t s s'} (h : Outlasts T (k t s) t (u t s) s') : Outlasts T (.act u k) t s s'
  | go {r d k t s s'} (hr : (r s || reached d t) = true) (h : Outlasts T k t s s') :
      Outlasts T (.wait r d k) t s s'
  | sleep {r e k t s s'} (hr : r s = false) (he : t < e) (hle : e ≤ T) (h : Outlasts T k e s s') :
      Outlasts T (.wait r (some e) k) t s s'
  | wait {r e k t s} (hr : r s = false) (hle : t ≤ T) (he : T < e) :
      Outlasts T (.wait r (some e) k) t s s
  | never {t s} (hle : t ≤ T) : Outlasts T .never t s s

/-! ## One thing after the other -/

/-- Time does not run backwards. -/
theorem Alone.le {p : Activity σ τ α} {t t' : Nat} {s s' : σ} {a : α} (h : Alone p t s a t' s') :
    t ≤ t' := by
  induction h with
  | done => exact Nat.le_refl _
  | act _ ih => exact ih
  | go _ _ ih => exact ih
  | sleep _ he _ ih => omega

/-- Activities in a row, run alone. -/
theorem Alone.bind {p : Activity σ τ α} {f : α → Activity σ τ β} {t t₁ t' : Nat} {s s₁ s' : σ}
    {a : α} {b : β} (h : Alone p t s a t₁ s₁) (hf : Alone (f a) t₁ s₁ b t' s') :
    Alone (p.bind f) t s b t' s' := by
  induction h with
  | done => exact hf
  | act _ ih => exact .act (ih hf)
  | go hr _ ih => exact .go hr (ih hf)
  | sleep hr he _ ih => exact .sleep hr he (ih hf)

/-- What follows an activity still waits when the moment has come. -/
theorem Alone.outlasts {T : Nat} {p : Activity σ τ α} {f : α → Activity σ τ β} {t t₁ : Nat}
    {s s₁ s' : σ} {a : α} (h : Alone p t s a t₁ s₁) (hle : t₁ ≤ T)
    (hf : Outlasts T (f a) t₁ s₁ s') : Outlasts T (p.bind f) t s s' := by
  induction h with
  | done => exact hf
  | act _ ih => exact .act (ih hle hf)
  | go hr _ ih => exact .go hr (ih hle hf)
  | sleep hr he h ih => exact .sleep hr he (Nat.le_trans h.le hle) (ih hle hf)

/-- An activity that still waits is not followed by anything. -/
theorem Outlasts.bind {T : Nat} {p : Activity σ τ α} {f : α → Activity σ τ β} {t : Nat} {s s' : σ}
    (h : Outlasts T p t s s') : Outlasts T (p.bind f) t s s' := by
  induction h with
  | act _ ih => exact .act ih
  | go hr _ ih => exact .go hr ih
  | sleep hr he hle _ ih => exact .sleep hr he hle ih
  | wait hr hle he => exact .wait hr hle he
  | never hle => exact .never hle

/-- A wait for a number of ticks. -/
theorem alone_sleepTicks (n t : Nat) (s : σ) :
    Alone (sleepTicks n : Activity σ τ Unit) t s () (t + n) s := by
  refine .act ?_
  show Alone (.wait (fun _ => false) (some (t + n)) (.done ())) t s () (t + n) s
  by_cases hn : n = 0
  · subst hn
    exact .go (decide_eq_true (Nat.le_refl t)) .done
  · exact .sleep rfl (by omega) .done

/-- A wait for more ticks than are left. -/
theorem outlasts_sleepTicks {n t T : Nat} (hle : t ≤ T) (hT : T < t + n) (s : σ) :
    Outlasts T (sleepTicks n : Activity σ τ Unit) t s s :=
  .act (.wait rfl hle hT)

/-- A program whose first question is answered. -/
theorem Alone.ofProgram {Q : Type} {A : Q → Type} {answer : (q : Q) → Activity σ τ (A q)} {q : Q}
    {next : A q → Program A α} {t t₁ t' : Nat} {s s₁ s' : σ} {x : A q} {a : α}
    (h : Alone (answer q) t s x t₁ s₁)
    (hnext : Alone (Activity.ofProgram answer (next x)) t₁ s₁ a t' s') :
    Alone (Activity.ofProgram answer (.ask q next)) t s a t' s' :=
  h.bind hnext

/-! ## Limits -/

theorem reached_earliest {d : Option Nat} {t T : Nat} :
    reached (earliest d T) t = true ↔ reached d t = true ∨ T ≤ t := by
  cases d with
  | none => simp [earliest, reached]
  | some e => simp only [earliest, reached, decide_eq_true_eq]; omega

section

variable {T t e t' : Nat} {r : σ → Bool} {d : Option Nat} {k : Activity σ τ α} {s s' : σ}
  {x : Option α}

/-- A wait that is over at once does not meet the limit. -/
theorem alone_withinTick_go (hr : (r s || reached d t) = true)
    (h : Alone (k.withinTick T) t s x t' s') :
    Alone ((wait r d k).withinTick T) t s x t' s' := by
  have hsoon : (r s || reached (earliest d T) t) = true := by
    rcases (Bool.or_eq_true _ _).mp hr with hready | hdue
    · rw [hready, Bool.true_or]
    · rw [reached_earliest.mpr (.inl hdue), Bool.or_true]
  refine .go hsoon (.act ?_)
  show Alone (if r s || reached d t then k.withinTick T else .done none) t s x t' s'
  rw [if_pos hr]
  exact h

/-- Nor does a wait for a moment that comes no later. -/
theorem alone_withinTick_sleep (hr : r s = false) (he : t < e) (hle : e ≤ T)
    (h : Alone (k.withinTick T) e s x t' s') :
    Alone ((wait r (some e) k).withinTick T) t s x t' s' := by
  have hmin : min e T = e := Nat.min_eq_left hle
  refine .sleep hr (by omega) (.act ?_)
  rw [hmin]
  show Alone (if r s || reached (some e) e then k.withinTick T else .done none) e s x t' s'
  rw [if_pos (by rw [hr]; exact decide_eq_true (Nat.le_refl e))]
  exact h

/-- A wait that is cut off at the limit ends at that tick. -/
theorem alone_cut {k : Activity σ τ (Option α)} (hr : r s = false) (hle : t ≤ T)
    (hd : ∀ e, d = some e → T < e) (hk : Alone k T s x T s) :
    Alone (.wait r (earliest d T) k) t s x T s := by
  have hmoment : earliest d T = some T := by
    cases d with
    | none => rfl
    | some e => exact congrArg some (Nat.min_eq_right (Nat.le_of_lt (hd e rfl)))
  rw [hmoment]
  rcases Nat.lt_or_eq_of_le hle with hlt | rfl
  · exact .sleep hr hlt hk
  · exact .go (by rw [hr]; exact decide_eq_true (Nat.le_refl _)) hk

end

/-- **An activity that is over in time has its answer**, at the limit at the latest. -/
theorem Alone.withinTick {T : Nat} {p : Activity σ τ α} {t t' : Nat} {s s' : σ} {a : α}
    (h : Alone p t s a t' s') (hT : t' ≤ T) : Alone (p.withinTick T) t s (some a) t' s' := by
  induction h with
  | done => exact .done
  | act _ ih => exact .act (ih hT)
  | go hr _ ih => exact alone_withinTick_go hr (ih hT)
  | sleep hr he h ih => exact alone_withinTick_sleep hr he (Nat.le_trans h.le hT) (ih hT)

/-- **An activity that still waits at the limit is dropped at that tick**, without an answer. -/
theorem Outlasts.withinTick {T : Nat} {p : Activity σ τ α} {t : Nat} {s s' : σ}
    (h : Outlasts T p t s s') : Alone (p.withinTick T) t s none T s' := by
  induction h with
  | act _ ih => exact .act ih
  | go hr _ ih => exact alone_withinTick_go hr ih
  | sleep hr he hle _ ih => exact alone_withinTick_sleep hr he hle ih
  | @wait r e k t s hr hle he =>
    refine alone_cut hr hle (by rintro _ ⟨⟩; exact he) (.act ?_)
    show Alone (if r s || reached (some e) T then k.withinTick T else .done none) T s none T s
    have hlate : reached (some e) T = false := decide_eq_false (by omega)
    rw [hr, hlate]
    exact .done
  | never hle => exact alone_cut (d := none) rfl hle nofun .done

end Activity

/-! ## The machine -/

namespace Machine

open Activity

variable {σ τ α : Type} {body : τ → Task σ τ}

/-- A machine without tasks. -/
def lone (t : Nat) (s : σ) : Machine σ τ := { now := t, world := s }

theorem wake_lone (t : Nat) (s : σ) : (lone t s : Machine σ τ).wake = lone t s := rfl

theorem runTasks_lone (n t : Nat) (s : σ) : runTasks body n (lone t s) = lone t s := by
  cases n <;> rfl

/-- Rounds depend only on what becomes of the caller when it goes on. -/
theorem rounds_of_advance {p q : Activity σ τ α} {m m' : Machine σ τ}
    (h : advance body p m = advance body q m') {count : Nat} (hcount : 0 < count) :
    rounds body count [p] m = rounds body count [q] m' := by
  obtain ⟨n, rfl⟩ := Nat.exists_eq_succ_of_ne_zero (Nat.ne_of_gt hcount)
  unfold rounds advanceAll
  rw [h]

/-- A caller that waits for a moment lets the time pass until then. -/
theorem rounds_sleep {r : σ → Bool} {e t : Nat} {k : Activity σ τ α} {s : σ} (hr : r s = false)
    (he : t < e) (n : Nat) :
    rounds body (n + 1) [.wait r (some e) k] (lone t s) =
      rounds body n [.wait r (some e) k] (lone e s) := by
  have hwaits : canGoOn s t (.wait r (some e) k) = false := by
    simp only [canGoOn, hr, reached, Bool.false_or, decide_eq_false_iff_not]
    omega
  have hadvance : advance body (.wait r (some e) k) (lone t s) = (.wait r (some e) k, lone t s) :=
    if_neg (Bool.eq_false_iff.mp hwaits)
  have hlater : max t e = e := Nat.max_eq_right (Nat.le_of_lt he)
  simp only [rounds, advanceAll, hadvance, answers?, runTasks_lone]
  rw [if_neg (by
    show ¬(false || [Activity.wait r (some e) k].any (canGoOn s t)) = true
    simp only [List.any_cons, List.any_nil, hwaits]
    decide)]
  show rounds body n [.wait r (some e) k] (lone (max t e) s).wake = _
  rw [hlater, wake_lone]

/-- Some rounds are enough for an activity alone, and then more make no difference. -/
theorem rounds_alone {p : Activity σ τ α} {t t' : Nat} {s s' : σ} {a : α}
    (h : Alone p t s a t' s') :
    ∃ N, ∀ count, N < count → rounds body count [p] (lone t s) = (some [a], lone t' s') := by
  induction h with
  | done =>
    -- one round is enough to see that it is done
    refine ⟨0, fun count hcount => ?_⟩
    obtain ⟨n, rfl⟩ := Nat.exists_eq_succ_of_ne_zero (Nat.ne_of_gt hcount)
    rfl
  | @act u k t s _ _ _ _ ih =>
    obtain ⟨N, hN⟩ := ih
    -- an act is done in the round that is going on
    have hstep : advance body (.act u k) (lone t s) = advance body (k t s) (lone t (u t s)) := rfl
    refine ⟨N, fun count hcount => ?_⟩
    rw [rounds_of_advance hstep (by omega)]
    exact hN count hcount
  | @go r d k t s _ _ _ hr _ ih =>
    obtain ⟨N, hN⟩ := ih
    -- so is a wait whose condition holds
    have hstep : advance body (.wait r d k) (lone t s) = advance body k (lone t s) := if_pos hr
    refine ⟨N, fun count hcount => ?_⟩
    rw [rounds_of_advance hstep (by omega)]
    exact hN count hcount
  | @sleep r e k t s _ _ _ hr he _ ih =>
    obtain ⟨N, hN⟩ := ih
    -- any other wait takes a round of its own, in which the clock moves to its deadline
    have hdue : (r s || reached (some e) e) = true := by
      rw [hr]
      exact decide_eq_true (Nat.le_refl e)
    have hstep : advance body (.wait r (some e) k) (lone e s) = advance body k (lone e s) :=
      if_pos hdue
    refine ⟨N + 1, fun count hcount => ?_⟩
    obtain ⟨n, rfl⟩ := Nat.exists_eq_succ_of_ne_zero (show count ≠ 0 by omega)
    rw [rounds_sleep hr he, rounds_of_advance hstep (by omega)]
    exact hN n (by omega)

/-- **The machine runs an activity as it goes alone**, given rounds enough. -/
theorem run_alone {p : Activity σ τ α} {t t' : Nat} {s s' : σ} {a : α} (h : Alone p t s a t' s') :
    ∃ N, ∀ count, N < count → run body count p (lone t s) = (some a, lone t' s') := by
  have hrounds : ∃ N, ∀ count, N < count → rounds body count [p] (lone t s) =
      (some [a], lone t' s') := rounds_alone h
  obtain ⟨N, hN⟩ := hrounds
  refine ⟨N, fun count hcount => ?_⟩
  unfold run
  rw [hN count hcount]
  rfl

end Machine

end SessionCluster
