/-
  Polls of activities — how to reason about one activity, whatever others do.

  An activity runs in POLLS, from one wait to the next.  A `Poll` has the tick, the states with
  which it begins and ends, and the tasks that are started in it; between polls others act.  A
  `Course` is the polls that an activity has made so far, and what is left of it: every course is
  a moment at which the activity can be dropped.

  A `Protocol` says which polls are allowed, by a phase that they may change.  `Wp` is what has to
  hold for an activity to keep a protocol and to end well.  It is defined along the activity, with
  a rule for each way to build one:

  * `Wp.bind`, `Wp.ofProgram` — one thing after another;
  * `Wp.within`, `Wp.before` — time limits, given that it is fine to give up at each wait;
  * `Course.kept` — an activity for which `Wp` holds makes only polls that the protocol allows.

  `Machine.advance_course` — what the machine does with an activity that can go on is a course, in
  which nobody else acts; and the tasks started in it are left to the machine.
-/
import SessionCluster.Run.Machine

namespace SessionCluster

/-! ## Courses -/

/-- A poll: its tick, the states before and after it, and the tasks started in it. -/
structure Poll (σ τ : Type) where
  tick : Nat
  before : σ
  after : σ
  started : List τ := []

/-- A poll that begins. -/
def Poll.fresh {σ τ : Type} (tick : Nat) (s : σ) : Poll σ τ := ⟨tick, s, s, []⟩

namespace Activity

variable {σ τ α β φ : Type}

/-- Whether an activity has finished or waits. -/
def atRest : Activity σ τ α → Bool
  | .done _ | .wait .. | .never => true
  | .act .. | .spawn .. => false

/-- The polls of an activity, the first of which has come as far as `e`; what others do between
    two polls is up to a relation.  At the end, the activity is at rest. -/
inductive Course (others : σ → σ → Prop) :
    Activity σ τ α → Poll σ τ → List (Poll σ τ) → Activity σ τ α → Prop where
  | rest {p e} (hp : p.atRest = true) : Course others p e [e] p
  | act {u k e es p}
      (h : Course others (k e.tick e.after) { e with after := u e.tick e.after } es p) :
      Course others (.act u k) e es p
  | spawn {x k e es p} (h : Course others k { e with started := e.started ++ [x] } es p) :
      Course others (.spawn x k) e es p
  | resume {r d k e t s es p} (ho : others e.after s) (hr : (r s || reached d t) = true)
      (h : Course others k (.fresh t s) es p) : Course others (.wait r d k) e (e :: es) p

/-- Lets an activity go on until it is at rest: how far the poll has come, and what is left. -/
def poll : Activity σ τ α → Poll σ τ → Poll σ τ × Activity σ τ α
  | .done a, e => (e, .done a)
  | .act u k, e => poll (k e.tick e.after) { e with after := u e.tick e.after }
  | .wait r d k, e => (e, .wait r d k)
  | .never, e => (e, .never)
  | .spawn x k, e => poll k { e with started := e.started ++ [x] }

/-- Every poll comes to an end. -/
theorem course_poll (others : σ → σ → Prop) (p : Activity σ τ α) :
    ∀ e : Poll σ τ, Course others p e [(p.poll e).1] (p.poll e).2 := by
  induction p with
  | done a => exact fun e => .rest rfl
  | act u k ih =>
    intro e
    rw [poll]
    exact .act (ih _ _ _)
  | wait r d k => exact fun e => .rest rfl
  | never => exact fun e => .rest rfl
  | spawn x k ih =>
    intro e
    rw [poll]
    exact .spawn (ih _)

/-- What comes after an activity that finishes in a poll belongs to the same poll. -/
theorem poll_bind {p : Activity σ τ α} {f : α → Activity σ τ β} {e' : Poll σ τ} {a : α} :
    ∀ {e : Poll σ τ}, p.poll e = (e', .done a) → (p.bind f).poll e = (f a).poll e' := by
  induction p with
  | done a =>
    rintro e ⟨⟩
    rfl
  | act u k ih => exact fun h => ih _ _ h
  | wait r d k => intro e h; cases h
  | never => intro e h; cases h
  | spawn x k ih => exact fun h => ih h

end Activity

/-! ## Protocols -/

/-- Which polls are allowed, by a phase that they may change, and what others may do. -/
structure Protocol (σ τ φ : Type) where
  others : σ → σ → Prop
  poll : φ → Poll σ τ → φ → Prop

variable {σ τ α β φ : Type}

/-- Polls that are allowed one after the other. -/
inductive Protocol.Allows (P : Protocol σ τ φ) : φ → List (Poll σ τ) → φ → Prop where
  | nil {ph} : P.Allows ph [] ph
  | cons {ph ph' ph'' e es} (h : P.poll ph e ph') (hs : P.Allows ph' es ph'') :
      P.Allows ph (e :: es) ph''

/-- An activity that ends with a poll that is allowed, and well. -/
def Protocol.Ends (P : Protocol σ τ φ) (post : α → φ → Prop) (a : α) (ph : φ) (e : Poll σ τ) :
    Prop :=
  ∃ ph', P.poll ph e ph' ∧ post a ph'

/-- What has to hold in a phase, and in a poll that has come as far as `e`, for an activity to
    make only polls that the protocol allows, and to finish in `Q`.  Whenever it goes on after a
    wait, `D` holds as well. -/
def Wp (P : Protocol σ τ φ) (D : φ → Poll σ τ → Prop) (Q : α → φ → Poll σ τ → Prop) :
    Activity σ τ α → φ → Poll σ τ → Prop
  | .done a, ph, e => Q a ph e
  | .act u k, ph, e => Wp P D Q (k e.tick e.after) ph { e with after := u e.tick e.after }
  | .wait _ _ k, ph, e =>
    ∃ ph', P.poll ph e ph' ∧
      ∀ t s, P.others e.after s → D ph' (.fresh t s) ∧ Wp P D Q k ph' (.fresh t s)
  | .never, ph, e =>
    ∃ ph', P.poll ph e ph' ∧ ∀ t s, P.others e.after s → D ph' (.fresh t s)
  | .spawn x k, ph, e => Wp P D Q k ph { e with started := e.started ++ [x] }

variable {P : Protocol σ τ φ} {D : φ → Poll σ τ → Prop}

/-- **Soundness**: the polls of every course are allowed, and an activity that has finished has
    ended well. -/
theorem Activity.Course.kept {post : α → φ → Prop} {p p' : Activity σ τ α} {e : Poll σ τ}
    {es : List (Poll σ τ)} (hc : Course P.others p e es p') :
    ∀ {ph : φ}, Wp P D (P.Ends post) p ph e →
      ∃ ph', P.Allows ph es ph' ∧ ∀ a, p' = .done a → post a ph' := by
  induction hc with
  | @rest p e hp =>
    intro ph h
    -- at rest, the poll has to be allowed as it is
    cases p with
    | done a =>
      obtain ⟨ph', hpoll, hpost⟩ := h
      refine ⟨ph', .cons hpoll .nil, ?_⟩
      rintro a' ⟨⟩
      exact hpost
    | wait r d k =>
      obtain ⟨ph', hpoll, _⟩ := h
      exact ⟨ph', .cons hpoll .nil, nofun⟩
    | never =>
      obtain ⟨ph', hpoll, _⟩ := h
      exact ⟨ph', .cons hpoll .nil, nofun⟩
    | act u k => cases hp
    | spawn x k => cases hp
  | act _ ih => exact ih
  | spawn _ ih => exact ih
  | resume ho _ _ ih =>
    intro ph h
    obtain ⟨ph', hpoll, hnext⟩ := h
    obtain ⟨ph'', hrest, hdone⟩ := ih (hnext _ _ ho).2
    exact ⟨ph'', .cons hpoll hrest, hdone⟩

/-! ## Rules -/

namespace Wp

/-- Reading the state. -/
theorem read {Q : α → φ → Poll σ τ → Prop} {f : σ → α} {ph : φ} {t : Nat} {before s : σ}
    {xs : List τ} (h : Q (f s) ph ⟨t, before, s, xs⟩) :
    Wp P D Q (.read f) ph ⟨t, before, s, xs⟩ := h

/-- A change of the state, with an answer. -/
theorem step {Q : α → φ → Poll σ τ → Prop} {f : σ → σ × α} {ph : φ} {t : Nat} {before s : σ}
    {xs : List τ} (h : Q (f s).2 ph ⟨t, before, (f s).1, xs⟩) :
    Wp P D Q (.step f) ph ⟨t, before, s, xs⟩ := h

/-- One activity after another. -/
theorem bind {Q : β → φ → Poll σ τ → Prop} (p : Activity σ τ α) {f : α → Activity σ τ β} :
    ∀ {ph e}, Wp P D (fun a => Wp P D Q (f a)) p ph e → Wp P D Q (p.bind f) ph e := by
  induction p with
  | done a => exact fun h => h
  | act u k ih => exact fun h => ih _ _ h
  | wait r d k ih =>
    rintro ph e ⟨ph', hpoll, hnext⟩
    exact ⟨ph', hpoll, fun t s ho => ⟨(hnext t s ho).1, ih (hnext t s ho).2⟩⟩
  | never => exact fun h => h
  | spawn x k ih => exact fun h => ih h

/-- The first question of a program, and then the rest of it. -/
theorem ofProgram {R : Type} {A : R → Type} {answer : (q : R) → Activity σ τ (A q)} {q : R}
    {next : A q → Program A α} {Q : α → φ → Poll σ τ → Prop} {ph : φ} {e : Poll σ τ}
    (h : Wp P D (fun x => Wp P D Q (.ofProgram answer (next x))) (answer q) ph e) :
    Wp P D Q (.ofProgram answer (.ask q next)) ph e :=
  bind (answer q) h

section

variable {Q : Option α → φ → Poll σ τ → Prop}

/-- A time limit at a tick: after each wait, the activity goes on or gives up. -/
theorem withinTick (t : Nat) (p : Activity σ τ α) :
    ∀ {ph e}, Wp P (fun ph e => Q none ph e ∧ D ph e) (fun a => Q (some a)) p ph e →
      Wp P D Q (p.withinTick t) ph e := by
  induction p with
  | done a => exact fun h => h
  | act u k ih => exact fun h => ih _ _ h
  | wait r d k ih =>
    rintro ph e ⟨ph', hpoll, hnext⟩
    refine ⟨ph', hpoll, ?_⟩
    intro t' s ho
    obtain ⟨⟨hnone, hD⟩, hgo⟩ := hnext t' s ho
    refine ⟨hD, ?_⟩
    show Wp P D Q (if r s || Activity.reached d t' then _ else _) ph' (.fresh t' s)
    split
    · exact ih hgo
    · exact hnone
  | never =>
    rintro ph e ⟨ph', hpoll, hnext⟩
    exact ⟨ph', hpoll, fun t' s ho => ⟨(hnext t' s ho).2, (hnext t' s ho).1⟩⟩
  | spawn x k ih => exact fun h => ih h

/-- A time limit from now. -/
theorem within {d : Span} {p : Activity σ τ α} {ph : φ} {e : Poll σ τ}
    (h : Wp P (fun ph e => Q none ph e ∧ D ph e) (fun a => Q (some a)) p ph e) :
    Wp P D Q (p.within d) ph e := by
  have heq : p.within d = .act (fun _ s => s) fun now _ => p.withinTick (now + d.ticks) := rfl
  rw [heq, Wp]
  exact withinTick _ p h

/-- A strict time limit at a tick. -/
theorem beforeTick (t : Nat) (p : Activity σ τ α) :
    ∀ {ph e}, Wp P (fun ph e => Q none ph e ∧ D ph e) (fun a => Q (some a)) p ph e →
      Wp P D Q (p.beforeTick t) ph e := by
  induction p with
  | done a => exact fun h => h
  | act u k ih => exact fun h => ih _ _ h
  | wait r d k ih =>
    rintro ph e ⟨ph', hpoll, hnext⟩
    refine ⟨ph', hpoll, ?_⟩
    intro t' s ho
    obtain ⟨⟨hnone, hD⟩, hgo⟩ := hnext t' s ho
    refine ⟨hD, ?_⟩
    show Wp P D Q (if t ≤ t' then _ else _) ph' (.fresh t' s)
    split
    · exact hnone
    · exact ih hgo
  | never =>
    rintro ph e ⟨ph', hpoll, hnext⟩
    exact ⟨ph', hpoll, fun t' s ho => ⟨(hnext t' s ho).2, (hnext t' s ho).1⟩⟩
  | spawn x k ih => exact fun h => ih h

/-- A strict time limit from now; without any time, the activity does not begin. -/
theorem before {d : Span} {p : Activity σ τ α} {ph : φ} {e : Poll σ τ} (hnone : Q none ph e)
    (h : Wp P (fun ph e => Q none ph e ∧ D ph e) (fun a => Q (some a)) p ph e) :
    Wp P D Q (p.before d) ph e := by
  have heq : p.before d = .act (fun _ s => s) fun now _ =>
      if d.ticks = 0 then .done none else p.beforeTick (now + d.ticks) := rfl
  rw [heq, Wp]
  split
  · exact hnone
  · exact beforeTick _ p h

end

end Wp

/-! ## Courses in the machine -/

namespace Machine

open Activity

section

variable (m : Machine σ τ)

theorem wake_world : m.wake.world = m.world := by
  unfold wake
  simp only
  split <;> rfl

theorem wake_now : m.wake.now = m.now := by
  unfold wake
  simp only
  split <;> rfl

/-- Waking tasks takes no task away. -/
theorem mem_wake_ready {t : Task σ τ} (h : t ∈ m.ready) : t ∈ m.wake.ready := by
  unfold wake
  simp only
  split
  · exact h
  · exact List.mem_append_left _ h

end

/-- Running an activity takes no ready task away. -/
theorem mem_advance_ready (body : τ → Task σ τ) {t : Task σ τ} (p : Activity σ τ α) :
    ∀ m : Machine σ τ, t ∈ m.ready → t ∈ (advance body p m).2.ready := by
  induction p with
  | done a => exact fun m h => h
  | never => exact fun m h => h
  | act u k ih => exact fun m h => ih _ _ _ (mem_wake_ready _ h)
  | spawn x k ih => exact fun m h => ih _ (List.mem_append_left _ h)
  | wait r d k ih =>
    intro m h
    unfold advance
    split
    · exact ih m h
    · exact h

/-- **What the machine does with an activity is a course**, in which nobody else acts, and every
    task that was started in it is ready to run by itself. -/
theorem advance_course (body : τ → Task σ τ) (p : Activity σ τ α) :
    ∀ (m : Machine σ τ) (e : Poll σ τ), e.tick = m.now → e.after = m.world →
      (∀ x ∈ e.started, body x ∈ m.ready) →
      ∃ es last, Course Eq p e (es ++ [last]) (advance body p m).1 ∧
        last.after = (advance body p m).2.world ∧
        ∀ e' ∈ es ++ [last], ∀ x ∈ e'.started, body x ∈ (advance body p m).2.ready := by
  have hstop (p : Activity σ τ α) (m : Machine σ τ) (e : Poll σ τ) (hp : p.atRest = true)
      (hw : e.after = m.world) (hr : ∀ x ∈ e.started, body x ∈ m.ready) :
      ∃ es last, Course Eq p e (es ++ [last]) p ∧ last.after = m.world ∧
        ∀ e' ∈ es ++ [last], ∀ x ∈ e'.started, body x ∈ m.ready := by
    refine ⟨[], e, .rest hp, hw, ?_⟩
    intro e' he'
    rwa [List.mem_singleton.mp he']
  induction p with
  | done a => exact fun m e _ hw hr => hstop _ m e rfl hw hr
  | never => exact fun m e _ hw hr => hstop _ m e rfl hw hr
  | act u k ih =>
    intro m e ht hw hr
    have ht' : e.tick = (wake { m with world := u m.now m.world }).now := by
      rw [wake_now]
      exact ht
    have hw' : u m.now m.world = (wake { m with world := u m.now m.world }).world := by
      rw [wake_world]
    obtain ⟨es, last, hc, hrest⟩ :=
      ih m.now m.world _ { e with after := u m.now m.world } ht' hw'
        fun x hx => mem_wake_ready _ (hr x hx)
    have hk : k e.tick e.after = k m.now m.world := by rw [ht, hw]
    have hu : u e.tick e.after = u m.now m.world := by rw [ht, hw]
    refine ⟨es, last, .act ?_, hrest⟩
    rw [hk, hu]
    exact hc
  | spawn x k ih =>
    intro m e ht hw hr
    have hr' : ∀ y ∈ e.started ++ [x], body y ∈ m.ready ++ [body x] := by
      intro y hy
      rcases List.mem_append.mp hy with hy | hy
      · exact List.mem_append_left _ (hr y hy)
      · rw [List.mem_singleton.mp hy]
        exact List.mem_append_right _ (List.mem_singleton.mpr rfl)
    obtain ⟨es, last, hc, hrest⟩ :=
      ih { m with ready := m.ready ++ [body x] } { e with started := e.started ++ [x] } ht hw hr'
    exact ⟨es, last, .spawn hc, hrest⟩
  | wait r d k ih =>
    intro m e ht hw hr
    by_cases hgo : (r m.world || reached d m.now) = true
    · -- the wait is over at once, and another poll begins
      obtain ⟨es, last, hc, hafter, hstarted⟩ := ih m (.fresh m.now m.world) rfl rfl nofun
      unfold advance
      rw [if_pos hgo]
      refine ⟨e :: es, last, .resume hw hgo hc, hafter, ?_⟩
      intro e' he'
      rcases List.mem_cons.mp he' with rfl | he'
      · exact fun x hx => mem_advance_ready body k m (hr x hx)
      · exact hstarted e' he'
    · -- the activity waits
      unfold advance
      rw [if_neg hgo]
      exact hstop _ m e rfl hw hr

end Machine

end SessionCluster
