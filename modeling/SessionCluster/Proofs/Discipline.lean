/-
  Disciplines — how to reason about one call at a time.

  Between two polls of a call, others may have changed everything.  A `Discipline` says what each
  poll may do (`poll`), what holds between polls (`inv`), and what can be counted on after polls
  of others (`later`); its laws tie the three together.

  * `Keeps D call post p …` — the operation `p`, wherever it waits and whatever others have done by
    then, makes only polls that the discipline allows, and answers only what `post` allows after
    what it has asked.  It is defined along the operation, so each operation is walked through
    once, by itself.
  * `Discipline.invariant` — if the operations of all calls keep a discipline, then in every run
    its invariant holds and each call is where its operation keeps it.
  * `Discipline.poll_of_step` — and every step of every run is a poll that it allows.
-/
import SessionCluster.Proofs.Interleaving

namespace SessionCluster

/-- What the polls of calls may do, and what calls can count on. -/
structure Discipline (σ : Type) where
  surroundings : Surroundings σ
  /-- The states from which calls go on. -/
  within : σ → Prop
  /-- What holds between polls. -/
  inv : σ → Prop
  /-- What a poll of a call may do, by what is asked in it. -/
  poll : Call → σ → List (Exchange σ) → σ → Prop
  /-- What others may have done. -/
  later : σ → σ → Prop
  later_refl : ∀ w, later w w
  later_trans : ∀ {w₁ w₂ w₃}, later w₁ w₂ → later w₂ w₃ → later w₁ w₃
  poll_nil : ∀ call w, poll call w [] w
  poll_inv : ∀ {call w es w'}, inv w → poll call w es w' → inv w'
  poll_later : ∀ {call w es w'}, inv w → poll call w es w' → later w w'

variable {σ α : Type}

/-- `Keeps D call post p past w₀ es w` — `p` is what is left of the call, which has asked `past`
    before this poll, began the poll in `w₀`, has asked `es` in it and now is in `w`. -/
def Keeps (D : Discipline σ) (call : Call) (post : List (Exchange σ) → α → Prop) :
    Operation α → List (Exchange σ) → σ → List (Exchange σ) → σ → Prop
  | .done a, past, w₀, es, w => D.poll call w₀ es w ∧ post (past ++ es) a
  | .ask q next, past, w₀, es, w =>
    match q.isAwait with
    | true =>
      D.poll call w₀ es w ∧
        ∀ w₁, D.later w w₁ → D.within w₁ → D.inv w₁ → ∀ x w₂, D.surroundings w₁ q x w₂ →
          Keeps D call post (next x) (past ++ es) w₁ [⟨w₁, q, x, w₂⟩] w₂
    | false =>
      ∀ x w₂, D.surroundings w q x w₂ →
        Keeps D call post (next x) past w₀ (es ++ [⟨w, q, x, w₂⟩]) w₂

/-- A call at rest, in any state since its last poll: it has answered well, or its next poll will
    keep the discipline. -/
def Rests (D : Discipline σ) (call : Call) (post : List (Exchange σ) → α → Prop) :
    Operation α → List (Exchange σ) → σ → Prop
  | .done a, past, _ => post past a
  | .ask q next, past, w =>
    ∀ w₁, D.later w w₁ → D.within w₁ → D.inv w₁ → ∀ x w₂, D.surroundings w₁ q x w₂ →
      Keeps D call post (next x) past w₁ [⟨w₁, q, x, w₂⟩] w₂

variable {D : Discipline σ} {call : Call} {post : List (Exchange σ) → α → Prop}

/-- What others do leaves a call at rest. -/
theorem Rests.mono {p : Operation α} {past : List (Exchange σ)} {w w' : σ}
    (h : Rests D call post p past w) (hl : D.later w w') : Rests D call post p past w' := by
  cases p with
  | done a => exact h
  | ask q next => exact fun w₁ hl₁ => h w₁ (D.later_trans hl hl₁)

/-- A poll that keeps the discipline ends as a poll that it allows, with the call at rest. -/
theorem Keeps.settles {p p' : Operation α} {w w' : σ} {fs : List (Exchange σ)}
    (hs : Settles D.surroundings w p fs w' p') :
    ∀ {past : List (Exchange σ)} {w₀ : σ} {es : List (Exchange σ)},
      Keeps D call post p past w₀ es w →
      D.poll call w₀ (es ++ fs) w' ∧ Rests D call post p' (past ++ (es ++ fs)) w' := by
  induction hs with
  | @rest w p hp =>
    intro past w₀ es h
    rw [List.append_nil]
    cases p with
    | done a => exact h
    | ask q next =>
      have hq : q.isAwait = true := hp
      simp only [Keeps, hq] at h
      exact h
  | @ask w q next x w₁ fs w₂ p hq ha _ ih =>
    intro past w₀ es h
    simp only [Keeps, hq] at h
    have := ih (h x w₁ ha)
    rwa [List.append_assoc, List.singleton_append] at this

section

variable {post : (c : Call) → List (Exchange σ) → c.Answer → Prop}

/-- Whether all calls of a cluster are at rest. -/
def AllRest (D : Discipline σ) (post : (c : Call) → List (Exchange σ) → c.Answer → Prop)
    (c : Cluster σ) : Prop :=
  ∀ i p, c.calls i = some p → Rests D p.call (post p.call) p.rest p.made c.world

/-- A step at which one call is replaced leaves the others at rest. -/
theorem AllRest.update {c : Cluster σ} {w : σ} {i : Nat} {r : Option (Progress σ)}
    (h : AllRest D post c) (hl : D.later c.world w)
    (hr : ∀ p, r = some p → Rests D p.call (post p.call) p.rest p.made w) :
    AllRest D post ⟨w, Function.update c.calls i r⟩ := by
  intro j p hp
  rcases update_eq_some hp with ⟨rfl, hnew⟩ | hold
  · exact hr p hnew
  · exact (h j p hold).mono hl

variable (hkeep : ∀ (c : Call) (w : σ), Keeps D c (post c) c.operation [] w [] w)
include hkeep

/-- One step: it is a poll that the discipline allows, and all calls are at rest after it. -/
theorem Discipline.step {c c' : Cluster σ} {call : Call} {es : List (Exchange σ)}
    (hw : D.within c.world) (hi : D.inv c.world) (hr : AllRest D post c)
    (hs : Step D.surroundings c call es c') :
    D.poll call c.world es c'.world ∧ AllRest D post c' := by
  cases hs with
  | start i _ hs =>
    obtain ⟨hp, hr'⟩ := Keeps.settles hs (hkeep _ c.world)
    refine ⟨hp, hr.update (D.poll_later hi hp) ?_⟩
    intro p hpr
    obtain rfl := Option.some.inj hpr
    exact hr'
  | resume i hn ha hs =>
    -- the call was at rest whatever others had done, so also in this state
    have hk := hr i _ hn c.world (D.later_refl _) hw hi _ _ ha
    obtain ⟨hp, hr'⟩ := Keeps.settles hs hk
    refine ⟨hp, hr.update (D.poll_later hi hp) ?_⟩
    intro p hpr
    obtain rfl := Option.some.inj hpr
    exact hr'
  | drop i =>
    refine ⟨D.poll_nil _ _, hr.update (D.later_refl _) ?_⟩
    intro p hp
    cases hp

/-- **The rule**: calls that keep a discipline keep its invariant, in every run. -/
theorem Discipline.invariant {w : σ} (hi : D.inv w) {c : Cluster σ}
    (h : Leads D.surroundings D.within (.idle w) c) : D.inv c.world ∧ AllRest D post c := by
  induction h with
  | refl =>
    refine ⟨hi, ?_⟩
    intro i p hp
    cases hp
  | tail _ hst ih =>
    obtain ⟨hw, call, es, hs⟩ := hst
    obtain ⟨hp, hr⟩ := Discipline.step hkeep hw ih.1 ih.2 hs
    exact ⟨D.poll_inv ih.1 hp, hr⟩

/-- Every step of every run is a poll that the discipline allows. -/
theorem Discipline.poll_of_step {w : σ} (hi : D.inv w) {c c' : Cluster σ} {call : Call}
    {es : List (Exchange σ)} (h : Leads D.surroundings D.within (.idle w) c)
    (hw : D.within c.world) (hs : Step D.surroundings c call es c') :
    D.poll call c.world es c'.world := by
  obtain ⟨hinv, hrest⟩ := Discipline.invariant hkeep hi h
  exact (Discipline.step hkeep hw hinv hrest hs).1

/-- Along every run, what comes later is what others may have done. -/
theorem Discipline.later_of_leads {w : σ} (hi : D.inv w) {c c' : Cluster σ}
    (h : Leads D.surroundings D.within (.idle w) c)
    (h' : Leads D.surroundings D.within c c') : D.later c.world c'.world := by
  induction h' with
  | refl => exact D.later_refl _
  | @tail c₁ c₂ h₁ hst ih =>
    obtain ⟨hw, call, es, hs⟩ := hst
    have hreach : Leads D.surroundings D.within (.idle w) c₁ := h.trans h₁
    obtain ⟨hinv, _⟩ := Discipline.invariant hkeep hi hreach
    exact D.later_trans ih
      (D.poll_later hinv (Discipline.poll_of_step hkeep hi hreach hw hs))

end

end SessionCluster
