/-
  Pacts — how to reason about one activity among others that keep to an agreement.

  A `Protocol` lets others do what they like between the polls of an activity.  Some statements
  need more: that what one worker has begun is not begun by another, or that what is found in a
  cache was in the store before.  The second speaks of what has been, so a `History` keeps the
  moments so far, and a poll is a `Turn`: the history at which it began, the state that it has
  reached, and the tasks that it has started.

  A `Pact` says what holds of the history at every moment, what a poll may do, and what happens
  while an activity waits.  The last two depend on the SEAT of the activity, since a member may
  rely on more than others if nobody else has its seat.

  `Safe` is what has to hold for an activity to keep the pact and to end well.  It is defined
  along the activity, like `Wp`, and has a rule for each way to build one:

  * `Safe.bind`, `Safe.ofProgram` — one thing after another;
  * `Safe.within` — a time limit: what happens under it happens in time, and it is fine to give
    up at each wait;
  * `Safe.rests` — after a poll, the activity is at rest, and safe whenever it goes on.

  Parties stand in rows, where one at a time is replaced or leaves (`forall_mem_replaced`,
  `forall_mem_without`).
-/
import SessionCluster.Proofs.Polls
import Mathlib.Logic.Relation

namespace SessionCluster

/-! ## Histories -/

/-- A state at a tick. -/
structure Moment (σ : Type) where
  tick : Nat
  state : σ

/-- What has been so far: the moment that is now, and those before, the latest first. -/
structure History (σ : Type) where
  now : Moment σ
  past : List (Moment σ) := []

namespace History

variable {σ : Type} {f f' : Moment σ → Moment σ → Prop} {h h' h'' : History σ}

/-- All moments, the latest first. -/
def moments (h : History σ) : List (Moment σ) := h.now :: h.past

/-- The history after another moment. -/
def push (h : History σ) (m : Moment σ) : History σ := ⟨m, h.moments⟩

/-- The moments go on, each as it may follow the one before, and time does not go back. -/
def Continues (f : Moment σ → Moment σ → Prop) : History σ → History σ → Prop :=
  Relation.ReflTransGen fun h h' => ∃ m, f h.now m ∧ h.now.tick ≤ m.tick ∧ h' = h.push m

theorem Continues.refl : Continues f h h := Relation.ReflTransGen.refl

theorem Continues.trans (hf : Continues f h h') (hf' : Continues f h' h'') : Continues f h h'' :=
  Relation.ReflTransGen.trans hf hf'

theorem Continues.push {m : Moment σ} (hf : Continues f h h') (hm : f h'.now m)
    (ht : h'.now.tick ≤ m.tick) : Continues f h (h'.push m) :=
  Relation.ReflTransGen.tail hf ⟨m, hm, ht, rfl⟩

theorem Continues.mono (hsub : ∀ m m', f m m' → f' m m') (hf : Continues f h h') :
    Continues f' h h' := by
  induction hf with
  | refl => exact .refl
  | tail _ hlast ih =>
    obtain ⟨m, hm, ht, rfl⟩ := hlast
    exact ih.push (hsub _ _ hm) ht

/-- The moments so far are the last of the later ones. -/
theorem Continues.suffix (hf : Continues f h h') : h.moments <:+ h'.moments := by
  induction hf with
  | refl => exact List.suffix_refl _
  | tail _ hlast ih =>
    obtain ⟨m, _, _, rfl⟩ := hlast
    exact ih.trans (List.suffix_cons _ _)

/-- No moment is forgotten. -/
theorem Continues.mem (hf : Continues f h h') {m : Moment σ} (hm : m ∈ h.moments) :
    m ∈ h'.moments := hf.suffix.subset hm

/-- What every step keeps is kept, if it is kept by no step at all and by two in turn. -/
theorem Continues.relates {R : Moment σ → Moment σ → Prop} (hrefl : ∀ m, R m m)
    (htrans : ∀ m m' m'', R m m' → R m' m'' → R m m'') (hsub : ∀ m m', f m m' → R m m')
    (hf : Continues f h h') : R h.now h'.now := by
  induction hf with
  | refl => exact hrefl _
  | tail _ hlast ih =>
    obtain ⟨m, hm, _, rfl⟩ := hlast
    exact htrans _ _ _ ih (hsub _ _ hm)

end History

/-! ## Turns -/

/-- A poll that has come some way: the history at which it began, the state that it has reached,
    and the tasks started in it. -/
structure Turn (σ τ : Type) where
  history : History σ
  state : σ
  started : List τ := []

namespace Turn

variable {σ τ : Type}

/-- A poll that begins. -/
def fresh (h : History σ) : Turn σ τ := ⟨h, h.now.state, []⟩

def tick (g : Turn σ τ) : Nat := g.history.now.tick

/-- The turn with another state. -/
def reach (g : Turn σ τ) (s : σ) : Turn σ τ := ⟨g.history, s, g.started⟩

/-- The turn with another task that was started. -/
def launch (g : Turn σ τ) (x : τ) : Turn σ τ := ⟨g.history, g.state, g.started ++ [x]⟩

/-- The history after the poll, if it ends here. -/
def ended (g : Turn σ τ) : History σ := g.history.push ⟨g.tick, g.state⟩

/-- The same as a poll. -/
def poll (g : Turn σ τ) : Poll σ τ := ⟨g.tick, g.history.now.state, g.state, g.started⟩

end Turn

/-! ## Pacts -/

/-- An agreement: what holds at every moment, what a poll of a member may do, and what may happen
    from one moment to the next while a member waits. -/
structure Pact (σ τ κ : Type) where
  inv : History σ → Prop
  allows : κ → Turn σ τ → Prop
  meanwhile : κ → Moment σ → Moment σ → Prop

variable {σ τ κ α β : Type}

/-- Not later than a deadline, if there is one, or than the moment at which it was set. -/
def Punctual (deadline : Option Nat) (since now : Nat) : Prop :=
  ∀ d, deadline = some d → now ≤ max d since

namespace Pact

variable (P : Pact σ τ κ)

/-- The history at which a member may go on that has waited since another one. -/
structure Resumes (k : κ) (deadline : Option Nat) (since h : History σ) : Prop where
  inv : P.inv h
  continues : since.Continues (P.meanwhile k) h
  punctual : Punctual deadline since.now.tick h.now.tick

/-- The end of an activity, in a poll that is allowed. -/
def Ends (k : κ) (post : α → History σ → Prop) (a : α) (g : Turn σ τ) : Prop :=
  P.allows k g ∧ post a g.ended

end Pact

open Activity

/-- What has to hold in a turn for an activity to keep a pact, and to finish in `Q`.  Whenever
    it might go on after a wait, `D` holds as well. -/
def Safe (P : Pact σ τ κ) (k : κ) (D : Turn σ τ → Prop) (Q : α → Turn σ τ → Prop) :
    Activity σ τ α → Turn σ τ → Prop
  | .done a, g => Q a g
  | .act u p, g => Safe P k D Q (p g.tick g.state) (g.reach (u g.tick g.state))
  | .wait r d p, g =>
    P.allows k g ∧ ∀ h, P.Resumes k d g.ended h → D (.fresh h) ∧
      ((r h.now.state || reached d h.now.tick) = true → Safe P k D Q p (.fresh h))
  | .never, g => P.allows k g ∧ ∀ h, P.Resumes k none g.ended h → D (.fresh h)
  | .spawn x p, g => Safe P k D Q p (g.launch x)

/-- What is left of an activity after a poll that ended with a history: it is at rest, has ended
    well if it has finished, and is safe whenever it goes on. -/
def Pact.Rests (P : Pact σ τ κ) (k : κ) (post : α → History σ → Prop) (since : History σ) :
    Activity σ τ α → Prop
  | .done a => post a since
  | .wait r d p =>
    ∀ h, P.Resumes k d since h → (r h.now.state || reached d h.now.tick) = true →
      Safe P k (fun _ => True) (P.Ends k post) p (.fresh h)
  | .never => True
  | .act _ _ | .spawn _ _ => False

namespace Safe

variable {P : Pact σ τ κ} {k : κ} {D : Turn σ τ → Prop}

/-! ## Rules -/

/-- Reading the state. -/
theorem read {Q : α → Turn σ τ → Prop} {f : σ → α} {g : Turn σ τ} (h : Q (f g.state) g) :
    Safe P k D Q (.read f) g := h

/-- A change of the state, with an answer. -/
theorem step {Q : α → Turn σ τ → Prop} {f : σ → σ × α} {g : Turn σ τ}
    (h : Q (f g.state).2 (g.reach (f g.state).1)) : Safe P k D Q (.step f) g := h

/-- A change of the state at a tick, with an answer. -/
theorem stepAt {Q : α → Turn σ τ → Prop} {f : Nat → σ → σ × α} {g : Turn σ τ}
    (h : Q (f g.tick g.state).2 (g.reach (f g.tick g.state).1)) :
    Safe P k D Q (.stepAt f) g := h

/-- A wait. -/
theorem wait {Q : α → Turn σ τ → Prop} {r : σ → Bool} {d : Option Nat}
    {p : Activity σ τ α} {g : Turn σ τ} (hg : P.allows k g)
    (h : ∀ h, P.Resumes k d g.ended h → D (.fresh h) ∧
      ((r h.now.state || reached d h.now.tick) = true → Safe P k D Q p (.fresh h))) :
    Safe P k D Q (.wait r d p) g := ⟨hg, h⟩

/-- One activity after another. -/
theorem bind {Q : β → Turn σ τ → Prop} (p : Activity σ τ α) {f : α → Activity σ τ β} :
    ∀ {g}, Safe P k D (fun a => Safe P k D Q (f a)) p g → Safe P k D Q (p.bind f) g := by
  induction p with
  | done a => exact fun h => h
  | act u p ih => exact fun h => ih _ _ h
  | wait r d p ih =>
    rintro g ⟨hg, hnext⟩
    refine ⟨hg, fun h hh => ?_⟩
    obtain ⟨hD, hgo⟩ := hnext h hh
    exact ⟨hD, fun hr => ih (hgo hr)⟩
  | never => exact fun h => h
  | spawn x p ih => exact fun h => ih h

/-- The first question of a program, and then the rest of it. -/
theorem ofProgram {R : Type} {A : R → Type} {answer : (q : R) → Activity σ τ (A q)} {q : R}
    {next : A q → Program A α} {Q : α → Turn σ τ → Prop} {g : Turn σ τ}
    (h : Safe P k D (fun x => Safe P k D Q (.ofProgram answer (next x))) (answer q) g) :
    Safe P k D Q (.ofProgram answer (.ask q next)) g :=
  bind (answer q) h

/-- What is safe is safe when less is asked for. -/
theorem mono {D' : Turn σ τ → Prop} {Q Q' : α → Turn σ τ → Prop} (hD : ∀ g, D g → D' g)
    (hQ : ∀ a g, Q a g → Q' a g) (p : Activity σ τ α) :
    ∀ {g}, Safe P k D Q p g → Safe P k D' Q' p g := by
  induction p with
  | done a => exact fun h => hQ a _ h
  | act u p ih => exact fun h => ih _ _ h
  | wait r d p ih =>
    rintro g ⟨hg, hnext⟩
    refine ⟨hg, fun h hh => ?_⟩
    obtain ⟨hDh, hgo⟩ := hnext h hh
    exact ⟨hD _ hDh, fun hr => ih (hgo hr)⟩
  | never =>
    rintro g ⟨hg, hnext⟩
    exact ⟨hg, fun h hh => hD _ (hnext h hh)⟩
  | spawn x p ih => exact fun h => ih h

/-! ## Time limits -/

/-- Whoever waits for the earlier of two moments is in time for each of them. -/
theorem punctual_earliest {d : Option Nat} {t since now : Nat}
    (h : Punctual (earliest d t) since now) : Punctual d since now ∧ now ≤ max t since := by
  cases d with
  | none =>
    have hle : now ≤ max t since := h t rfl
    exact ⟨nofun, hle⟩
  | some e =>
    have hle : now ≤ max (min e t) since := h _ rfl
    refine ⟨?_, by omega⟩
    rintro d ⟨⟩
    omega

variable {Q : Option α → Turn σ τ → Prop}

/-- A time limit at a tick: after each wait, which is not later than that, the activity goes on or
    gives up. -/
theorem withinTick {t latest : Nat} (ht : t ≤ latest) (p : Activity σ τ α) :
    ∀ {g}, g.tick ≤ latest →
      Safe P k (fun g => g.tick ≤ latest → Q none g ∧ D g)
        (fun a g => g.tick ≤ latest → Q (some a) g) p g →
      Safe P k D Q (p.withinTick t) g := by
  induction p with
  | done a => exact fun hg h => h hg
  | act u p ih => exact fun hg h => ih _ _ hg h
  | wait r d p ih =>
    rintro g hg ⟨hallow, hnext⟩
    refine ⟨hallow, fun h hh => ?_⟩
    -- the wait with a limit ends no later than either of the two
    obtain ⟨hd, hlim⟩ := punctual_earliest hh.punctual
    have hnow : h.now.tick ≤ latest := by
      have hg' : g.ended.now.tick ≤ latest := hg
      omega
    -- at the limit or before, the activity may be given up, or goes on
    obtain ⟨hgive, hgo⟩ := hnext h ⟨hh.inv, hh.continues, hd⟩
    obtain ⟨hnone, hD⟩ := hgive hnow
    refine ⟨hD, fun _ => ?_⟩
    show Safe P k D Q
      (if r h.now.state || reached d h.now.tick then _ else _) (Turn.fresh h)
    split
    · rename_i hr
      exact ih hnow (hgo hr)
    · exact hnone
  | never =>
    -- what never ends is given up at the tick
    rintro g hg ⟨hallow, hnext⟩
    refine ⟨hallow, fun h hh => ?_⟩
    have hlim : h.now.tick ≤ max t g.ended.now.tick := hh.punctual t rfl
    have hnow : h.now.tick ≤ latest := by
      have hg' : g.ended.now.tick ≤ latest := hg
      omega
    obtain ⟨hnone, hD⟩ := hnext h ⟨hh.inv, hh.continues, nofun⟩ hnow
    exact ⟨hD, fun _ => hnone⟩
  | spawn x p ih => exact fun hg h => ih hg h

/-- A time limit from now: what happens under it happens before it is over. -/
theorem within {limit : Span} {p : Activity σ τ α} {g : Turn σ τ}
    (h : Safe P k (fun g' => g'.tick ≤ g.tick + limit.ticks → Q none g' ∧ D g')
      (fun a g' => g'.tick ≤ g.tick + limit.ticks → Q (some a) g') p g) :
    Safe P k D Q (p.within limit) g := by
  have heq : p.within limit =
      .act (fun _ s => s) fun now _ => p.withinTick (now + limit.ticks) := rfl
  rw [heq, Safe]
  exact withinTick (Nat.le_refl _) p (Nat.le_add_right _ _) h

/-! ## Soundness -/

/-- **After a poll, a safe activity is at rest**: the poll is allowed, and the activity is safe
    whenever it goes on. -/
theorem rests {post : α → History σ → Prop} (p : Activity σ τ α) :
    ∀ {g : Turn σ τ}, Safe P k D (P.Ends k post) p g →
      ∃ g' : Turn σ τ, g'.history = g.history ∧ (p.poll g.poll).1 = g'.poll ∧ P.allows k g' ∧
        P.Rests k post g'.ended (p.poll g.poll).2 := by
  induction p with
  | done a =>
    intro g h
    exact ⟨g, rfl, rfl, h.1, h.2⟩
  | act u p ih => exact fun h => ih _ _ h
  | wait r d p =>
    rintro g ⟨hg, hnext⟩
    refine ⟨g, rfl, rfl, hg, ?_⟩
    intro h hh hr
    exact mono (fun _ _ => trivial) (fun _ _ h => h) p ((hnext h hh).2 hr)
  | never => exact fun h => ⟨_, rfl, rfl, h.1, trivial⟩
  | spawn x p ih => exact fun h => ih h

end Safe

/-! ## Rows of parties -/

section

variable {β : Type} {xs ys : List β} {old new : β} {Q : β → Prop}

/-- What holds of a row holds of it when another one takes a place, if it holds of this one. -/
theorem forall_mem_replaced (h : ∀ x ∈ xs ++ old :: ys, Q x) (hnew : Q new) :
    ∀ x ∈ xs ++ new :: ys, Q x := by
  rw [List.forall_mem_append, List.forall_mem_cons] at *
  exact ⟨h.1, hnew, h.2.2⟩

/-- What holds of a row holds of those that stay when one leaves. -/
theorem forall_mem_without (h : ∀ x ∈ xs ++ old :: ys, Q x) : ∀ x ∈ xs ++ ys, Q x := by
  rw [List.forall_mem_append, List.forall_mem_cons] at h
  exact List.forall_mem_append.mpr ⟨h.1, h.2.2⟩

end

end SessionCluster
