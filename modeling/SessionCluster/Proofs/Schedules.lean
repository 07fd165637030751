/-
  Schedules — runs that are computed.

  A schedule says which call acts next, what its clock shows, and whether the store fails it.  A
  program is finite and its surroundings always have an answer, so every poll comes to an end
  (`settles_settle`) and every schedule that stays in range is a run (`Cluster.runs_follow`).  So
  no call is ever stuck, and what is said of all runs can be tried on any of them.
-/
import SessionCluster.Proofs.SharedStore

namespace SessionCluster

/-! ## Polls -/

section

variable {σ α : Type}

/-- Lets an operation go on until it is at rest: what it asks, the state then, and what is left. -/
def settle (answer : σ → (q : Request) → q.Answer × σ) :
    Operation α → σ → List (Exchange σ) × σ × Operation α
  | .done a, w => ([], w, .done a)
  | .ask q next, w =>
    if q.isAwait then ([], w, .ask q next)
    else
      let (x, w₁) := answer w q
      let (es, w₂, p) := settle answer (next x) w₁
      (⟨w, q, x, w₁⟩ :: es, w₂, p)

/-- **Every poll comes to an end**, wherever surroundings have an answer. -/
theorem settles_settle {S : Surroundings σ} {answer : σ → (q : Request) → q.Answer × σ}
    (h : ∀ w q, S w q (answer w q).1 (answer w q).2) (p : Operation α) :
    ∀ w, Settles S w p (settle answer p w).1 (settle answer p w).2.1 (settle answer p w).2.2 := by
  induction p with
  | done a => exact fun w => .rest rfl
  | ask q next ih =>
    intro w
    unfold settle
    by_cases hq : q.isAwait = true
    · rw [if_pos hq]
      exact .rest hq
    · rw [if_neg hq]
      exact .ask (Bool.eq_false_iff.mpr hq) (h w q) (ih _ _)

end

/-- Whether a call has answered. -/
def Progress.hasAnswered {σ : Type} (p : Progress σ) : Bool :=
  match p.rest with
  | .done _ => true
  | .ask _ _ => false

theorem Progress.hasAnswered_iff {σ : Type} {p : Progress σ} :
    p.hasAnswered = true ↔ ∃ a, p.rest = .done a := by
  unfold hasAnswered
  cases p.rest with
  | done a => exact ⟨fun _ => ⟨a, rfl⟩, fun _ => rfl⟩
  | ask q next => simp

/-! ## Schedules -/

namespace World

/-- Answers at a time; the store is one in memory that takes effect, or answers nothing. -/
def obey (now : Instant) (fails : Bool) (w : World) : (q : Request) → q.Answer × World
  | .now => (now, w)
  | .store c =>
    if fails then (none, w)
    else
      let (store, x) := MemoryStore.call { slots := w.slots } c
      (some x, { w with slots := store.slots })
  | .cached _ => (none, w)
  | .cache _ _ => ((), w)
  | .announce earlier own => (([], ⟨"", own⟩), w.announce (earlier ++ [own]))
  | .beginForget _ => (Nat.zero, w)
  | .forgotten _ => ((), w)
  | .forget _ => ((), w)
  | .warnings _ => ([], w)

/-- **What the world does when it obeys is one of its answers.** -/
theorem answers_obey (now : Instant) (fails : Bool) (w : World) (q : Request) :
    w.Answers q (w.obey now fails q).1 (w.obey now fails q).2 := by
  cases q with
  | store c =>
    cases fails with
    | true => exact .inr ⟨fun o => nofun, rfl⟩
    | false => exact answers_call { slots := w.slots } w.announced c
  | cached key => exact ⟨rfl, rfl⟩
  | announce earlier own => exact ⟨rfl, rfl⟩
  | now => rfl
  | cache r freshFor => rfl
  | beginForget key => rfl
  | forgotten ticket => rfl
  | forget key => rfl
  | warnings pending => rfl

/-- Whether all versions are low enough, by the entries of the store. -/
def inRange (w : World) : Bool :=
  w.slots.entries.all fun e => e.2.version.number < 18446744073709551614

/-- What is found to be in range is in range. -/
theorem inRange_sound {w : World} (h : w.inRange = true) : w.InRange := by
  intro key
  unfold Slots.versionOf
  cases hs : w.slots.get? key with
  | none => exact Nat.zero_lt_succ _
  | some slot =>
    -- what is found is among the entries that were looked at
    have hmem : (key, slot) ∈ w.slots.entries := by
      obtain ⟨l₁, l₂, heq, _⟩ := List.lookup_eq_some_iff.mp hs
      rw [heq]
      simp
    exact of_decide_eq_true (List.all_eq_true.mp h _ hmem)

end World

/-- What a schedule has a call do: begin, go on, or be dropped. -/
inductive Action where
  | start (i : Nat) (call : Call) (now : Instant)
  | resume (i : Nat) (now : Instant) (fails : Bool)
  | drop (i : Nat)

namespace Cluster

/-- The cluster after an action; one that cannot be taken is left out. -/
def act (c : Cluster World) : Action → Cluster World
  | .start i call now =>
    match c.calls i with
    | some _ => c
    | none =>
      let (es, w, p) := settle (World.obey now false) call.operation c.world
      ⟨w, Function.update c.calls i (some ⟨call, es, p⟩)⟩
  | .resume i now fails =>
    match c.calls i with
    | some ⟨call, made, .ask q next⟩ =>
      let (x, w₁) := c.world.obey now fails q
      let (es, w₂, p) := settle (World.obey now false) (next x) w₁
      ⟨w₂, Function.update c.calls i (some ⟨call, made ++ ⟨c.world, q, x, w₁⟩ :: es, p⟩)⟩
    | _ => c
  | .drop i =>
    match c.calls i with
    | some _ => ⟨c.world, Function.update c.calls i none⟩
    | none => c

/-- The cluster after a schedule. -/
def follow (c : Cluster World) (schedule : List Action) : Cluster World := schedule.foldl act c

/-- Whether a schedule acts only on versions in range. -/
def staysInRange (c : Cluster World) : List Action → Bool
  | [] => true
  | a :: rest => c.world.inRange && (c.act a).staysInRange rest

/-- Whether an action can be taken. -/
def admits (c : Cluster World) : Action → Bool
  | .start i _ _ => (c.calls i).isNone
  | .resume i _ _ => (c.calls i).any fun p => !p.hasAnswered
  | .drop i => (c.calls i).isSome

/-- Whether all actions of a schedule can be taken, on versions in range. -/
def admitsAll (c : Cluster World) : List Action → Bool
  | [] => true
  | a :: rest => c.admits a && c.world.inRange && (c.act a).admitsAll rest

/-- What is asked in an action. -/
def asked (c : Cluster World) : Action → List (Exchange World)
  | .start _ call now => (settle (World.obey now false) call.operation c.world).1
  | .resume i now fails =>
    match c.calls i with
    | some ⟨_, _, .ask q next⟩ =>
      let (x, w₁) := c.world.obey now fails q
      ⟨c.world, q, x, w₁⟩ :: (settle (World.obey now false) (next x) w₁).1
    | _ => []
  | .drop _ => []

/-- The call that acts. -/
def actor (c : Cluster World) : Action → Option Call
  | .start _ call _ => some call
  | .resume i _ _ | .drop i => (c.calls i).map Progress.call

/-- **An action that can be taken is a step** of the call that acts. -/
theorem step_actor {c : Cluster World} {a : Action} (h : c.admits a = true) :
    ∃ call, c.actor a = some call ∧ Step World.Answers c call (c.asked a) (c.act a) := by
  cases a with
  | start i call now =>
    -- a free place, where the call runs to its first wait
    have hi : c.calls i = none := Option.isNone_iff_eq_none.mp h
    have hs := settles_settle (World.answers_obey now false) call.operation c.world
    refine ⟨call, rfl, ?_⟩
    simp only [act, asked, hi]
    exact .start i hi hs
  | resume i now fails =>
    -- a call that waits: its request is answered, by a fault if the schedule says so
    obtain ⟨⟨call, made, rest⟩, hi, hopen⟩ := (Option.any_eq_true _ _).mp h
    cases rest with
    | done a => cases hopen
    | ask q next =>
      have ha := World.answers_obey now fails c.world q
      have hs := settles_settle (World.answers_obey now false)
        (next (c.world.obey now fails q).1) (c.world.obey now fails q).2
      refine ⟨call, by simp only [actor, hi, Option.map_some], ?_⟩
      simp only [act, asked, hi]
      exact .resume i hi ha hs
  | drop i =>
    -- any call may be given up
    obtain ⟨p, hi⟩ := Option.isSome_iff_exists.mp h
    refine ⟨p.call, by simp only [actor, hi, Option.map_some], ?_⟩
    simp only [act, asked, hi]
    exact .drop i hi

theorem step_act {c : Cluster World} {a : Action} (h : c.admits a = true) :
    ∃ call, Step World.Answers c call (c.asked a) (c.act a) := by
  obtain ⟨call, _, hs⟩ := step_actor h
  exact ⟨call, hs⟩

/-- An action that cannot be taken is left out. -/
theorem act_of_not_admits {c : Cluster World} {a : Action} (h : c.admits a = false) :
    c.act a = c := by
  cases a with
  | start i call now =>
    cases hi : c.calls i with
    | none => simp [admits, hi] at h
    | some p => simp only [act, hi]
  | resume i now fails =>
    cases hi : c.calls i with
    | none => simp only [act, hi]
    | some p =>
      obtain ⟨call, made, rest⟩ := p
      cases rest with
      | done a => simp only [act, hi]
      | ask q next => simp [admits, hi, Progress.hasAnswered] at h
  | drop i =>
    cases hi : c.calls i with
    | none => simp only [act, hi]
    | some p => simp [admits, hi] at h

/-- An action is a step, or nothing at all. -/
theorem runs_act {c : Cluster World} (hc : c.world.InRange) (a : Action) : Runs c (c.act a) := by
  cases ha : c.admits a with
  | true =>
    obtain ⟨call, hs⟩ := step_act ha
    exact .single ⟨hc, call, _, hs⟩
  | false =>
    rw [act_of_not_admits ha]
    exact .refl

/-- **Schedules are runs**, as long as versions are in range. -/
theorem runs_follow (schedule : List Action) :
    ∀ c : Cluster World, c.staysInRange schedule = true → Runs c (c.follow schedule) := by
  induction schedule with
  | nil => exact fun c _ => .refl
  | cons a rest ih =>
    intro c h
    obtain ⟨hc, hrest⟩ := Bool.and_eq_true_iff.mp h
    exact (runs_act (World.inRange_sound hc) a).trans (ih _ hrest)

end Cluster

/-! ## A schedule to try statements on

    One session is created, updated while a removal waits for its turn, replaced by a creation
    after it has expired, and at last removed.  The removal that waited comes too late.
-/

namespace Sample

def key : SessionKey := ⟨"s", by decide⟩
def settings : CoordinatorSettings := { node := ⟨"n"⟩ }

/-- A second of the clock. -/
def second (n : Nat) : Instant := (Instant.ofParts? n 0).getD .epoch

def version (n : Nat) : Version := (Version.ofNat? n).getD .initial

/-- A record is created, and its removal begun; before that goes on, the record is updated and
    created anew, and at last the new one is removed. -/
def schedule : List Action :=
  [.start 0 (.create settings key .null (.ofMillis 5000)) (second 0), .resume 0 (second 0) false,
   .start 1 (.delete settings key (version 1)) (second 1), .resume 1 (second 1) false,
   .start 2 (.update settings key (version 1) (.bool true)) (second 2),
   .resume 2 (second 2) false, .resume 2 (second 2) false,
   .start 3 (.create settings key .null (.ofMillis 5000)) (second 60),
   .resume 3 (second 60) false, .resume 3 (second 60) false,
   .resume 1 (second 1) false,
   .start 4 (.delete settings key (version 4)) (second 61), .resume 4 (second 61) false,
   .resume 4 (second 61) false, .resume 4 (second 61) false, .resume 4 (second 61) false]

/-- The cluster after the schedule. -/
def final : Cluster World := (Cluster.idle {}).follow schedule

theorem runs_final : Runs (.idle {}) final :=
  Cluster.runs_follow schedule _ (by decide +kernel)

/-- The removal that came too late has answered. -/
theorem late_removal_answered : ∃ p a, final.calls 1 = some p ∧ p.rest = .done a := by
  have hdone : (final.calls 1).any Progress.hasAnswered = true := by decide +kernel
  obtain ⟨p, hp, ha⟩ := (Option.any_eq_true _ _).mp hdone
  obtain ⟨a, ha⟩ := Progress.hasAnswered_iff.mp ha
  exact ⟨p, a, hp, ha⟩

end Sample

end SessionCluster
