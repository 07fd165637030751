/-
  Vigils — what a sweeper remembers of the expiries that were announced to it.

  Between sweeps a sweeper waits, and keeps one deadline for all the expiries that it was told of.
  A change of the store may lower it; the end of the interval and the deadline itself clear it,
  and are followed by a sweep; nothing else touches it.  So at any time it is the earliest of the
  expiries that were announced since it was last cleared (`Awaited`): one of them, and none of
  them is earlier.

  A `Vigil` is a sweeper's loop, turn after turn, whatever others do meanwhile.  It has a log of
  what has woken the sweeper, and of what the clock showed then.

  * `Node.turn_pending` — a turn changes what is remembered as its wake-up says, and so
    (`Vigil.pending_eq`) a vigil remembers what its log says;
  * `Node.turn_sweeps` — a wake-up that sweeps is followed by a sweep of what has expired by then;
  * `Vigil.deadline_earliest` — the deadline is the earliest expiry that is awaited;
  * `announced_deadlines_kept` — **an announced expiry is not forgotten before a sweep at its
    time**, unless the deadline was cleared earlier than that;
  * `announced_deadline_forgotten` — it may be cleared too early: by an interval that is over
    before the expiry has come.
-/
import Mathlib.Data.List.Induction
import SessionCluster.Node.Tasks
import SessionCluster.Proofs.Instants
import SessionCluster.Proofs.Polls
import SessionCluster.Proofs.Schedules

namespace SessionCluster

open Activity

/-! ## What a sweeper remembers -/

namespace Sweeper

deriving instance DecidableEq for Wake

/-- What has woken a sweeper, and what the clock showed then. -/
structure Handled where
  wake : Wake
  time : Instant
deriving DecidableEq

/-- Whether a sweep follows. -/
def Wake.sweeps : Wake → Bool
  | .interval | .deadline | .lagged _ => true
  | .change _ | .closed | .signal _ => false

/-- Whether the deadline is cleared. -/
def Wake.clears : Wake → Bool
  | .interval | .deadline => true
  | .change _ | .lagged _ | .closed | .signal _ => false

theorem Wake.sweeps_of_clears {w : Wake} (h : w.clears = true) : w.sweeps = true := by
  cases w <;> first | rfl | cases h

/-- A wake-up sweeps, if it is of a kind that does. -/
theorem wakeUp_sweeps (p : Pending) (w : Wake) : (wakeUp p w).2 = .sweep ↔ w.sweeps = true := by
  cases w with
  | interval => exact ⟨fun _ => rfl, fun _ => rfl⟩
  | deadline => exact ⟨fun _ => rfl, fun _ => rfl⟩
  | lagged missed => exact ⟨fun _ => rfl, fun _ => rfl⟩
  | closed => exact ⟨nofun, nofun⟩
  | change n => cases ha : n.expiresAt <;> simp [wakeUp, ha, Wake.sweeps]
  | signal stop => cases stop <;> simp [wakeUp, Wake.sweeps]

/-- What a sweeper remembers after some wake-ups, by what it remembered before. -/
def heed (p : Pending) (log : List Handled) : Pending :=
  log.foldl (fun p x => (wakeUp p x.wake).1) p

/-- What a sweeper remembers after what has woken it so far. -/
def attend (log : List Handled) : Pending := heed {} log

theorem attend_append (log more : List Handled) : attend (log ++ more) = heed (attend log) more :=
  List.foldl_append ..

theorem attend_snoc (log : List Handled) (x : Handled) :
    attend (log ++ [x]) = (wakeUp (attend log) x.wake).1 :=
  attend_append log [x]

/-- An expiry that was announced after the deadline was last cleared. -/
inductive Awaited : List Handled → Instant → Prop where
  | announced {log n time a} (ha : n.expiresAt = some a) : Awaited (log ++ [⟨.change n, time⟩]) a
  | still {log x a} (h : Awaited log a) (hx : x.wake.clears = false) : Awaited (log ++ [x]) a

/-- An expiry is awaited as long as the deadline is not cleared. -/
theorem Awaited.later {log : List Handled} {a : Instant} (h : Awaited log a)
    (later : List Handled) (hlater : ∀ x ∈ later, x.wake.clears = false) :
    Awaited (log ++ later) a := by
  induction later generalizing log with
  | nil => rwa [List.append_nil]
  | cons x later ih =>
    rw [List.append_cons]
    obtain ⟨hx, hrest⟩ := List.forall_mem_cons.mp hlater
    exact ih (.still h hx) hrest

/-- The lower one of both is the new one, or was there before. -/
theorem lower_cases (d : Option Instant) (t : Instant) : lower d t = t ∨ d = some (lower d t) := by
  cases d with
  | none => exact .inl rfl
  | some current =>
    unfold lower
    simp only
    split
    · exact .inl rfl
    · exact .inr rfl

/-- Lowering a deadline makes it no later than the expiry announced. -/
theorem lower_le (d : Option Instant) (t : Instant) : lower d t ≤ t := by
  cases d with
  | none => exact le_refl t
  | some current =>
    show (if t.before current then t else current) ≤ t
    split
    · exact le_refl t
    · rename_i h
      exact Bool.eq_false_iff.mpr h

theorem lower_le_of_some (d t : Instant) : lower (some d) t ≤ d := by
  show (if t.before d then t else d) ≤ d
  split
  · rename_i h
    exact Instant.le_of_before h
  · exact le_refl d

/-- The deadline is one of the expiries that are awaited. -/
theorem awaited_of_deadline {log : List Handled} :
    ∀ {d}, (attend log).deadline = some d → Awaited log d := by
  induction log using List.reverseRecOn with
  | nil => rintro d ⟨⟩
  | append_singleton log x ih =>
    intro d hd
    rw [attend_snoc] at hd
    obtain ⟨w, time⟩ := x
    cases w with
    -- a sweep has been tried, so that there is no deadline
    | interval => cases hd
    | deadline => cases hd
    -- nothing new is known, and the deadline is the old one
    | lagged missed => exact .still (ih hd) rfl
    | closed => exact .still (ih hd) rfl
    | signal stop => exact .still (ih hd) rfl
    | change n =>
      cases ha : n.expiresAt with
      | none =>
        simp only [wakeUp, ha] at hd
        exact .still (ih hd) rfl
      -- the deadline is this announcement's, or the one before, if that is earlier
      | some a =>
        simp only [wakeUp, ha, Option.some.injEq] at hd
        rcases lower_cases (attend log).deadline a with hnew | hbefore
        · exact .announced (ha.trans (congrArg some (hnew.symm.trans hd)))
        · exact .still (ih (hbefore.trans (congrArg some hd))) rfl

/-- The deadline is no later than any expiry that is awaited. -/
theorem Awaited.deadline_le {log : List Handled} {a : Instant} (h : Awaited log a) :
    ∃ d, (attend log).deadline = some d ∧ d ≤ a := by
  induction h with
  -- the announcement lowers the deadline to itself at most
  | @announced log n time a ha =>
    rw [attend_snoc]
    simp only [wakeUp, ha]
    exact ⟨_, rfl, lower_le _ a⟩
  | @still log x a _ hx ih =>
    obtain ⟨d, hd, hle⟩ := ih
    rw [attend_snoc]
    obtain ⟨w, time⟩ := x
    cases w with
    -- what is awaited is awaited no longer after a sweep
    | interval => cases hx
    | deadline => cases hx
    | lagged missed => exact ⟨d, hd, hle⟩
    | closed => exact ⟨d, hd, hle⟩
    | signal stop => exact ⟨d, hd, hle⟩
    | change n =>
      unfold wakeUp
      simp only
      -- an announcement lowers the deadline or leaves it, and a notice of no expiry leaves it
      split
      · rw [hd]
        exact ⟨_, rfl, le_trans (lower_le_of_some d _) hle⟩
      · exact ⟨d, hd, hle⟩

/-- What is kept of the expiries that were announced: each of them, by a deadline that is no later,
    as long as there was no sweep since at a clock time of that expiry or later, and as long as the
    deadline was not cleared at a clock time before it. -/
def Keeps (log : List Handled) (p : Pending) : Prop :=
  ∀ earlier n time later a, log = earlier ++ ⟨.change n, time⟩ :: later → n.expiresAt = some a →
    (∀ x ∈ later, x.wake.sweeps = true → x.time < a) →
    (∀ x ∈ later, x.wake.clears = true → a ≤ x.time) →
      ∃ d, p.deadline = some d ∧ d ≤ a

/-- **An expiry that was announced has its deadline**, until a sweep comes at that time or later. -/
theorem attend_keeps (log : List Handled) : Keeps log (attend log) := by
  rintro earlier n time later a rfl ha hswept hcleared
  refine Awaited.deadline_le ?_
  rw [List.append_cons]
  refine (Awaited.announced ha).later later fun x hx => ?_
  cases hclears : x.wake.clears with
  | false => rfl
  | true =>
    -- what clears the deadline is followed by a sweep, which is before the expiry and not before it
    have hbefore : x.time.before a = true := hswept x hx (Wake.sweeps_of_clears hclears)
    have hafter : x.time.before a = false := hcleared x hx hclears
    rw [hbefore] at hafter
    cases hafter

end Sweeper

/-! ## A turn of a sweeper -/

section

variable {σ τ α β : Type} {others : σ → σ → Prop}

/-- The polls of an activity begin with the one under way. -/
theorem Activity.Course.head {p p' : Activity σ τ α} {e first : Poll σ τ} {rest : List (Poll σ τ)}
    (h : Activity.Course others p e (first :: rest) p') :
    first.tick = e.tick ∧ first.before = e.before := by
  generalize hes : first :: rest = es at h
  induction h with
  | rest =>
    obtain ⟨rfl, -⟩ := List.cons.inj hes
    exact ⟨rfl, rfl⟩
  | act _ ih => exact ih hes
  | spawn _ ih => exact ih hes
  | resume =>
    obtain ⟨rfl, -⟩ := List.cons.inj hes
    exact ⟨rfl, rfl⟩

/-- What follows an activity whose answer does not matter is what it ends with. -/
theorem Activity.Course.of_bind {p : Activity σ τ α} {b b' : β} :
    ∀ {e : Poll σ τ} {es : List (Poll σ τ)},
      Activity.Course others (p.bind fun _ => .done b) e es (.done b') → b' = b := by
  induction p with
  | done a =>
    intro e es h
    cases h
    rfl
  | act u k ih =>
    intro e es h
    cases h with
    | act h => exact ih _ _ h
  | wait r d k ih =>
    intro e es h
    cases h with
    | resume _ _ h => exact ih h
  | never =>
    intro e es h
    cases h
  | spawn x k ih =>
    intro e es h
    cases h with
    | spawn h => exact ih h

end

namespace Node

/-- What a sweeper does with what has woken it. -/
def afterWake (found : Option Sweeper.Wake × RunningSweeper) : Act (Option Work) :=
  match found with
  | (wake, s) =>
    match wake with
    | none => return some (.sweeper s)
    | some w =>
      let (pending, next) := Sweeper.wakeUp s.pending w
      match next with
      | .wait => return some (.sweeper (listeningAs pending s))
      | .sweep => do
        discard sweep
        return some (.sweeper (listeningAs pending s))
      | .stop => do
        step fun n => ({ n with sweepersStopped := n.sweepersStopped + 1 }, ())
        return none

/-- What a sweeper does when its wait is over. -/
def woken (s : RunningSweeper) (deadline : Option Nat) : Act (Option Work) := do
  afterWake (← stepAt fun tick n => (n, wakeOf n tick deadline s))

/-- Whether a sweeper is woken at once. -/
def hasCause (s : RunningSweeper) (n : Node) : Bool :=
  n.signal.count ≠ s.seen || hasNews n s.feed

/-- The tick until which a sweeper waits if nothing else wakes it. -/
def waitsUntil (s : RunningSweeper) (deadline : Option Nat) : Nat :=
  match deadline with
  | some t => min t (tickOf s.due)
  | none => tickOf s.due

/-- A turn is a wait, and then what the sweeper does when it is over. -/
theorem sweeperTurn_eq (s : RunningSweeper) :
    sweeperTurn s = (stepAt fun tick n => (n, deadlineTick n tick s.pending)).bind fun deadline =>
      .wait (hasCause s) (some (waitsUntil s deadline)) (woken s deadline) := rfl

/-- Whether the wait of a sweeper that began at a tick in a state is over at another one, in
    another. -/
def wakes (s : RunningSweeper) (t : Nat) (n : Node) (t' : Nat) (n' : Node) : Bool :=
  hasCause s n' || reached (some (waitsUntil s (deadlineTick n t s.pending))) t'

/-- What has woken a sweeper, by the polls in which it began to wait and in which it was woken. -/
def noticed (s : RunningSweeper) (waits wakes : Poll Node Work) : List Sweeper.Handled :=
  let deadline := deadlineTick waits.before waits.tick s.pending
  (wakeOf wakes.before wakes.tick deadline s).1.toList.map fun w =>
    ⟨w, wakes.before.clock.at_ wakes.tick⟩

-- stated apart, as the interval that is due next is not to be computed
theorem pending_of_due (s : RunningSweeper) (due : Nat) (w : Sweeper.Wake) :
    (some w, ({ s with due } : RunningSweeper)).2.pending = s.pending := rfl

/-- Waking up alone changes nothing that is remembered. -/
theorem wakeOf_pending (n : Node) (tick : Nat) (deadline : Option Nat) (s : RunningSweeper) :
    (wakeOf n tick deadline s).2.pending = s.pending := by
  unfold wakeOf
  split
  · rfl
  split
  · exact pending_of_due s _ _
  split
  · rfl
  · rfl

section

variable {others : Node → Node → Prop} {s s' : RunningSweeper} {t t' : Nat} {n n' : Node}

/-- A turn of which both parts are known. -/
theorem course_turn {es : List (Poll Node Work)} {p : Act (Option Work)} (ho : others n n')
    (hwakes : wakes s t n t' n' = true)
    (h : Activity.Course others (woken s (deadlineTick n t s.pending)) (.fresh t' n') es p) :
    Activity.Course others (sweeperTurn s) (.fresh t n) (.fresh t n :: es) p := by
  rw [sweeperTurn_eq]
  exact .act (.resume ho hwakes h)

/-- What follows the wait of a turn is what the sweeper does with what has woken it. -/
theorem course_turn_inv {waits woke : Poll Node Work} {rest : List (Poll Node Work)}
    {a : Option Work}
    (h : Activity.Course others (sweeperTurn s) (.fresh t n) (waits :: woke :: rest) (.done a)) :
    waits = .fresh t n ∧
      Activity.Course others
        (afterWake (wakeOf woke.before woke.tick (deadlineTick n t s.pending) s))
        (.fresh woke.tick woke.before) (woke :: rest) (.done a) := by
  rw [sweeperTurn_eq] at h
  cases h with
  | act h =>
    cases h with
    | resume ho hr h =>
      obtain ⟨htick, hbefore⟩ := h.head
      rw [htick, hbefore]
      cases h with
      | act h => exact ⟨rfl, h⟩

/-- What is remembered after a wake-up is what it says of what was remembered before. -/
theorem afterWake_pending {found : Option Sweeper.Wake × RunningSweeper} {e : Poll Node Work}
    {es : List (Poll Node Work)} (now : Instant)
    (h : Activity.Course others (afterWake found) e es (.done (some (.sweeper s')))) :
    s'.pending = Sweeper.heed found.2.pending (found.1.toList.map fun w => ⟨w, now⟩) := by
  obtain ⟨wake, s⟩ := found
  cases wake with
  | none =>
    cases h with
    | rest => rfl
  | some w =>
    show s'.pending = (Sweeper.wakeUp s.pending w).1
    rcases hw : Sweeper.wakeUp s.pending w with ⟨pending, next⟩
    simp only [afterWake, hw] at h
    cases next with
    | wait =>
      cases h with
      | rest => rfl
    | sweep =>
      cases h.of_bind
      rfl
    | stop =>
      cases h with
      | act h => cases h

/-- **A turn changes what is remembered** as the wake-up says. -/
theorem turn_pending {waits woke : Poll Node Work} {rest : List (Poll Node Work)}
    (h : Activity.Course others (sweeperTurn s) (.fresh t n) (waits :: woke :: rest)
      (.done (some (.sweeper s')))) :
    s'.pending = Sweeper.heed s.pending (noticed s waits woke) := by
  obtain ⟨rfl, hdone⟩ := course_turn_inv h
  have hpending := afterWake_pending (woke.before.clock.at_ woke.tick) hdone
  rw [wakeOf_pending] at hpending
  exact hpending

/-- A sweep that has read the clock. -/
def sweepOf (now : Instant) (limits : SweeperSettings) : Act (Except SessionError SweepReport) :=
  ofProgram (answer limits.storeTimeout limits.cacheTimeout)
    (Sweeper.batches limits now (max 1 limits.maxBatches) {})

/-- A sweep reads the clock in the poll in which it begins. -/
theorem course_sweep_inv {β : Type} {k : Except SessionError SweepReport → Act β} {b : β}
    {e : Poll Node Work} {es : List (Poll Node Work)}
    (h : Activity.Course others (sweep.bind k) e es (.done b)) :
    Activity.Course others ((sweepOf (e.after.clock.at_ e.tick) e.after.sweeping).bind k) e es
      (.done b) := by
  cases h with
  | act h =>
    cases h with
    | act h => exact h

/-- After a wake-up that sweeps, the turn goes on to the sweep. -/
theorem afterWake_sweeps {found : Option Sweeper.Wake × RunningSweeper} {w : Sweeper.Wake}
    (hw : found.1 = some w) (hsweeps : w.sweeps = true) :
    ∃ s', afterWake found = sweep.bind fun _ => .done (some (.sweeper s')) := by
  obtain ⟨_, s⟩ := found
  obtain rfl := hw
  have hnext := (Sweeper.wakeUp_sweeps s.pending w).mpr hsweeps
  rcases hup : Sweeper.wakeUp s.pending w with ⟨pending, next⟩
  rw [hup] at hnext
  obtain rfl := hnext
  refine ⟨listeningAs pending s, ?_⟩
  simp only [afterWake, hup]
  exact Activity.bind_assoc sweep _ _

/-- **After a wake-up that sweeps, a turn is a sweep** of what has expired by the time of the
    wake-up. -/
theorem turn_sweeps {waits woke : Poll Node Work} {rest : List (Poll Node Work)}
    (h : Activity.Course others (sweeperTurn s) (.fresh t n) (waits :: woke :: rest)
      (.done (some (.sweeper s'))))
    {x : Sweeper.Handled} (hx : x ∈ noticed s waits woke) (hsweeps : x.wake.sweeps = true) :
    Activity.Course others
      ((sweepOf x.time woke.before.sweeping).bind fun _ => .done (some (Work.sweeper s')))
      (.fresh woke.tick woke.before) (woke :: rest) (.done (some (.sweeper s'))) := by
  obtain ⟨rfl, hdone⟩ := course_turn_inv h
  obtain ⟨w, hw, rfl⟩ := List.mem_map.mp hx
  have hwake : (wakeOf woke.before woke.tick (deadlineTick n t s.pending) s).1 = some w :=
    Option.mem_toList.mp hw
  obtain ⟨s'', hsweep⟩ := afterWake_sweeps hwake hsweeps
  rw [hsweep] at hdone
  cases hdone.of_bind
  exact course_sweep_inv hdone

/-- What a sweeper begins with is nothing. -/
theorem course_begin_inv {es : List (Poll Node Work)}
    (h : Activity.Course others sweeperBegin (.fresh t n) es (.done (some (.sweeper s)))) :
    s.pending = {} := by
  cases h with
  | act h =>
    have hbegun := Activity.Course.of_bind (p := .done ()) h
    cases hzero : n.sweeping.interval.isZero with
    | true => simp [Poll.fresh, hzero] at hbegun
    | false =>
      obtain rfl : s = _ := by simpa [Poll.fresh, hzero] using hbegun
      rfl

end

end Node

/-! ## The loop -/

/-- A sweeper's loop, turn after turn, and whatever others do in between and meanwhile: the log of
    what has woken it, what it is now, and its last poll. -/
inductive Vigil (others : Node → Node → Prop) :
    List Sweeper.Handled → RunningSweeper → Poll Node Work → Prop where
  | begins {t n es last s}
      (h : Activity.Course others Node.sweeperBegin (.fresh t n) es (.done (some (.sweeper s))))
      (hlast : es.getLast? = some last) : Vigil others [] s last
  | turn {log s last t n waits woke rest s' last'} (h : Vigil others log s last)
      (ho : others last.after n)
      (hc : Activity.Course others (Node.sweeperTurn s) (.fresh t n) (waits :: woke :: rest)
        (.done (some (.sweeper s'))))
      (hlast : (waits :: woke :: rest).getLast? = some last') :
      Vigil others (log ++ Node.noticed s waits woke) s' last'

/-- **A vigil remembers what its log says.** -/
theorem Vigil.pending_eq {others : Node → Node → Prop} {log : List Sweeper.Handled}
    {s : RunningSweeper} {last : Poll Node Work} (h : Vigil others log s last) :
    s.pending = Sweeper.attend log := by
  induction h with
  | begins h => exact Node.course_begin_inv h
  | turn _ _ hc _ ih =>
    rw [Sweeper.attend_append, ← ih]
    exact Node.turn_pending hc

/-- **The deadline is the earliest expiry that is awaited**: one of them, and none is earlier. -/
theorem Vigil.deadline_earliest {others : Node → Node → Prop} {log : List Sweeper.Handled}
    {s : RunningSweeper} {last : Poll Node Work} (h : Vigil others log s last) :
    (∀ d, s.pending.deadline = some d → Sweeper.Awaited log d) ∧
      ∀ a, Sweeper.Awaited log a → ∃ d, s.pending.deadline = some d ∧ d ≤ a := by
  rw [h.pending_eq]
  exact ⟨fun _ hd => Sweeper.awaited_of_deadline hd, fun _ ha => ha.deadline_le⟩

/-- **An announced expiry is not forgotten** before a sweep at a clock time of that expiry or later,
    unless the deadline was cleared at a clock time before it: of any wake-ups in any order, and in
    particular of those of a vigil, which remembers just what its log says. -/
theorem announced_deadlines_kept (log : List Sweeper.Handled) :
    Sweeper.Keeps log (Sweeper.attend log) ∧
    ∀ (others : Node → Node → Prop) (s : RunningSweeper) (last : Poll Node Work),
      Vigil others log s last →
        s.pending = Sweeper.attend log ∧ Sweeper.Keeps log s.pending := by
  refine ⟨Sweeper.attend_keeps log, fun others s last h => ⟨h.pending_eq, ?_⟩⟩
  rw [h.pending_eq]
  exact Sweeper.attend_keeps log

namespace Node

/-- A turn in which the sweeper, once it is woken, waits for nothing: the last poll of it, and the
    sweeper after it. -/
def turnOf (s : RunningSweeper) (t : Nat) (n : Node) (t' : Nat) (n' : Node) :
    Option (Poll Node Work × RunningSweeper) :=
  match (woken s (deadlineTick n t s.pending)).poll (.fresh t' n') with
  | (e, .done (some (.sweeper s'))) => some (e, s')
  | _ => none

end Node

/-- A vigil goes on with a turn that waits for nothing but the wake-up. -/
theorem Vigil.on {others : Node → Node → Prop} {log : List Sweeper.Handled} {s s' : RunningSweeper}
    {last e : Poll Node Work} {t t' : Nat} {n n' : Node} (h : Vigil others log s last)
    (ho : others last.after n) (ho' : others n n') (hwakes : Node.wakes s t n t' n' = true)
    (hturn : Node.turnOf s t n t' n' = some (e, s')) :
    Vigil others (log ++ Node.noticed s (.fresh t n) (.fresh t' n')) s' e := by
  unfold Node.turnOf at hturn
  split at hturn
  case h_2 => cases hturn
  rename_i e₁ s₁ hpoll
  obtain ⟨rfl, rfl⟩ := Prod.mk.inj (Option.some.inj hturn)
  have hc := course_poll others (Node.woken s (Node.deadlineTick n t s.pending)) (.fresh t' n')
  rw [hpoll] at hc
  obtain ⟨htick, hbefore⟩ := hc.head
  have hnoticed : Node.noticed s (.fresh t n) e₁ = Node.noticed s (.fresh t n) (.fresh t' n') := by
    unfold Node.noticed
    rw [htick, hbefore]
  rw [← hnoticed]
  exact h.turn ho (Node.course_turn ho' hwakes hc) rfl

namespace Sample

/-- A node without sessions. -/
def watched : Node := { clock := .running (second 0), lanes := .make {}, settings }

/-- A session of six seconds. -/
def sixSeconds : Record := ⟨key, .null, version 1, settings.node, second 0, second 0, second 6⟩

/-- Others create that session. -/
def creates (n n' : Node) : Prop :=
  n' = n ∨ n' = (n.onMemoryStore fun m => m.call (.insert sixSeconds)).1

theorem creates_self (n : Node) : creates n n := .inl rfl

/-- The sweeper as it begins. -/
def begun : RunningSweeper := ⟨{}, 0, 0, .position 0⟩

/-- The first turn: the interval is over at once. -/
def firstTurn : Poll Node Work × RunningSweeper :=
  (Node.turnOf begun 0 watched 0 watched).get (by decide +kernel)

/-- The node with the session, which is created a millisecond later. -/
def visited : Node := (firstTurn.1.after.onMemoryStore fun m => m.call (.insert sixSeconds)).1

/-- The second turn: the session is announced. -/
def secondTurn : Poll Node Work × RunningSweeper :=
  (Node.turnOf firstTurn.2 0 firstTurn.1.after 1 visited).get (by decide +kernel)

/-- The third turn: the next interval is over, after five seconds. -/
def thirdTurn : Poll Node Work × RunningSweeper :=
  (Node.turnOf secondTurn.2 1 secondTurn.1.after 5000 secondTurn.1.after).get (by decide +kernel)

/-- The session of six seconds is announced, after the first sweep. -/
def announcedLog : List Sweeper.Handled :=
  [⟨.interval, second 0⟩, ⟨.change (.ofRecord sixSeconds), (second 0).plusMillis 1⟩]

/-- The sample's sweeper keeps its vigil over one creation that was announced. -/
theorem vigil_announced : Vigil creates announcedLog secondTurn.2 secondTurn.1 := by
  have hbegin : Vigil creates [] begun (.fresh 0 watched) :=
    .begins (course_poll creates Node.sweeperBegin (.fresh 0 watched)) rfl
  have hfirstTurn : Node.turnOf begun 0 watched 0 watched = some (firstTurn.1, firstTurn.2) :=
    (Option.some_get _).symm
  have hsecondTurn : Node.turnOf firstTurn.2 0 firstTurn.1.after 1 visited =
      some (secondTurn.1, secondTurn.2) := (Option.some_get _).symm
  have hcreated : creates firstTurn.1.after visited := .inr rfl
  have hfirst := hbegin.on (creates_self watched) (creates_self _) (by decide +kernel) hfirstTurn
  have hsecond := hfirst.on (creates_self _) hcreated (by decide +kernel) hsecondTurn
  have hlog : [] ++ Node.noticed begun (.fresh 0 watched) (.fresh 0 watched) ++
      Node.noticed firstTurn.2 (.fresh 0 firstTurn.1.after) (.fresh 1 visited) = announcedLog := by
    decide +kernel
  rw [hlog] at hsecond
  exact hsecond

end Sample

open Sample in
/-- After two turns the sweeper knows of the session of six seconds. -/
theorem sample_announced_deadlines_kept :
    Vigil creates announcedLog secondTurn.2 secondTurn.1 ∧
      ∃ d, secondTurn.2.pending.deadline = some d ∧ d ≤ second 6 := by
  obtain ⟨-, hkeeps⟩ := (announced_deadlines_kept announcedLog).2 _ _ _ vigil_announced
  refine ⟨vigil_announced,
    hkeeps [⟨.interval, second 0⟩] (.ofRecord sixSeconds) _ [] _ rfl rfl ?_ ?_⟩
  · exact fun x hx => absurd hx List.not_mem_nil
  · exact fun x hx => absurd hx List.not_mem_nil

open Sample in
/-- **An announced expiry may be forgotten**: a third turn, at the end of the interval of five
    seconds, sweeps before the session of six seconds has expired, and leaves no deadline. -/
theorem announced_deadline_forgotten :
    ∃ log s last, Vigil creates log s last ∧
      ∃ earlier n time later, log = earlier ++ ⟨.change n, time⟩ :: later ∧
        n.expiresAt = some (second 6) ∧ (∀ x ∈ log, x.time < second 6) ∧
        s.pending.deadline = none := by
  have hthirdTurn : Node.turnOf secondTurn.2 1 secondTurn.1.after 5000 secondTurn.1.after =
      some (thirdTurn.1, thirdTurn.2) := (Option.some_get _).symm
  have hthird := vigil_announced.on (creates_self _) (creates_self _) (by decide +kernel) hthirdTurn
  have hlog : Node.noticed secondTurn.2 (.fresh 1 secondTurn.1.after)
      (.fresh 5000 secondTurn.1.after) = [⟨.interval, second 5⟩] := by
    decide +kernel
  rw [hlog] at hthird
  refine ⟨_, _, _, hthird, [⟨.interval, second 0⟩], .ofRecord sixSeconds, _,
    [⟨.interval, second 5⟩], rfl, rfl, ?_, ?_⟩
  · show ∀ x ∈ announcedLog ++ [⟨.interval, second 5⟩], x.time.before (second 6) = true
    decide +kernel
  · rw [hthird.pending_eq]
    rfl

end SessionCluster
