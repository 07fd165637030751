/-
  Attempts — how a publication with retries spends its time.

  A broker may answer each attempt as it likes, after any delay, or not at all; a rehearsed bus does
  what its script says, so its scripts are all that a broker can do.  The attempts of a publication
  form a COURSE (`Course`): an attempt is the last one, by success, by a failure for good or by giving up
  (`Conclusion`), or it is followed by a wait and the rest of the course.

  * `tries_course` — the retries take a course, by induction on the attempts that are left;
  * `Course.spaced`, `Course.concludes` — what lies between two attempts, and what the last one means;
  * `Course.account` — the time that a course takes is what its attempts take, and the waits;
  * `publication_keeps_schedule` — a publication keeps its schedule and its budget.
-/
import Mathlib.Algebra.Order.BigOperators.Group.List
import Mathlib.Algebra.GroupWithZero.Nat
import Mathlib.Algebra.Order.Group.Nat
import SessionCluster.Proofs.ChangeBudget
import SessionCluster.Proofs.Deliveries
import SessionCluster.Proofs.LoneRuns

namespace SessionCluster

open Activity Node

/-! ## Waits -/

namespace Backoff

variable (b : Backoff)

/-- A wait is the base delay, doubled for every failure after the first but at most thirty-one times,
    and at most the greatest delay. -/
theorem delayAfter_nanos (failed : Nat) :
    (b.delayAfter failed).nanos =
      min b.maxDelay.nanos (b.baseDelay.nanos * 2 ^ min (failed - 1) 31) := by
  have hcap : b.maxDelay.nanos ≤ 18446744073709551615999999999 := b.maxDelay.nanos_le
  show (b.doubled (doublings failed)).nanos = min _ (b.baseDelay.nanos * Nat.pow 2 (doublings failed))
  unfold doubled
  cases hd : b.baseDelay.times? (Nat.pow 2 (doublings failed)) with
  | some d =>
    have hnanos : d.nanos = b.baseDelay.nanos * Nat.pow 2 (doublings failed) :=
      Span.ofNanos?_eq_some.mp hd
    rw [← hnanos]
    show (d.shorter b.maxDelay).nanos = _
    unfold Span.shorter
    split <;> omega
  | none =>
    -- the product is beyond every span, so beyond the greatest delay
    have hlarge : ¬b.baseDelay.nanos * Nat.pow 2 (doublings failed) ≤
        18446744073709551615999999999 := by
      intro hle
      have hsome : b.baseDelay.times? (Nat.pow 2 (doublings failed)) = some ⟨_, hle⟩ := dif_pos hle
      rw [hsome] at hd
      cases hd
    show b.maxDelay.nanos = _
    omega

theorem waitsNanos_mono {m n : Nat} (h : m ≤ n) : b.waitsNanos m ≤ b.waitsNanos n := by
  induction h with
  | refl => exact Nat.le_refl _
  | step _ ih => exact Nat.le_trans ih (Nat.le_add_right ..)

/-- The longest that a series can take: its waits, and every attempt up to its limit. -/
theorem worstCase_nanos {w : Span} (h : b.worstCase? = some w) :
    w.nanos = b.waitsNanos (b.attempts - 1) + b.attemptTimeout.nanos * b.attempts := by
  rw [← longWaitsNanos_eq]
  exact Span.ofNanos?_eq_some.mp h

end Backoff

/-! ## One attempt -/

namespace RehearsedBus

/-- The step that the next publication takes. -/
def step (b : RehearsedBus) : PublishStep := b.script.head?.getD b.standing

/-- The bus when a publication has begun. -/
def called (b : RehearsedBus) (e : Envelope) (tick : Nat) : RehearsedBus :=
  { b with script := b.script.tail, calls := (e, tick) :: b.calls }

theorem begin_eq (b : RehearsedBus) (e : Envelope) (tick : Nat) :
    b.begin e tick = (b.called e tick, b.step) := by
  unfold begin called step
  cases b.script <;> rfl

end RehearsedBus

/-- Whether a step is not over within a limit. -/
def PublishStep.Outlasts (how : PublishStep) (limit : Span) : Prop :=
  how.hangs = true ∨ limit.ticks < how.delay

/-- An attempt at a publication: when it began and ended, the broker as it was found and left, and
    what came of it. -/
structure Attempt where
  begun : Nat
  ended : Nat
  found : RehearsedBus
  left : RehearsedBus
  outcome : Except BrokerError Unit

namespace Attempt

/-- How attempts go under a limit: they are cut off at that limit, or answered after their delay. -/
inductive Made (limit : Span) (e : Envelope) (x : Attempt) : Prop where
  | cutOff (h : x.found.step.Outlasts limit) (hended : x.ended = x.begun + limit.ticks)
      (hleft : x.left = x.found.called e x.begun)
      (houtcome : x.outcome = .error (Publishing.timedOut limit))
  | failed (err : BrokerError) (h : ¬x.found.step.Outlasts limit)
      (hfailure : x.found.step.failure = some err) (hended : x.ended = x.begun + x.found.step.delay)
      (hleft : x.left = x.found.called e x.begun) (houtcome : x.outcome = .error err)
  | offered (h : ¬x.found.step.Outlasts limit) (hfailure : x.found.step.failure = none)
      (hended : x.ended = x.begun + x.found.step.delay)
      (hleft : x.left = ((x.found.called e x.begun).finish e).1)
      (houtcome : x.outcome = ((x.found.called e x.begun).finish e).2)

/-- Whether an attempt has failed for a passing reason. -/
def FailedForNow (x : Attempt) : Prop :=
  ∃ err : BrokerError, x.outcome = .error err ∧ err.isTransient = true

/-- How long attempts take, each. -/
def spans (tries : List Attempt) : List Nat := tries.map fun x => x.ended - x.begun

variable {limit : Span} {e : Envelope} {x : Attempt}

/-- Attempts are recorded, each with its tick. -/
theorem Made.recorded (h : x.Made limit e) : x.left.calls = (e, x.begun) :: x.found.calls := by
  cases h with
  | cutOff _ _ hleft _ => rw [hleft]; rfl
  | failed _ _ _ _ hleft _ => rw [hleft]; rfl
  | offered _ _ _ hleft _ => rw [hleft]; rfl

/-- Attempts use up the script. -/
theorem Made.script (h : x.Made limit e) :
    x.left.script = x.found.script.tail ∧ x.left.standing = x.found.standing := by
  cases h with
  | cutOff _ _ hleft _ => rw [hleft]; exact ⟨rfl, rfl⟩
  | failed _ _ _ _ hleft _ => rw [hleft]; exact ⟨rfl, rfl⟩
  | offered _ _ _ hleft _ => rw [hleft]; exact ⟨rfl, rfl⟩

/-- No attempt is longer than the limit. -/
theorem Made.ended_le (h : x.Made limit e) :
    x.begun ≤ x.ended ∧ x.ended ≤ x.begun + limit.ticks := by
  have hdelay : ¬x.found.step.Outlasts limit → x.found.step.delay ≤ limit.ticks := fun hin =>
    Nat.le_of_not_lt fun hlt => hin (.inr hlt)
  cases h with
  | cutOff _ hended _ _ => omega
  | failed _ hin _ hended _ _ => have := hdelay hin; omega
  | offered hin _ hended _ _ => have := hdelay hin; omega

/-- An attempt that is cut off takes as long as it may, and has failed for now. -/
theorem Made.of_outlasts (h : x.Made limit e) (hout : x.found.step.Outlasts limit) :
    x.ended = x.begun + limit.ticks ∧ x.outcome = .error (Publishing.timedOut limit) := by
  cases h with
  | cutOff _ hended _ houtcome => exact ⟨hended, houtcome⟩
  | failed _ hin _ _ _ _ => exact absurd hout hin
  | offered hin _ _ _ _ => exact absurd hout hin

/-- Attempts take no longer than the limit, each. -/
theorem sum_spans_le {tries : List Attempt} (h : ∀ x ∈ tries, x.Made limit e) :
    (spans tries).sum ≤ tries.length * limit.ticks := by
  have hle : ∀ d ∈ spans tries, d ≤ limit.ticks := by
    intro d hd
    obtain ⟨x, hx, rfl⟩ := List.mem_map.mp hd
    have := (h x hx).ended_le.2
    omega
  have hsum := List.sum_le_card_nsmul (spans tries) limit.ticks hle
  rwa [spans, List.length_map] at hsum

/-- Attempts that are all cut off take as long as they may. -/
theorem sum_spans_eq {tries : List Attempt} (h : ∀ x ∈ tries, x.Made limit e)
    (hout : ∀ x ∈ tries, x.found.step.Outlasts limit) :
    (spans tries).sum = tries.length * limit.ticks := by
  have heq : ∀ d ∈ spans tries, d = limit.ticks := by
    intro d hd
    obtain ⟨x, hx, rfl⟩ := List.mem_map.mp hd
    have := ((h x hx).of_outlasts (hout x hx)).1
    omega
  have hsum := List.sum_eq_card_nsmul (spans tries) limit.ticks heq
  rwa [spans, List.length_map] at hsum

end Attempt

theorem Publishing.timedOut_transient (limit : Span) : (timedOut limit).isTransient = true := rfl

/-! ## An attempt as an activity -/

namespace Node

/-- A node on a bus. -/
def onto (n : Node) (bus : RehearsedBus) : Node := { n with transport := .bus bus }

theorem onto_self {n : Node} {bus : RehearsedBus} (h : n.transport = .bus bus) : n.onto bus = n := by
  cases n
  cases h
  rfl

end Node

/-- What a publication on a bus does after it has begun. -/
def follow (e : Envelope) (how : PublishStep) : Act (Except BrokerError Unit) :=
  (delay how.delay).bind fun _ =>
    if how.hangs then .never
    else match how.failure with
      | some err => .done (.error err)
      | none => Activity.step (onBus fun b => b.finish e)

section

variable {n : Node} {e : Envelope} {how : PublishStep} {limit : Span}

theorem alone_delay (millis t : Nat) : Alone (delay millis) t n () (t + millis) n := by
  unfold delay
  split
  · rename_i h
    rw [h]
    exact .done
  · exact alone_sleepTicks millis t n

/-- A call that outlasts its limit is still going on when the limit is reached. -/
theorem outlasts_follow (h : how.Outlasts limit) (t : Nat) :
    Outlasts (t + limit.ticks) (follow e how) t n n := by
  by_cases hdelay : limit.ticks < how.delay
  · refine Outlasts.bind ?_
    unfold delay
    rw [if_neg (by omega)]
    exact outlasts_sleepTicks (by omega) (by omega) n
  · -- the delay is over by then, and it hangs
    have hhangs : how.hangs = true := h.resolve_right hdelay
    refine (alone_delay how.delay t).outlasts (by omega) ?_
    rw [if_pos hhangs]
    exact .never (by omega)

theorem alone_follow_failed (h : ¬how.Outlasts limit) {err : BrokerError}
    (hfailure : how.failure = some err) (t : Nat) :
    Alone (follow e how) t n (.error err) (t + how.delay) n := by
  refine (alone_delay how.delay t).bind ?_
  rw [if_neg fun hhangs => h (.inl hhangs), hfailure]
  exact .done

theorem alone_follow_offered (h : ¬how.Outlasts limit) (hfailure : how.failure = none) (t : Nat)
    (bus : RehearsedBus) :
    Alone (follow e how) t (n.onto bus) (bus.finish e).2 (t + how.delay)
      (n.onto (bus.finish e).1) := by
  refine (alone_delay how.delay t).bind ?_
  rw [if_neg fun hhangs => h (.inl hhangs), hfailure]
  exact .act .done

variable {b : Backoff} {bus : RehearsedBus}

/-- An attempt begins at once, and then follows its step until the limit. -/
theorem alone_attempt {t t' : Nat} {r : Option (Except BrokerError Unit)} {n' : Node}
    (h : Alone ((follow e bus.step).withinTick (t + b.attemptTimeout.ticks)) t
      (n.onto (bus.called e t)) r t' n') :
    Alone (attempts b e .attempt) t (n.onto bus) r t' n' := by
  have hbegun : ((n.onto bus).onBus fun bus => bus.begin e t) = (n.onto (bus.called e t), bus.step) :=
    (onBus_of_transport (n := n.onto bus) rfl _).trans (by rw [bus.begin_eq]; rfl)
  refine .act (.act (.act ?_))
  show Alone ((follow e ((n.onto bus).onBus fun bus => bus.begin e t).2).withinTick _) t
    ((n.onto bus).onBus fun bus => bus.begin e t).1 r t' n'
  rw [hbegun]
  exact h

/-- **Every attempt goes as its step says**, under the limit. -/
theorem attempt_made (n : Node) (e : Envelope) (b : Backoff) (bus : RehearsedBus) (t : Nat) :
    ∃ (x : Attempt) (r : Option (Except BrokerError Unit)), x.begun = t ∧ x.found = bus ∧
      x.Made b.attemptTimeout e ∧ x.outcome = Publishing.outcome b.attemptTimeout r ∧
      Alone (attempts b e .attempt) t (n.onto bus) r x.ended (n.onto x.left) := by
  by_cases hout : bus.step.Outlasts b.attemptTimeout
  · refine ⟨⟨t, t + b.attemptTimeout.ticks, bus, bus.called e t, _⟩, none, rfl, rfl,
      .cutOff hout rfl rfl rfl, rfl, ?_⟩
    exact alone_attempt (outlasts_follow hout t).withinTick
  · have hsoon : t + bus.step.delay ≤ t + b.attemptTimeout.ticks :=
      Nat.add_le_add_left (Nat.le_of_not_lt fun hlt => hout (.inr hlt)) t
    cases hfailure : bus.step.failure with
    | some err =>
      refine ⟨⟨t, t + bus.step.delay, bus, bus.called e t, .error err⟩, some (.error err), rfl, rfl,
        .failed err hout hfailure rfl rfl rfl, rfl, ?_⟩
      exact alone_attempt ((alone_follow_failed hout hfailure t).withinTick hsoon)
    | none =>
      refine ⟨⟨t, t + bus.step.delay, bus, ((bus.called e t).finish e).1,
        ((bus.called e t).finish e).2⟩, some _, rfl, rfl,
        .offered hout hfailure rfl rfl rfl, rfl, ?_⟩
      exact alone_attempt ((alone_follow_offered hout hfailure t _).withinTick hsoon)

end

/-! ## Courses -/

/-- What a publication makes of the outcome of its last attempt, the one with number `k` of at most
    `most`: a success and a failure for good are handed on as they are; a passing failure is handed
    on only when no more attempts are allowed, and then says how many there were. -/
inductive Conclusion (most k : Nat) : Except BrokerError Unit → Except BrokerError Unit → Prop where
  | delivered : Conclusion most k (.ok ()) (.ok ())
  | refused {err : BrokerError} (h : err.isTransient = false) :
      Conclusion most k (.error err) (.error err)
  | exhausted {err : BrokerError} (h : err.isTransient = true) (hk : k = most) :
      Conclusion most k (.error err) (.error (err.withDetail "attempts" (Text.decimal k)))

/-- The attempts of a publication after some that have failed, when `left` may follow the first of
    them, and what the publication answers. -/
inductive Course (b : Backoff) (e : Envelope) :
    (left failed : Nat) → List Attempt → Except BrokerError Unit → Prop where
  | last {left failed x r} (hx : x.Made b.attemptTimeout e)
      (h : Conclusion (failed + (left + 1)) (failed + 1) x.outcome r) : Course b e left failed [x] r
  | again {left failed x y rest r} (hx : x.Made b.attemptTimeout e) (h : x.FailedForNow)
      (hbegun : y.begun = x.ended + (b.delayAfter (failed + 1)).ticks) (hfound : y.found = x.left)
      (hrest : Course b e left (failed + 1) (y :: rest) r) :
      Course b e (left + 1) failed (x :: y :: rest) r

/-- What the retries do after an attempt. -/
def followUp (b : Backoff) (left failed : Nat) (outcome : Except BrokerError Unit) :
    Program Publishing.Answer (Except BrokerError Unit) :=
  match outcome with
  | .ok () => .done (.ok ())
  | .error err =>
    if !err.isTransient then .done (.error err)
    else match left with
      | 0 => .done (.error (err.withDetail "attempts" (Text.decimal (failed + 1))))
      | left + 1 =>
        .ask (.pause (b.delayAfter (failed + 1))) fun _ => Publishing.tries b left (failed + 2)

/-- One attempt, and what follows upon its outcome. -/
theorem tries_eq (b : Backoff) (left failed : Nat) :
    Publishing.tries b left (failed + 1) =
      .ask .attempt fun r => followUp b left failed (Publishing.outcome b.attemptTimeout r) := by
  unfold Publishing.tries
  refine congrArg (Program.ask Publishing.Request.attempt) (funext fun r => ?_)
  cases Publishing.outcome b.attemptTimeout r with
  | ok u => rfl
  | error err => cases left <;> rfl

section

variable {b : Backoff} {left failed : Nat} {err : BrokerError}

theorem followUp_final (h : err.isTransient = false) :
    followUp b left failed (.error err) = .done (.error err) :=
  if_pos (by rw [h]; rfl)

theorem followUp_exhausted (h : err.isTransient = true) :
    followUp b 0 failed (.error err) =
      .done (.error (err.withDetail "attempts" (Text.decimal (failed + 1)))) :=
  if_neg (by rw [h]; decide)

theorem followUp_again (h : err.isTransient = true) :
    followUp b (left + 1) failed (.error err) =
      .ask (.pause (b.delayAfter (failed + 1))) fun _ => Publishing.tries b left (failed + 2) :=
  if_neg (by rw [h]; decide)

end

/-- **The retries take a course.** -/
theorem tries_course (b : Backoff) (e : Envelope) (n : Node) (left failed t : Nat)
    (bus : RehearsedBus) :
    ∃ (x : Attempt) (rest : List Attempt) (last : Attempt) (r : Except BrokerError Unit),
      x.begun = t ∧ x.found = bus ∧ (x :: rest).getLast? = some last ∧
      Course b e left failed (x :: rest) r ∧
      Alone (ofProgram (attempts b e) (Publishing.tries b left (failed + 1))) t (n.onto bus) r
        last.ended (n.onto last.left) := by
  obtain ⟨x, r, hbegun, hfound, hmade, houtcome, halone⟩ :=
    attempt_made n e b bus t
  rw [tries_eq]
  -- what is left to do once the attempt is over
  have hnext : ∀ {a t' n'},
      Alone (ofProgram (attempts b e) (followUp b left failed x.outcome)) x.ended (n.onto x.left) a t'
        n' →
      Alone (ofProgram (attempts b e) (.ask .attempt fun r =>
        followUp b left failed (Publishing.outcome b.attemptTimeout r))) t (n.onto bus) a t' n' := by
    intro a t' n' h
    rw [houtcome] at h
    exact halone.ofProgram h
  cases hout : x.outcome with
  | ok u =>
    refine ⟨x, [], x, .ok (), hbegun, hfound, rfl, .last hmade ?_, hnext ?_⟩ <;> rw [hout]
    · exact .delivered
    · exact .done
  | error err =>
    by_cases hpassing : err.isTransient = true
    · match left with
      | 0 =>
        refine ⟨x, [], x, .error (err.withDetail "attempts" (Text.decimal (failed + 1))), hbegun,
          hfound, rfl, .last hmade ?_, hnext ?_⟩ <;> rw [hout]
        · exact .exhausted hpassing rfl
        · rw [followUp_exhausted hpassing]
          exact .done
      | left + 1 =>
        obtain ⟨y, rest, last, a, hybegun, hyfound, hlast, hcourse, hrest⟩ :=
          tries_course b e n left (failed + 1) (x.ended + (b.delayAfter (failed + 1)).ticks) x.left
        refine ⟨x, y :: rest, last, a, hbegun, hfound, ?_,
          .again hmade ⟨err, hout, hpassing⟩ hybegun hyfound hcourse, hnext ?_⟩
        · rw [List.getLast?_cons_cons]
          exact hlast
        · rw [hout, followUp_again hpassing]
          exact Alone.ofProgram (alone_sleepTicks ..) hrest
    · have hfinal : err.isTransient = false := Bool.eq_false_iff.mpr hpassing
      refine ⟨x, [], x, .error err, hbegun, hfound, rfl, .last hmade ?_, hnext ?_⟩ <;> rw [hout]
      · exact .refused hfinal
      · rw [followUp_final hfinal]
        exact .done

namespace Course

variable {b : Backoff} {e : Envelope} {left failed : Nat} {tries : List Attempt}
  {r : Except BrokerError Unit}

theorem length_le (h : Course b e left failed tries r) : tries.length ≤ left + 1 := by
  induction h with
  | last => exact Nat.le_add_left ..
  | again _ _ _ _ _ ih => exact Nat.succ_le_succ ih

theorem made (h : Course b e left failed tries r) : ∀ x ∈ tries, x.Made b.attemptTimeout e := by
  induction h with
  | last hx => exact List.forall_mem_singleton.mpr hx
  | again hx _ _ _ _ ih => exact List.forall_mem_cons.mpr ⟨hx, ih⟩

/-- **Between two attempts** the broker is left alone, for as long as the number of failures says. -/
theorem spaced (h : Course b e left failed tries r) :
    ∀ i x y, tries[i]? = some x → tries[i + 1]? = some y →
      x.FailedForNow ∧ y.found = x.left ∧
        y.begun = x.ended + (b.delayAfter (failed + i + 1)).ticks := by
  induction h with
  | last => rintro i x y _ ⟨⟩
  | @again left failed _ _ _ _ _ hfailed hbegun hfound _ ih =>
    intro i x y hx hy
    cases i with
    | zero =>
      cases hx
      cases hy
      exact ⟨hfailed, hfound, hbegun⟩
    | succ i =>
      have hnumber : failed + 1 + i = failed + (i + 1) := by omega
      rw [← hnumber]
      exact ih i x y hx hy

section

variable {first last : Attempt}

/-- **The last attempt decides.** -/
theorem concludes (h : Course b e left failed tries r) (hlast : tries.getLast? = some last) :
    Conclusion (failed + (left + 1)) (failed + tries.length) last.outcome r := by
  induction h with
  | last _ h =>
    obtain rfl := Option.some.inj hlast
    exact h
  | @again left failed x y rest _ _ _ _ _ _ ih =>
    rw [List.getLast?_cons_cons] at hlast
    have hmost : failed + (left + 1 + 1) = failed + 1 + (left + 1) := by omega
    have hmade : failed + (x :: y :: rest).length = failed + 1 + (y :: rest).length := by
      rw [List.length_cons]
      omega
    rw [hmost, hmade]
    exact ih hlast

/-- The attempts take the steps of the script in their order. -/
theorem scripted (h : Course b e left failed tries r) (hfirst : tries.head? = some first) :
    ∀ i x, tries[i]? = some x → x.found.script = first.found.script.drop i ∧
      x.found.standing = first.found.standing := by
  induction h generalizing first with
  | last =>
    obtain rfl := Option.some.inj hfirst
    intro i z hz
    cases i with
    | zero =>
      obtain rfl := Option.some.inj hz
      exact ⟨rfl, rfl⟩
    | succ i => cases hz
  | again hx _ _ hfound _ ih =>
    obtain rfl := Option.some.inj hfirst
    intro i z hz
    cases i with
    | zero =>
      obtain rfl := Option.some.inj hz
      exact ⟨rfl, rfl⟩
    | succ i =>
      obtain ⟨hscript, hstanding⟩ := ih rfl i z hz
      rw [hscript, hstanding, hfound, hx.script.1, hx.script.2, List.drop_tail]
      exact ⟨rfl, rfl⟩

/-- The broker is called by the attempts and by nothing else. -/
theorem recorded (h : Course b e left failed tries r) (hfirst : tries.head? = some first)
    (hlast : tries.getLast? = some last) :
    last.left.calls = (tries.map fun x => (e, x.begun)).reverse ++ first.found.calls := by
  induction h generalizing first with
  | last hx =>
    obtain rfl := Option.some.inj hfirst
    obtain rfl := Option.some.inj hlast
    exact hx.recorded
  | @again _ _ x y rest _ hx _ _ hfound _ ih =>
    obtain rfl := Option.some.inj hfirst
    rw [List.getLast?_cons_cons] at hlast
    have hcalls : ((x :: y :: rest).map fun x => (e, x.begun)).reverse =
      ((y :: rest).map fun x => (e, x.begun)).reverse ++ [(e, x.begun)] := List.reverse_cons
    rw [ih rfl hlast, hfound, hx.recorded, hcalls, List.append_assoc]
    rfl

/-- **What a course takes** is what its attempts take, and the waits between them. -/
theorem account (h : Course b e left failed tries r) (hbase : b.baseDelay.Whole)
    (hmax : b.maxDelay.Whole) (hfirst : tries.head? = some first)
    (hlast : tries.getLast? = some last) :
    last.ended * 1000000 + b.waitsNanos failed =
      first.begun * 1000000 + (Attempt.spans tries).sum * 1000000 +
        b.waitsNanos (failed + (tries.length - 1)) := by
  induction h generalizing first with
  -- the last attempt: only its own span is left
  | @last left failed x _ hx _ =>
    obtain rfl := Option.some.inj hfirst
    obtain rfl := Option.some.inj hlast
    have hle := hx.ended_le.1
    show x.ended * 1000000 + b.waitsNanos failed =
      x.begun * 1000000 + (x.ended - x.begun + 0) * 1000000 + b.waitsNanos failed
    omega
  -- an attempt that failed: the next begins after the wait that its number asks for
  | @again left failed x y rest _ hx _ hbegun _ _ ih =>
    obtain rfl := Option.some.inj hfirst
    rw [List.getLast?_cons_cons] at hlast
    -- the waits are whole ticks, so ticks and nanoseconds agree
    have hwait : (b.delayAfter (failed + 1)).ticks * 1000000 = (b.delayAfter (failed + 1)).nanos :=
      (Backoff.whole_delayAfter hbase hmax _).ticks
    have hwaits : b.waitsNanos (failed + 1) =
      b.waitsNanos failed + (b.delayAfter (failed + 1)).nanos := rfl
    have hnumber : failed + ((x :: y :: rest).length - 1) =
        failed + 1 + ((y :: rest).length - 1) := by
      simp only [List.length_cons]
      omega
    have hspans : (Attempt.spans (x :: y :: rest)).sum =
      x.ended - x.begun + (Attempt.spans (y :: rest)).sum := rfl
    have hspent : x.begun + (x.ended - x.begun) = x.ended := Nat.add_sub_cancel' hx.ended_le.1
    have hrest := ih rfl hlast
    rw [hwaits, hbegun, Nat.add_mul, hwait] at hrest
    clear hwait
    rw [hnumber, hspans, Nat.add_mul, ← Nat.add_assoc, ← Nat.add_mul, hspent]
    omega

end

end Course

/-! ## The schedule and the budget -/

/-- How a publication of an envelope goes that begins at a tick on a bus: its attempts, the last of
    them, and its answer. -/
structure KeepsSchedule (b : Backoff) (w : Span) (e : Envelope) (bus : RehearsedBus) (t : Nat)
    (tries : List Attempt) (last : Attempt) (r : Except BrokerError Unit) : Prop where
  /-- The first attempt begins at once. -/
  begins : ∃ first, tries.head? = some first ∧ first.begun = t ∧ first.found = bus
  ends : tries.getLast? = some last
  few : tries.length ≤ b.attempts
  /-- The broker was called by these attempts and by nothing else. -/
  recorded : last.left.calls = (tries.map fun x => (e, x.begun)).reverse ++ bus.calls
  /-- The attempts meet what the broker does, step by step. -/
  scripted : ∀ (i : Nat) (x : Attempt), tries[i]? = some x →
    x.found.step = bus.script[i]?.getD bus.standing
  made : ∀ x : Attempt, x ∈ tries → x.Made b.attemptTimeout e
  /-- An attempt that is not over in time is cut off, and its failure is a passing one. -/
  limited : ∀ x : Attempt, x ∈ tries → x.ended ≤ x.begun + b.attemptTimeout.ticks ∧
    (x.found.step.Outlasts b.attemptTimeout →
      x.ended = x.begun + b.attemptTimeout.ticks ∧ x.FailedForNow)
  /-- Only a passing failure is followed by another attempt, after exactly the wait for it. -/
  spaced : ∀ (i : Nat) (x y : Attempt), tries[i]? = some x → tries[i + 1]? = some y →
    x.FailedForNow ∧ y.found = x.left ∧ x.ended ≤ y.begun ∧
      (y.begun - x.ended) * 1000000 =
        min b.maxDelay.nanos (b.baseDelay.nanos * 2 ^ min i 31)
  concludes : Conclusion b.attempts tries.length last.outcome r
  /-- The whole of it takes no longer than the budget. -/
  inBudget : (last.ended - t) * 1000000 ≤ w.nanos
  /-- The budget is used up if every attempt is cut off. -/
  exhausts : (∀ x : Attempt, x ∈ tries → x.found.step.Outlasts b.attemptTimeout) →
    (last.ended - t) * 1000000 = w.nanos

namespace Course

variable {b : Backoff} {e : Envelope} {tries : List Attempt} {r : Except BrokerError Unit}
  {first last : Attempt} {w : Span}

/-- All attempts that are allowed are made if all are cut off. -/
theorem length_of_outlasts {left : Nat} (h : Course b e left 0 tries r)
    (hlast : tries.getLast? = some last)
    (hout : ∀ x ∈ tries, x.found.step.Outlasts b.attemptTimeout) : tries.length = left + 1 := by
  have hmem : last ∈ tries := List.mem_of_getLast? hlast
  have houtcome := ((h.made last hmem).of_outlasts (hout last hmem)).2
  have hend := h.concludes hlast
  rw [houtcome] at hend
  cases hend with
  | refused hfinal => cases hfinal
  | exhausted _ hk => omega

/-- **A course stays within the budget**, and uses it up if every attempt is cut off. -/
theorem budget (h : Course b e (b.attempts - 1) 0 tries r) (hbase : b.baseDelay.Whole)
    (hmax : b.maxDelay.Whole) (hlimit : b.attemptTimeout.Whole) (hw : b.worstCase? = some w)
    (hfirst : tries.head? = some first) (hlast : tries.getLast? = some last) :
    (last.ended - first.begun) * 1000000 ≤ w.nanos ∧
      ((∀ x ∈ tries, x.found.step.Outlasts b.attemptTimeout) →
        (last.ended - first.begun) * 1000000 = w.nanos) := by
  -- there is at least one attempt
  have hsome : 0 < b.attempts := Nat.lt_of_lt_of_le Nat.one_pos (Nat.le_max_left ..)
  have hnone : b.waitsNanos 0 = 0 := rfl
  have haccount := h.account hbase hmax hfirst hlast
  rw [Nat.zero_add, hnone, Nat.add_zero, Nat.add_assoc] at haccount
  have hspent : (last.ended - first.begun) * 1000000 =
      (Attempt.spans tries).sum * 1000000 + b.waitsNanos (tries.length - 1) := by
    rw [Nat.sub_mul]
    exact Nat.sub_eq_of_eq_add' haccount
  rw [hspent, b.worstCase_nanos hw]
  -- no more attempts than allowed, none longer than the limit, no more waits than between them
  constructor
  · have hlength : tries.length ≤ b.attempts := by
      have := h.length_le
      omega
    have hwaits : b.waitsNanos (tries.length - 1) ≤ b.waitsNanos (b.attempts - 1) :=
      b.waitsNanos_mono (by omega)
    have hspans : (Attempt.spans tries).sum * 1000000 ≤ b.attemptTimeout.nanos * b.attempts :=
      calc (Attempt.spans tries).sum * 1000000
          ≤ b.attempts * b.attemptTimeout.ticks * 1000000 := Nat.mul_le_mul_right _
            (Nat.le_trans (Attempt.sum_spans_le h.made) (Nat.mul_le_mul_right _ hlength))
        _ = b.attemptTimeout.nanos * b.attempts := by
            rw [Nat.mul_assoc, hlimit.ticks, Nat.mul_comm]
    rw [Nat.add_comm]
    exact Nat.add_le_add hwaits hspans
  · -- all are cut off: then none was the last before its time, and each took the whole limit
    intro hout
    have hlength : tries.length = b.attempts := by
      have := h.length_of_outlasts hlast hout
      omega
    rw [Attempt.sum_spans_eq h.made hout, hlength, Nat.mul_assoc, hlimit.ticks, Nat.mul_comm,
      Nat.add_comm]

end Course

/-- A delivery from a node with retries is a series of attempts. -/
theorem alone_deliver {n n' : Node} {b : Backoff} {e : Envelope} {t t' : Nat}
    {r : Except BrokerError Unit} (hb : n.backoff = some b)
    (h : Alone (ofProgram (attempts b e) (Publishing.publish b)) t n r t' n') :
    Alone (deliver e) t n r t' n' := by
  refine .act ?_
  simp only [hb]
  exact h

/-- **A publication keeps its schedule and its budget**, whatever the broker does. -/
theorem publication_keeps_schedule {n : Node} {b : Backoff} {bus : RehearsedBus} {w : Span}
    (hb : n.backoff = some b) (hbus : n.transport = .bus bus) (hbase : b.baseDelay.Whole)
    (hmax : b.maxDelay.Whole) (hlimit : b.attemptTimeout.Whole) (hw : b.worstCase? = some w)
    (e : Envelope) (t : Nat) :
    ∃ tries last r, KeepsSchedule b w e bus t tries last r ∧
      ∃ N, ∀ count, N < count →
        Machine.run Node.body count (deliver e) (.lone t n) =
          (some r, .lone last.ended (n.onto last.left)) := by
  have hsome : 0 < b.attempts := Nat.lt_of_lt_of_le Nat.one_pos (Nat.le_max_left ..)
  -- the course of the attempts, as the bus's script lays it out, from one that is there at least
  obtain ⟨first, rest, last, r, rfl, rfl, hlast, hcourse, halone⟩ :=
    tries_course b e n (b.attempts - 1) 0 t bus
  have hmost : 0 + (b.attempts - 1 + 1) = b.attempts := by omega
  refine ⟨first :: rest, last, r, ?_, Machine.run_alone (alone_deliver hb ?_)⟩
  · refine
      { begins := ⟨first, rfl, rfl, rfl⟩
        ends := hlast
        few := by have := hcourse.length_le; omega
        recorded := hcourse.recorded rfl hlast
        scripted := fun i x hx => ?_
        made := hcourse.made
        limited := fun x hx => ⟨(hcourse.made x hx).ended_le.2, fun hout => ?_⟩
        spaced := fun i x y hx hy => ?_
        concludes := ?_
        inBudget := (hcourse.budget hbase hmax hlimit hw rfl hlast).1
        exhausts := (hcourse.budget hbase hmax hlimit hw rfl hlast).2 }
    · -- the script is read on from where the attempts before have left it
      obtain ⟨hscript, hstanding⟩ := hcourse.scripted rfl i x hx
      unfold RehearsedBus.step
      rw [hscript, hstanding, List.head?_drop]
    · -- an attempt that is cut off has a failure that is worth another
      obtain ⟨hended, houtcome⟩ := (hcourse.made x hx).of_outlasts hout
      exact ⟨hended, _, houtcome, Publishing.timedOut_transient _⟩
    · -- the next one begins exactly as long after as the schedule says
      obtain ⟨hfailed, hfound, hbegun⟩ := hcourse.spaced i x y hx hy
      have hwait : (b.delayAfter (0 + i + 1)).ticks * 1000000 = _ :=
        (Backoff.whole_delayAfter hbase hmax _).ticks.trans (b.delayAfter_nanos _)
      refine ⟨hfailed, hfound, by omega, ?_⟩
      rw [hbegun, Nat.add_sub_cancel_left, hwait, Nat.add_sub_cancel, Nat.zero_add]
    · have hend := hcourse.concludes hlast
      rwa [hmost, Nat.zero_add] at hend
  · rw [onto_self hbus] at halone
    exact halone

namespace Sample

/-- A broker that first hangs, then fails for a passing reason, and then accepts what it is given. -/
def moody : RehearsedBus where
  script := [{ hangs := true }, { delay := 20, failure := some MemoryBus.injectedError }, { delay := 5 }]

def moodyNode : Node where
  clock := .running .epoch
  transport := .bus moody
  backoff := some .standard
  lanes := .make {}
  settings := settings

/-- The envelope of a creation. -/
def envelope : Envelope := .ofEvent ⟨eventIdOf 1, ⟨key, version 1, .created, second 0⟩⟩

end Sample

/-- The first attempt is cut off, the second fails, and the third is accepted. -/
theorem sample_publication_keeps_schedule :
    Sample.moodyNode.backoff = some .standard ∧ Sample.moodyNode.transport = .bus Sample.moody ∧
      Backoff.standard.worstCase? = some (.ofMillis 5750) ∧
      (∃ tries last r,
        KeepsSchedule .standard (.ofMillis 5750) Sample.envelope Sample.moody 0 tries last r ∧
          ∃ N, ∀ count, N < count →
            Machine.run Node.body count (deliver Sample.envelope) (.lone 0 Sample.moodyNode) =
              (some r, .lone last.ended (Sample.moodyNode.onto last.left))) ∧
      ((Machine.run Node.body 20 (deliver Sample.envelope)
        (.lone 0 Sample.moodyNode)).2.world.bus.calls.map Prod.snd) = [1170, 1050, 0] := by
  have hw : Backoff.standard.worstCase? = some (.ofMillis 5750) := by decide +kernel
  have hbase : (Span.ofMillis 50).Whole := ⟨50, rfl⟩
  have hmax : (Span.ofMillis 2000).Whole := ⟨2000, rfl⟩
  have hlimit : (Span.ofMillis 1000).Whole := ⟨1000, rfl⟩
  refine ⟨rfl, rfl, hw, ?_, by decide +kernel⟩
  exact publication_keeps_schedule rfl rfl hbase hmax hlimit hw Sample.envelope 0

end SessionCluster
