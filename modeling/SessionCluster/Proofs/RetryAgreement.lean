/-
  Agreement of retries — connecting to a backend and delivering an event try alike.

  A node tries again in two places: it connects to its backends with retries, and it delivers its events
  with retries.  The two loops have only the waits in common.  Here a target of connections and a
  broker follow the same script (`RehearsedBus.Mirrors`): attempt by attempt they take as long, hang
  alike, and succeed or fail alike, and every failure of the broker is a passing one.

  * `attempt_agrees` — an attempt at the one goes as an attempt at the other, under the same limit;
  * `tries_agree` — so the loops keep step, by induction on the attempts that are left: they call at the
    same ticks, and conclude at the same attempt (`Concludes`);
  * `retries_agree` — **the retries agree**: the same ticks, as many attempts, and the same end
    (`Agreement`), by the first attempt that succeeds or by giving up.
-/
import SessionCluster.Proofs.Attempts
import SessionCluster.Rehearsal.Target

namespace SessionCluster

open Activity Node

variable {α : Type}

/-! ## Targets of connections -/

namespace AttemptStep

/-- Whether a step is not over within a limit. -/
def Outlasts (how : AttemptStep α) (limit : Span) : Prop :=
  how.hangs = true ∨ limit.ticks < how.delay

instance (how : AttemptStep α) (limit : Span) : Decidable (how.Outlasts limit) :=
  inferInstanceAs (Decidable (_ ∨ _))

/-- How many ticks an attempt takes under a limit. -/
def ticks (how : AttemptStep α) (limit : Span) : Nat :=
  if how.Outlasts limit then limit.ticks else how.delay

/-- What an attempt comes to under a limit: its outcome, or the message that it was cut off. -/
def result (how : AttemptStep α) (limit : Span) : Except String α :=
  if how.Outlasts limit then .error ("timed out after " ++ limit.text) else how.outcome

end AttemptStep

namespace RehearsedTarget

/-- The step of an attempt that comes after so many others. -/
def stepOf (target : RehearsedTarget α) (i : Nat) : AttemptStep α :=
  target.script[i]?.getD target.standing

/-- The target when an attempt has begun. -/
def called (target : RehearsedTarget α) (tick : Nat) : RehearsedTarget α :=
  { target with script := target.script.tail, calls := tick :: target.calls }

theorem begin_eq (target : RehearsedTarget α) (tick : Nat) :
    target.begin tick = (target.called tick, target.stepOf 0) := by
  unfold begin called stepOf
  cases target.script <;> rfl

theorem stepOf_called (target : RehearsedTarget α) (tick i : Nat) :
    (target.called tick).stepOf i = target.stepOf (i + 1) := by
  show target.script.tail[i]?.getD target.standing = target.script[i + 1]?.getD target.standing
  rw [List.getElem?_tail]

/-- What connecting asks for. -/
def answers (b : Backoff) (q : Connecting.Request) : Act α (Connecting.Answer α q) :=
  match q with
  | .attempt => Activity.within b.attemptTimeout attempt
  | .pause d => Activity.sleep d

/-- What an attempt does after its delay. -/
def reply (how : AttemptStep α) : Act α (Except String α) :=
  if how.hangs then .never else .done how.outcome

/-- What an attempt does after it has begun. -/
def follow (how : AttemptStep α) : Act α (Except String α) :=
  if how.delay ≠ 0 then (Activity.sleepTicks how.delay).bind fun _ => reply how else reply how

end RehearsedTarget

namespace Connecting

/-- What an attempt comes to, by its answer. -/
def outcome (limit : Span) : Option (Except String α) → Except String α
  | some r => r
  | none => .error ("timed out after " ++ limit.text)

/-- What connecting does after an attempt. -/
def followUp (b : Backoff) (left failed : Nat) :
    Except String α → Program (Answer α) (Except Failure α)
  | .ok a => .done (.ok a)
  | .error message =>
    match left with
    | 0 => .done (.error ⟨failed + 1, message⟩)
    | left + 1 => .ask (.pause (b.delayAfter (failed + 1))) fun _ => tries b left (failed + 2)

/-- One attempt to connect, and what follows upon its outcome. -/
theorem tries_eq (b : Backoff) (left failed : Nat) :
    (tries b left (failed + 1) : Program (Answer α) (Except Failure α)) =
      .ask .attempt fun r => followUp b left failed (outcome b.attemptTimeout r) := by
  unfold tries
  refine congrArg (Program.ask Request.attempt) (funext fun r => ?_)
  rcases r with _ | message | a
  · cases left <;> rfl
  · cases left <;> rfl
  · rfl

end Connecting

/-! ## Scripts that agree -/

/-- A step of a broker goes as a step of a target does, and if it fails then for a passing reason. -/
structure PublishStep.Mirrors (how : PublishStep) (what : AttemptStep α) : Prop where
  delay : how.delay = what.delay
  hangs : how.hangs = what.hangs
  /-- One succeeds exactly if the other does. -/
  succeeds : how.failure = none ↔ ∃ a, what.outcome = .ok a
  passing : ∀ err, how.failure = some err → err.isTransient = true

/-- The step of a publication that comes after so many others. -/
def RehearsedBus.stepOf (bus : RehearsedBus) (i : Nat) : PublishStep :=
  bus.script[i]?.getD bus.standing

/-- A broker follows the script of a target: step by step, and what reaches it for a target's success is
    accepted. -/
structure RehearsedBus.Mirrors (bus : RehearsedBus) (e : Envelope) (target : RehearsedTarget α) :
    Prop where
  steps : ∀ i, (bus.stepOf i).Mirrors (target.stepOf i)
  accepts : (bus.bus.publish e).2 = .ok ()

theorem PublishStep.Mirrors.outlasts_iff {how : PublishStep} {what : AttemptStep α}
    (h : how.Mirrors what) (limit : Span) : how.Outlasts limit ↔ what.Outlasts limit := by
  unfold Outlasts AttemptStep.Outlasts
  rw [h.delay, h.hangs]

/-! ## One attempt -/

section

variable {limit : Span} {how : AttemptStep α} {target : RehearsedTarget α}

namespace RehearsedTarget

/-- A call that does not outlast the limit ends by itself. -/
theorem alone_follow (h : ¬how.Outlasts limit) (t : Nat) (target : RehearsedTarget α) :
    Alone (follow how) t target how.outcome (t + how.delay) target := by
  have hreply : Alone (reply how) (t + how.delay) target how.outcome (t + how.delay) target := by
    unfold reply
    rw [if_neg fun hhangs => h (.inl hhangs)]
    exact .done
  unfold follow
  split
  · exact (alone_sleepTicks how.delay t target).bind hreply
  · rename_i hnone
    rw [Decidable.not_not.mp hnone] at hreply ⊢
    exact hreply

/-- One that does is still going on when the limit is reached. -/
theorem outlasts_follow (h : how.Outlasts limit) (t : Nat) (target : RehearsedTarget α) :
    Activity.Outlasts (t + limit.ticks) (follow how) t target target := by
  unfold follow
  by_cases hdelay : limit.ticks < how.delay
  · rw [if_pos (by omega)]
    exact (outlasts_sleepTicks (by omega) (by omega) target).bind
  · -- the delay is over by then, and it hangs
    have hnever : reply how = .never := if_pos (h.resolve_right hdelay)
    rw [hnever]
    split
    · exact (alone_sleepTicks how.delay t target).outlasts (by omega) (.never (by omega))
    · exact .never (by omega)

/-- **Every attempt goes as its step says**, under the limit. -/
theorem alone_attempt (b : Backoff) (t : Nat) (target : RehearsedTarget α) :
    ∃ r, Connecting.outcome b.attemptTimeout r = (target.stepOf 0).result b.attemptTimeout ∧
      Alone (answers b .attempt) t target r (t + (target.stepOf 0).ticks b.attemptTimeout)
        (target.called t) := by
  have hbegun {r : Option (Except String α)} {t' : Nat}
      (h : Alone ((follow (target.stepOf 0)).withinTick (t + b.attemptTimeout.ticks)) t
        (target.called t) r t' (target.called t)) :
      Alone (answers b .attempt) t target r t' (target.called t) := by
    refine .act (.act ?_)
    show Alone ((follow (target.begin t).2).withinTick _) t (target.begin t).1 r t' _
    rw [begin_eq]
    exact h
  unfold AttemptStep.result AttemptStep.ticks
  by_cases hout : (target.stepOf 0).Outlasts b.attemptTimeout
  · rw [if_pos hout, if_pos hout]
    exact ⟨none, rfl, hbegun (outlasts_follow hout t _).withinTick⟩
  · rw [if_neg hout, if_neg hout]
    have hsoon : (target.stepOf 0).delay ≤ b.attemptTimeout.ticks :=
      Nat.le_of_not_lt fun hlt => hout (.inr hlt)
    exact ⟨some _, rfl, hbegun ((alone_follow hout t _).withinTick (by omega))⟩

end RehearsedTarget

end

/-- What two attempts come to that agree: both succeed, or both fail, and that at the broker for now. -/
inductive Alike : Except String α → Except BrokerError Unit → Prop where
  | ok (a : α) : Alike (.ok a) (.ok ())
  | error (message : String) {err : BrokerError} (h : err.isTransient = true) :
      Alike (.error message) (.error err)

section

variable {limit : Span} {e : Envelope} {x : Attempt} {what : AttemptStep α}

/-- An attempt at the broker takes as long as one at the target, and comes to the like. -/
theorem Attempt.Made.alike (h : x.Made limit e) (hm : x.found.step.Mirrors what)
    (haccepts : (x.found.bus.publish e).2 = .ok ()) :
    x.ended = x.begun + what.ticks limit ∧ Alike (what.result limit) x.outcome := by
  have hiff := hm.outlasts_iff limit
  unfold AttemptStep.ticks AttemptStep.result
  cases h with
  | cutOff hout hended _ houtcome =>
    rw [if_pos (hiff.mp hout), if_pos (hiff.mp hout), houtcome]
    exact ⟨hended, .error _ (Publishing.timedOut_transient limit)⟩
  | failed err hin hfailure hended _ houtcome =>
    rw [if_neg (mt hiff.mpr hin), if_neg (mt hiff.mpr hin), ← hm.delay, houtcome]
    refine ⟨hended, ?_⟩
    cases hwhat : what.outcome with
    | ok a =>
      rw [hm.succeeds.mpr ⟨a, hwhat⟩] at hfailure
      cases hfailure
    | error message => exact .error message (hm.passing err hfailure)
  | offered hin hfailure hended _ houtcome =>
    obtain ⟨a, ha⟩ := hm.succeeds.mp hfailure
    have haccepted : ((x.found.called e x.begun).finish e).2 = .ok () := haccepts
    rw [if_neg (mt hiff.mpr hin), if_neg (mt hiff.mpr hin), ← hm.delay, houtcome, haccepted, ha]
    exact ⟨hended, .ok a⟩

/-- An attempt that has failed leaves the bus behind the broker as it is. -/
theorem Attempt.Made.bus_eq (h : x.Made limit e) (haccepts : (x.found.bus.publish e).2 = .ok ())
    {err : BrokerError} (herr : x.outcome = .error err) : x.left.bus = x.found.bus := by
  cases h with
  | cutOff _ _ hleft _ => rw [hleft]; rfl
  | failed _ _ _ _ hleft _ => rw [hleft]; rfl
  | offered _ _ _ _ houtcome =>
    have haccepted : ((x.found.called e x.begun).finish e).2 = .ok () := haccepts
    rw [houtcome, haccepted] at herr
    cases herr

/-- After an attempt that has failed, the broker goes on to follow the script. -/
theorem RehearsedBus.Mirrors.later {target : RehearsedTarget α} (h : x.found.Mirrors e target)
    (hx : x.Made limit e) {err : BrokerError} (herr : x.outcome = .error err) (tick : Nat) :
    x.left.Mirrors e (target.called tick) := by
  refine ⟨fun i => ?_, ?_⟩
  · have hstep : x.left.stepOf i = x.found.stepOf (i + 1) := by
      unfold stepOf
      rw [hx.script.1, hx.script.2, List.getElem?_tail]
    rw [hstep, target.stepOf_called]
    exact h.steps (i + 1)
  · rw [hx.bus_eq h.accepts herr]
    exact h.accepts

end

/-- **An attempt at the one goes as an attempt at the other**, under the same limit. -/
theorem attempt_agrees (b : Backoff) (e : Envelope) (n : Node) (t : Nat) {bus : RehearsedBus}
    {target : RehearsedTarget α} (h : bus.Mirrors e target) :
    ∃ (x : Attempt) (r : Option (Except String α)) (s : Option (Except BrokerError Unit)),
      x.begun = t ∧ x.found = bus ∧ x.Made b.attemptTimeout e ∧
      Alone (RehearsedTarget.answers b .attempt) t target r x.ended (target.called t) ∧
      Alone (attempts b e .attempt) t (n.onto bus) s x.ended (n.onto x.left) ∧
      Connecting.outcome b.attemptTimeout r = (target.stepOf 0).result b.attemptTimeout ∧
      Publishing.outcome b.attemptTimeout s = x.outcome ∧
      Alike ((target.stepOf 0).result b.attemptTimeout) x.outcome := by
  obtain ⟨x, s, rfl, rfl, hmade, hs, hbus⟩ := attempt_made n e b bus t
  obtain ⟨r, hr, htarget⟩ := RehearsedTarget.alone_attempt b x.begun target
  have hstep : x.found.step.Mirrors (target.stepOf 0) := by
    have hfirst := h.steps 0
    unfold RehearsedBus.stepOf at hfirst
    rwa [← List.head?_eq_getElem?] at hfirst
  obtain ⟨hended, halike⟩ := hmade.alike hstep h.accepts
  rw [← hended] at htarget
  exact ⟨x, r, s, rfl, rfl, hmade, htarget, hbus, hr, hs.symm, halike⟩

/-! ## The loops -/

/-- How both loops conclude, after some attempts that have failed and when `left` may follow the next one:
    how many attempts they make, and what they answer. -/
inductive Concludes (limit : Span) :
    (left failed : Nat) → (steps : Nat → AttemptStep α) → (count : Nat) →
      Except Connecting.Failure α → Except BrokerError Unit → Prop where
  | success {left failed steps a} (h : (steps 0).result limit = .ok a) :
      Concludes limit left failed steps 1 (.ok a) (.ok ())
  | failure {failed steps message} (err : BrokerError) (h : (steps 0).result limit = .error message) :
      Concludes limit 0 failed steps 1 (.error ⟨failed + 1, message⟩)
        (.error (err.withDetail "attempts" (Text.decimal (failed + 1))))
  | again {left failed steps message count r s} (h : (steps 0).result limit = .error message)
      (hrest : Concludes limit left (failed + 1) (fun i => steps (i + 1)) count r s) :
      Concludes limit (left + 1) failed steps (count + 1) r s

/-- **The loops keep step**: they call at the same ticks, are over at the same tick, and conclude at the
    same attempt. -/
theorem tries_agree (b : Backoff) (e : Envelope) (n : Node) (left failed t : Nat)
    {bus : RehearsedBus} {target : RehearsedTarget α} (h : bus.Mirrors e target) :
    ∃ (ticks : List Nat) (ended : Nat) (target' : RehearsedTarget α) (bus' : RehearsedBus)
      (r : Except Connecting.Failure α) (s : Except BrokerError Unit),
      Alone (ofProgram (RehearsedTarget.answers b) (Connecting.tries b left (failed + 1))) t target r
        ended target' ∧
      Alone (ofProgram (attempts b e) (Publishing.tries b left (failed + 1))) t (n.onto bus) s ended
        (n.onto bus') ∧
      target'.calls = ticks.reverse ++ target.calls ∧
      bus'.calls = (ticks.map fun tick => (e, tick)).reverse ++ bus.calls ∧
      Concludes b.attemptTimeout left failed target.stepOf ticks.length r s := by
  obtain ⟨x, y, z, rfl, rfl, hmade, htarget, hbus, hy, hz, halike⟩ := attempt_agrees b e n t h
  rw [Connecting.tries_eq, tries_eq]
  -- what is left to do once the attempts are over
  have hnext {r : Except Connecting.Failure α} {t' : Nat} {target' : RehearsedTarget α}
      (hgo : Alone (ofProgram (RehearsedTarget.answers b) (Connecting.followUp b left failed
        ((target.stepOf 0).result b.attemptTimeout))) x.ended (target.called x.begun) r t' target') :
      Alone (ofProgram (RehearsedTarget.answers b) (.ask .attempt fun r =>
        Connecting.followUp b left failed (Connecting.outcome b.attemptTimeout r))) x.begun target r t'
        target' := by
    rw [← hy] at hgo
    exact htarget.ofProgram hgo
  have hnextBus {s : Except BrokerError Unit} {t' : Nat} {n' : Node}
      (hgo : Alone (ofProgram (attempts b e) (followUp b left failed x.outcome)) x.ended
        (n.onto x.left) s t' n') :
      Alone (ofProgram (attempts b e) (.ask .attempt fun r =>
        followUp b left failed (Publishing.outcome b.attemptTimeout r))) x.begun (n.onto x.found) s t'
        n' := by
    rw [← hz] at hgo
    exact hbus.ofProgram hgo
  have hcalled : (target.called x.begun).calls = x.begun :: target.calls := rfl
  generalize hresult : (target.stepOf 0).result b.attemptTimeout = result at halike hnext
  generalize hout : x.outcome = outcome at halike hnextBus
  cases halike with
  | ok a =>
    exact ⟨[x.begun], x.ended, _, _, .ok a, .ok (), hnext .done, hnextBus .done, hcalled,
      hmade.recorded, .success hresult⟩
  | @error message err hpassing =>
    match left with
    | 0 =>
      refine ⟨[x.begun], x.ended, _, _, _, _, hnext .done, hnextBus ?_, hcalled, hmade.recorded,
        .failure err hresult⟩
      rw [followUp_exhausted hpassing]
      exact .done
    | left + 1 =>
      obtain ⟨ticks, ended, target', bus', r, s, hrun, hrunBus, hcalls, hcallsBus, hconcludes⟩ :=
        tries_agree b e n left (failed + 1) (x.ended + (b.delayAfter (failed + 1)).ticks)
          (h.later hmade hout x.begun)
      refine ⟨x.begun :: ticks, ended, target', bus', r, s, hnext ?_, hnextBus ?_, ?_, ?_,
        .again hresult ?_⟩
      · exact Alone.ofProgram (alone_sleepTicks ..) hrun
      · rw [followUp_again hpassing]
        exact Alone.ofProgram (alone_sleepTicks ..) hrunBus
      · rw [hcalls, hcalled, List.reverse_cons, List.append_assoc]
        rfl
      · rw [hcallsBus, hmade.recorded, List.map_cons, List.reverse_cons, List.append_assoc]
        rfl
      · have hsteps : (target.called x.begun).stepOf = fun i => target.stepOf (i + 1) :=
          funext (target.stepOf_called x.begun)
        rw [← hsteps]
        exact hconcludes

/-! ## The end of both -/

/-- The detail that was set is found. -/
theorem BrokerError.lookup_withDetail (err : BrokerError) (name value : String) :
    (err.withDetail name value).details.lookup name = some value := by
  have hothers : (err.details.filter (·.1 != name)).lookup name = none := by
    refine List.lookup_eq_none_iff.mpr fun x hx => ?_
    have hne : (x.1 != name) = true := (List.mem_filter.mp hx).2
    rw [bne_iff_ne] at hne
    simpa using hne.symm
  show (err.details.filter (·.1 != name) ++ [(name, value)]).lookup name = some value
  rw [List.lookup_append, hothers]
  simp

/-- How connecting to a target and delivering to a broker agree, after a number of attempts: one of them
    was the first to succeed, and its value is the answer; or all that were allowed have failed, and both
    answers say how many there were. -/
inductive Agreement (b : Backoff) (target : RehearsedTarget α) :
    (count : Nat) → Except Connecting.Failure α → Except BrokerError Unit → Prop where
  | success (i : Nat) (a : α) (hi : i < b.attempts)
      (hfailed : ∀ j < i, ∃ message, (target.stepOf j).result b.attemptTimeout = .error message)
      (ha : (target.stepOf i).result b.attemptTimeout = .ok a) :
      Agreement b target (i + 1) (.ok a) (.ok ())
  | failure (message : String) (err : BrokerError)
      (hfailed : ∀ j < b.attempts, ∃ message,
        (target.stepOf j).result b.attemptTimeout = .error message)
      (hlast : (target.stepOf (b.attempts - 1)).result b.attemptTimeout = .error message)
      (hdetail : err.details.lookup "attempts" = some (Text.decimal b.attempts)) :
      Agreement b target b.attempts (.error ⟨b.attempts, message⟩) (.error err)

section

variable {limit : Span} {left failed count : Nat} {steps : Nat → AttemptStep α}
  {r : Except Connecting.Failure α} {s : Except BrokerError Unit}

/-- Both conclude with the first attempt that succeeds, or when the last one that is allowed has failed. -/
theorem Concludes.cases (h : Concludes limit left failed steps count r s) :
    (∃ i a, i ≤ left ∧ (∀ j < i, ∃ message, (steps j).result limit = .error message) ∧
      (steps i).result limit = .ok a ∧ count = i + 1 ∧ r = .ok a ∧ s = .ok ()) ∨
    ∃ message err, (∀ j ≤ left, ∃ message, (steps j).result limit = .error message) ∧
      (steps left).result limit = .error message ∧ count = left + 1 ∧
      r = .error ⟨failed + left + 1, message⟩ ∧ s = .error err ∧
      err.details.lookup "attempts" = some (Text.decimal (failed + left + 1)) := by
  induction h with
  | @success left failed steps a h =>
    exact .inl ⟨0, a, Nat.zero_le _, fun j hj => absurd hj (Nat.not_lt_zero j), h, rfl, rfl, rfl⟩
  | @failure failed steps message err h =>
    refine .inr ⟨message, _, fun j hj => ?_, h, rfl, rfl, rfl, err.lookup_withDetail _ _⟩
    obtain rfl := Nat.le_zero.mp hj
    exact ⟨message, h⟩
  | @again left failed steps message count r s h _ ih =>
    -- the attempt in front has failed
    have hmore {m : Nat}
        (hfailed : ∀ j < m, ∃ message, (steps (j + 1)).result limit = .error message) :
        ∀ j < m + 1, ∃ message, (steps j).result limit = .error message := by
      intro j hj
      cases j with
      | zero => exact ⟨message, h⟩
      | succ j => exact hfailed j (by omega)
    rcases ih with ⟨i, a, hi, hfailed, ha, rfl, hr, hs⟩ |
      ⟨last, err, hfailed, hlast, rfl, hr, hs, hdetail⟩
    · exact .inl ⟨i + 1, a, by omega, hmore hfailed, ha, rfl, hr, hs⟩
    · have hnumber : failed + 1 + left + 1 = failed + (left + 1) + 1 := by omega
      rw [hnumber] at hr hdetail
      refine .inr ⟨last, err, fun j hj => ?_, hlast, rfl, hr, hs, hdetail⟩
      have hall : ∀ j < left + 1, ∃ message, (steps (j + 1)).result limit = .error message :=
        fun j hj => hfailed j (by omega)
      exact hmore hall j (by omega)

end

/-- How the two conclude is how they agree. -/
theorem Concludes.agreement {b : Backoff} {target : RehearsedTarget α} {count : Nat}
    {r : Except Connecting.Failure α} {s : Except BrokerError Unit}
    (h : Concludes b.attemptTimeout (b.attempts - 1) 0 target.stepOf count r s) :
    Agreement b target count r s := by
  have hsome : 0 < b.attempts := Nat.lt_of_lt_of_le Nat.one_pos (Nat.le_max_left ..)
  have hmost : 0 + (b.attempts - 1) + 1 = b.attempts := by omega
  rcases h.cases with ⟨i, a, hi, hfailed, ha, rfl, rfl, rfl⟩ |
    ⟨message, err, hfailed, hlast, rfl, rfl, rfl, hdetail⟩
  · exact .success i a (by omega) hfailed ha
  · rw [hmost] at hdetail ⊢
    rw [show b.attempts - 1 + 1 = b.attempts by omega]
    exact .failure message err (fun j hj => hfailed j (by omega)) hlast hdetail

/-- **The retries agree.**  Connecting to a target, and delivering an event to a broker that follows the
    target's script, with failures that are passing ones: for any parameters, script and node, both
    come to an end, at the same tick; they call at the same ticks, and so as many times; and they
    succeed or fail together, as the first attempts of the script say. -/
theorem retries_agree {n : Node} {b : Backoff} {bus : RehearsedBus} {e : Envelope}
    {target : RehearsedTarget α} (hb : n.backoff = some b) (hbus : n.transport = .bus bus)
    (h : bus.Mirrors e target) (t : Nat) :
    ∃ (ticks : List Nat) (ended : Nat) (target' : RehearsedTarget α) (bus' : RehearsedBus)
      (r : Except Connecting.Failure α) (s : Except BrokerError Unit),
      (∃ N, ∀ count, N < count →
        Machine.run (fun task => nomatch task) count (RehearsedTarget.connect b) (.lone t target) =
            (some r, .lone ended target') ∧
          Machine.run Node.body count (deliver e) (.lone t n) = (some s, .lone ended (n.onto bus'))) ∧
      target'.calls = ticks.reverse ++ target.calls ∧
      bus'.calls = (ticks.map fun tick => (e, tick)).reverse ++ bus.calls ∧
      Agreement b target ticks.length r s := by
  -- the two courses of attempts side by side, as the script leads both
  obtain ⟨ticks, ended, target', bus', r, s, htarget, hbroker, hcalls, hcallsBus, hconcludes⟩ :=
    tries_agree b e n (b.attempts - 1) 0 t h
  refine ⟨ticks, ended, target', bus', r, s, ?_, hcalls, hcallsBus, hconcludes.agreement⟩
  -- the delivery is that course, run by a node for itself
  have hdeliver : Alone (deliver e) t n s ended (n.onto bus') := by
    refine alone_deliver hb ?_
    rw [onto_self hbus] at hbroker
    exact hbroker
  have hconnect : ∃ N, ∀ count, N < count →
      Machine.run (fun task => nomatch task) count (RehearsedTarget.connect b) (.lone t target) =
        (some r, .lone ended target') := Machine.run_alone htarget
  have hpublish : ∃ M, ∀ count, M < count →
      Machine.run Node.body count (deliver e) (.lone t n) = (some s, .lone ended (n.onto bus')) :=
    Machine.run_alone hdeliver
  obtain ⟨N, hN⟩ := hconnect
  obtain ⟨M, hM⟩ := hpublish
  -- each run is over after some rounds, and so both are after the larger number
  exact ⟨max N M, fun count hcount => ⟨hN count (by omega), hM count (by omega)⟩⟩

namespace Sample

/-- A target that goes as the moody broker does: it first hangs, then fails, and then is there. -/
def moodyTarget : RehearsedTarget Nat where
  script := [{ hangs := true, outcome := .ok 7 }, { delay := 20, outcome := .error "refused" },
    { delay := 5, outcome := .ok 7 }]
  standing := { outcome := .ok 7 }

/-- The sample's bus follows the script of the sample's target. -/
theorem moody_mirrors : moody.Mirrors envelope moodyTarget := by
  refine ⟨fun i => ?_, rfl⟩
  have hfine {how : PublishStep} {what : AttemptStep Nat} (hdelay : how.delay = what.delay)
      (hhangs : how.hangs = what.hangs) (hnone : how.failure = none) (hok : what.outcome = .ok 7) :
      how.Mirrors what := by
    refine ⟨hdelay, hhangs, ⟨fun _ => ⟨7, hok⟩, fun _ => hnone⟩, fun err herr => ?_⟩
    rw [hnone] at herr
    cases herr
  match i with
  | 0 => exact hfine rfl rfl rfl rfl
  | 1 =>
    refine ⟨rfl, rfl, ⟨nofun, nofun⟩, fun err herr => ?_⟩
    obtain rfl : MemoryBus.injectedError = err := Option.some.inj herr
    rfl
  | 2 => exact hfine rfl rfl rfl rfl
  | i + 3 => exact hfine rfl rfl rfl rfl

end Sample

/-- Both are cut off at their first attempts, fail at the second ones and succeed at the third. -/
theorem sample_retries_agree :
    Sample.moodyNode.backoff = some .standard ∧ Sample.moodyNode.transport = .bus Sample.moody ∧
      Sample.moody.Mirrors Sample.envelope Sample.moodyTarget ∧
      (∃ (ticks : List Nat) (ended : Nat) (target' : RehearsedTarget Nat) (bus' : RehearsedBus)
        (r : Except Connecting.Failure Nat) (s : Except BrokerError Unit),
        (∃ N, ∀ count, N < count →
          Machine.run (fun task => nomatch task) count (RehearsedTarget.connect .standard)
              (.lone 0 Sample.moodyTarget) = (some r, .lone ended target') ∧
            Machine.run Node.body count (deliver Sample.envelope) (.lone 0 Sample.moodyNode) =
              (some s, .lone ended (Sample.moodyNode.onto bus'))) ∧
        target'.calls = ticks.reverse ++ Sample.moodyTarget.calls ∧
        bus'.calls = (ticks.map fun tick => (Sample.envelope, tick)).reverse ++ Sample.moody.calls ∧
        Agreement .standard Sample.moodyTarget ticks.length r s) ∧
      (Sample.moodyTarget.run .standard).2.world.calls = [1170, 1050, 0] := by
  refine ⟨rfl, rfl, Sample.moody_mirrors, ?_, by decide +kernel⟩
  exact retries_agree rfl rfl Sample.moody_mirrors 0

end SessionCluster
