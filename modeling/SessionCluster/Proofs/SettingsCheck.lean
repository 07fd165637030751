/-
  The check of settings — it always comes to an answer, and how far its answer is true.

  The check compares the time that a request has with the budget of a change.  The budget is a sum of
  products of numbers that have no upper limit of their own, and spans have one.  The sections are looked
  at first, and that is enough: with so few attempts, and so little time for the store, no budget comes
  near the limit (`exists_budget`).

  A complaint says how long the budget is, in a word of milliseconds.  A budget of 2⁶⁴ milliseconds or
  more does not fit, and then the complaint says too little, even less than what it complains about
  (`complaint_understates`).

  * `check_answers` — every settings have an answer; what is accepted leaves a request more time than any
    part of a change takes; a complaint about the time of a request is justified, and says how long the
    budget is as far as a word can say it.
-/
import SessionCluster.Proofs.Attempts

namespace SessionCluster

/-! ## Rules that hold -/

namespace Settings

theorem require_eq_ok {holds : Bool} {c : Complaint} : require holds c = .ok () ↔ holds = true := by
  cases holds <;> simp [require]

/-- A check after another passes if both do. -/
theorem andThen_eq_ok {x : Checked} {next : Unit → Checked} :
    (x >>= next) = .ok () ↔ x = .ok () ∧ next () = .ok () := by
  cases x with
  | error c =>
    constructor
    · rintro ⟨⟩
    · rintro ⟨⟨⟩, _⟩
  | ok u => exact ⟨fun h => ⟨rfl, h⟩, fun h => h.2⟩

/-- A request may take no more than three hundred seconds. -/
theorem requestTimeout_le_of_check {s : ServerSection} (h : checkServer s = .ok ()) :
    s.requestTimeoutSecs.toNat ≤ 300 := by
  unfold checkServer at h
  obtain ⟨_, h⟩ := andThen_eq_ok.mp h
  obtain ⟨htime, _⟩ := andThen_eq_ok.mp h
  have hbounds := require_eq_ok.mp htime
  simp only [Bool.and_eq_true, decide_eq_true_eq] at hbounds
  exact UInt64.le_iff_toNat_le.mp hbounds.2

theorem storeTimeout_le_of_check {s : StoreSection} (h : checkStore s = .ok ()) :
    s.timeoutMs.toNat ≤ 60000 := by
  unfold checkStore at h
  obtain ⟨htime, _⟩ := andThen_eq_ok.mp h
  have hbounds := require_eq_ok.mp htime
  simp only [Bool.and_eq_true, decide_eq_true_eq] at hbounds
  exact UInt64.le_iff_toNat_le.mp hbounds.2

theorem maxAttempts_le_of_check {s : EventsSection} (h : checkEvents s = .ok ()) :
    s.maxAttempts.toNat ≤ 20 := by
  unfold checkEvents at h
  obtain ⟨hattempts, _⟩ := andThen_eq_ok.mp h
  have hbounds := require_eq_ok.mp hattempts
  simp only [Bool.and_eq_true, decide_eq_true_eq] at hbounds
  exact UInt32.le_iff_toNat_le.mp hbounds.2

/-- The sections that the budget is made from have passed when all have. -/
theorem of_checkSections {s : Settings} (h : s.checkSections = .ok ()) :
    checkServer s.server = .ok () ∧ checkStore s.store = .ok () ∧ checkEvents s.events = .ok () := by
  unfold checkSections at h
  obtain ⟨hserver, h⟩ := andThen_eq_ok.mp h
  obtain ⟨hstore, h⟩ := andThen_eq_ok.mp h
  obtain ⟨_, h⟩ := andThen_eq_ok.mp h
  obtain ⟨hevents, _⟩ := andThen_eq_ok.mp h
  exact ⟨hserver, hstore, hevents⟩

end Settings

/-! ## Rules of sections complain about sections -/

/-- Whether a complaint is about the time of a request. -/
def Complaint.isTooShort : Complaint → Bool
  | .requestTimeoutTooShort _ _ => true
  | _ => false

/-- A check that complains about other things than the time of a request. -/
def Checked.Elsewhere (x : Checked) : Prop := ∀ c, x = .error c → c.isTooShort = false

namespace Checked.Elsewhere

/-- A condition that is required, with a complaint about something else. -/
theorem require {holds : Bool} {c : Complaint} (h : c.isTooShort = false) :
    Checked.Elsewhere (Settings.require holds c) := by
  intro c' heq
  cases holds with
  | true => cases heq
  | false =>
    cases heq
    exact h

theorem andThen {x : Checked} {next : Unit → Checked} (hx : x.Elsewhere)
    (hnext : (next ()).Elsewhere) : Checked.Elsewhere (x >>= next) := by
  intro c heq
  cases x with
  | error c' => exact hx c heq
  | ok u => exact hnext c heq

/-- A check that is made under a condition, and then another. -/
theorem whenThen {x : Checked} {next : Unit → Checked} {holds : Prop} [Decidable holds]
    (hx : x.Elsewhere) (hnext : (next ()).Elsewhere) :
    Checked.Elsewhere (if holds then x >>= next else next ()) := by
  split
  · exact hx.andThen hnext
  · exact hnext

theorem address (s : ServerSection) : Checked.Elsewhere (discard (Settings.address s)) := by
  intro c heq
  unfold Settings.address at heq
  split at heq <;> cases heq
  rfl

theorem nodeName (s : ServerSection) : Checked.Elsewhere (discard (Settings.nodeName s)) := by
  intro c heq
  unfold Settings.nodeName at heq
  split at heq
  · cases heq
  · split at heq <;> cases heq
    rfl

theorem server (s : ServerSection) : Checked.Elsewhere (Settings.checkServer s) :=
  (require rfl).andThen ((require rfl).andThen ((address s).andThen (nodeName s)))

theorem store (s : StoreSection) : Checked.Elsewhere (Settings.checkStore s) :=
  (require rfl).andThen (require rfl)

theorem database (s : DatabaseSection) : Checked.Elsewhere (Settings.checkDatabase s) :=
  (require rfl).andThen ((require rfl).andThen ((require rfl).andThen (require rfl)))

theorem cache (s : CacheSection) : Checked.Elsewhere (Settings.checkCache s) :=
  (require rfl).andThen ((require rfl).andThen (require rfl))

theorem redis (s : RedisSection) : Checked.Elsewhere (Settings.checkRedis s) :=
  (require rfl).andThen ((require rfl).andThen (require rfl))

theorem rabbitMq (s : RabbitMqSection) : Checked.Elsewhere (Settings.checkRabbitMq s) :=
  (require rfl).andThen ((require rfl).andThen ((require rfl).andThen
    ((require rfl).andThen (require rfl))))

theorem events (s : EventsSection) : Checked.Elsewhere (Settings.checkEvents s) :=
  (require rfl).andThen ((require rfl).andThen ((require rfl).andThen
    ((require rfl).andThen ((require rfl).andThen (require rfl)))))

theorem sweeper (s : SweeperSection) : Checked.Elsewhere (Settings.checkSweeper s) :=
  (require rfl).andThen (require rfl)

theorem limits (s : LimitsSection) : Checked.Elsewhere (Settings.checkLimits s) :=
  (require rfl).andThen (require rfl)

/-- No section complains about the time of a request. -/
theorem sections (s : Settings) : s.checkSections.Elsewhere := by
  refine (server _).andThen <| (store _).andThen <| (cache _).andThen <| (events _).andThen <|
    (sweeper _).andThen <| (limits _).andThen ?_
  refine whenThen (database _) (whenThen (redis _) ?_)
  split
  · exact rabbitMq _
  · nofun

end Checked.Elsewhere

/-! ## Budgets exist -/

namespace Span

/-- There is a span of so many nanoseconds. -/
theorem exists_of_le {n : Nat} (h : n ≤ 18446744073709551615999999999) :
    ∃ d, ofNanos? n = some d ∧ d.nanos = n :=
  ⟨⟨n, h⟩, dif_pos h, rfl⟩

theorem ofMillis_nanos_lt (n : UInt64) : (ofMillis n.toNat).nanos < 18446744073709551616000000 := by
  have hlt : n.toNat < 18446744073709551616 := n.toNat_lt
  rw [ofMillis_nanos]
  omega

end Span

namespace Backoff

variable (b : Backoff)

theorem waitsNanos_le (n : Nat) : b.waitsNanos n ≤ n * b.maxDelay.nanos := by
  induction n with
  | zero => exact Nat.zero_le _
  | succ n ih =>
    have hlast := b.delayAfter_le (n + 1)
    rw [waitsNanos, Nat.succ_mul]
    omega

/-- Every wait is one of the waits. -/
theorem delayAfter_le_waitsNanos {failed n : Nat} (h : 1 ≤ failed) (hn : failed ≤ n) :
    (b.delayAfter failed).nanos ≤ b.waitsNanos n := by
  obtain ⟨k, rfl⟩ := Nat.exists_eq_add_of_le' h
  have hupto : b.waitsNanos (k + 1) ≤ b.waitsNanos n := b.waitsNanos_mono hn
  rw [waitsNanos] at hupto
  omega

/-- A series of at most twenty attempts has a worst case, if its delays are words of milliseconds. -/
theorem exists_worstCase (hattempts : b.attempts ≤ 20)
    (hmax : b.maxDelay.nanos < 18446744073709551616000000)
    (hlimit : b.attemptTimeout.nanos < 18446744073709551616000000) :
    ∃ w, b.worstCase? = some w ∧ w.nanos ≤ 39 * 18446744073709551616000000 := by
  have hwaits : b.waitsNanos (b.attempts - 1) ≤ 19 * 18446744073709551616000000 :=
    calc b.waitsNanos (b.attempts - 1)
        ≤ (b.attempts - 1) * b.maxDelay.nanos := b.waitsNanos_le _
      _ ≤ 19 * 18446744073709551616000000 := Nat.mul_le_mul (by omega) (by omega)
  have htries : b.attemptTimeout.nanos * b.attempts ≤ 18446744073709551616000000 * 20 :=
    Nat.mul_le_mul (by omega) hattempts
  obtain ⟨w, hw, hnanos⟩ := Span.exists_of_le
    (n := b.waitsNanos (b.attempts - 1) + b.attemptTimeout.nanos * b.attempts) (by omega)
  refine ⟨w, ?_, by omega⟩
  unfold worstCase?
  rw [longWaitsNanos_eq]
  exact hw

end Backoff

namespace Settings

variable {s : Settings}

/-- **Settings whose sections pass have a budget.** -/
theorem exists_budget (h : s.checkSections = .ok ()) : ∃ budget, s.mutationBudget? = some budget := by
  obtain ⟨_, hstore, hevents⟩ := of_checkSections h
  have hattempts : s.backoff.attempts ≤ 20 :=
    Nat.max_le.mpr ⟨by omega, maxAttempts_le_of_check hevents⟩
  obtain ⟨delivery, hdelivery, hlong⟩ := s.backoff.exists_worstCase hattempts
    (Span.ofMillis_nanos_lt _) (Span.ofMillis_nanos_lt _)
  have hshort : s.storeTimeout.nanos ≤ 60000 * 1000000 := by
    have hmillis := storeTimeout_le_of_check hstore
    have hnanos : s.storeTimeout.nanos = s.store.timeoutMs.toNat * 1000000 := Span.ofMillis_nanos _
    omega
  have hcache : s.cacheTimeout.nanos < 18446744073709551616000000 := Span.ofMillis_nanos_lt _
  obtain ⟨store, htwice, hstoreNanos⟩ := Span.exists_of_le (n := s.storeTimeout.nanos * 2) (by omega)
  obtain ⟨calls, hmore, hcallsNanos⟩ :=
    Span.exists_of_le (n := store.nanos + s.cacheTimeout.nanos) (by omega)
  obtain ⟨budget, hall, _⟩ := Span.exists_of_le (n := calls.nanos + delivery.nanos) (by omega)
  refine ⟨budget, Option.bind_eq_some_iff.mpr ⟨store, htwice, ?_⟩⟩
  exact Option.bind_eq_some_iff.mpr ⟨calls, hmore,
    Option.bind_eq_some_iff.mpr ⟨delivery, hdelivery, hall⟩⟩

/-! ## What the budget contains -/

/-- A span that enters the budget of a change: a limit on calls to the store or the cache, or on
    attempts at a delivery, or a wait between two of them. -/
inductive Enters (s : Settings) : Span → Prop where
  | store : Enters s s.storeTimeout
  | cache : Enters s s.cacheTimeout
  | attempt : Enters s s.backoff.attemptTimeout
  | wait {failed : Nat} (h : 1 ≤ failed) (hlast : failed < s.backoff.attempts) :
      Enters s (s.backoff.delayAfter failed)

/-- No part of a budget is longer than the whole. -/
theorem Enters.le_budget {d budget : Span} (h : s.Enters d)
    (hbudget : s.mutationBudget? = some budget) :
    d.nanos ≤ budget.nanos := by
  obtain ⟨delivery, hdelivery, hparts⟩ := budget_nanos hbudget
  have hnanos := s.backoff.worstCase_nanos hdelivery
  have hone : s.backoff.attemptTimeout.nanos ≤ s.backoff.attemptTimeout.nanos * s.backoff.attempts :=
    Nat.le_mul_of_pos_right _ (Nat.lt_of_lt_of_le Nat.one_pos (Nat.le_max_left ..))
  cases h with
  | store => omega
  | cache => omega
  | attempt => omega
  | @wait failed h hlast =>
    have hwait := s.backoff.delayAfter_le_waitsNanos h (Nat.le_sub_one_of_lt hlast)
    omega

end Settings

/-! ## The answer -/

/-- What an answer to settings means. -/
structure Checked.Tells (s : Settings) (answer : Checked) : Prop where
  /-- What enters the budget takes less time than a request has. -/
  accepted : answer = .ok () → ∀ d, s.Enters d → d < s.requestTimeout
  /-- A request has no more time than the budget, and the complaint says how much each of them is, the
      budget in a word. -/
  tooShort : ∀ configured required, answer = .error (.requestTimeoutTooShort configured required) →
    ∃ budget, s.mutationBudget? = some budget ∧ s.requestTimeout ≤ budget ∧
      configured = s.requestTimeout.millis ∧ required = budget.millis % 18446744073709551616 ∧
      (budget.millis < 18446744073709551616 → required = budget.millis ∧ configured ≤ required)

namespace Settings

variable {s : Settings}

/-- No rule of a section is about the time of a request and the budget. -/
theorem tells_budget {budget : Span} (hsections : s.checkSections = .ok ())
    (hbudget : s.mutationBudget? = some budget) : (s.checkBudget budget).Tells s := by
  have hshort := requestTimeout_le_of_check (of_checkSections hsections).1
  have hmillis : s.requestTimeout.millis < 18446744073709551616 := by
    show min (s.server.requestTimeoutSecs.toNat * 1000000000) 18446744073709551615999999999 / 1000000 <
      18446744073709551616
    omega
  unfold checkBudget require
  by_cases hlt : budget < s.requestTimeout
  · rw [if_pos (decide_eq_true hlt)]
    refine ⟨fun _ d hd => ?_, nofun⟩
    exact Nat.lt_of_le_of_lt (hd.le_budget hbudget) hlt
  · rw [if_neg (by simpa using hlt)]
    refine ⟨nofun, ?_⟩
    rintro configured required ⟨⟩
    have hle : s.requestTimeout.nanos ≤ budget.nanos := Nat.le_of_not_lt hlt
    have hfits : wordMillis s.requestTimeout = s.requestTimeout.millis := Nat.mod_eq_of_lt hmillis
    refine ⟨budget, hbudget, hle, hfits, rfl, fun hword => ?_⟩
    have hall : wordMillis budget = budget.millis := Nat.mod_eq_of_lt hword
    rw [hfits, hall]
    exact ⟨rfl, Nat.div_le_div_right hle⟩

end Settings

/-- **The check of settings comes to an answer, and the answer is true**: nothing overflows on the way to
    it; what is accepted leaves a request more time than each limit and each wait in the budget; and a
    complaint about the time of a request is justified, and says what the budget is unless that takes
    more than a word. -/
theorem check_answers (s : Settings) : ∃ answer, s.check? = some answer ∧ answer.Tells s := by
  cases hsections : s.checkSections with
  | error c =>
    have hcheck : s.check? = some (.error c) := by
      unfold Settings.check?
      rw [hsections]
    refine ⟨.error c, hcheck, nofun, ?_⟩
    rintro configured required ⟨⟩
    cases Checked.Elsewhere.sections s _ hsections
  | ok u =>
    obtain ⟨budget, hbudget⟩ := Settings.exists_budget hsections
    have hcheck : s.check? = some (s.checkBudget budget) := by
      unfold Settings.check?
      rw [hsections, hbudget]
      rfl
    exact ⟨s.checkBudget budget, hcheck, Settings.tells_budget hsections hbudget⟩

namespace Sample

/-- Settings under which a request has no more time than its change. -/
def hastySettings : Settings := { server := { requestTimeoutSecs := 9 } }

/-- Settings under which the cache may take all the milliseconds that a word can count. -/
def patientSettings : Settings := { cache := { timeoutMs := 18446744073709551615 } }

end Sample

/-- The defaults are accepted, and leave more time than the longest wait; less time for requests is
    refused, with the length of the budget. -/
theorem sample_check_answers :
    ({} : Settings).check? = some (.ok ()) ∧
      Backoff.standard.delayAfter 4 < ({} : Settings).requestTimeout ∧
      Sample.hastySettings.check? = some (.error (.requestTimeoutTooShort 9000 9950)) ∧
      Sample.hastySettings.requestTimeout ≤ .ofMillis 9950 ∧ 9950 = (Span.ofMillis 9950).millis := by
  have hdefaults : ({} : Settings).check? = some (.ok ()) := by decide +kernel
  have hhasty : Sample.hastySettings.check? = some (.error (.requestTimeoutTooShort 9000 9950)) := by
    decide +kernel
  have hbudget : Sample.hastySettings.mutationBudget? = some (.ofMillis 9950) := by decide +kernel
  obtain ⟨answer, hanswer, htells⟩ := check_answers {}
  obtain rfl : Except.ok () = answer := Option.some.inj (hdefaults.symm.trans hanswer)
  have hwait : ({} : Settings).Enters (Backoff.standard.delayAfter 4) :=
    @Settings.Enters.wait {} 4 (by decide) (by decide)
  refine ⟨hdefaults, htells.accepted rfl _ hwait, hhasty, ?_⟩
  obtain ⟨answer, hanswer, htells⟩ := check_answers Sample.hastySettings
  obtain rfl : Except.error _ = answer := Option.some.inj (hhasty.symm.trans hanswer)
  obtain ⟨budget, hbudget', hlong, _, _, hsaid⟩ := htells.tooShort 9000 9950 rfl
  obtain rfl : Span.ofMillis 9950 = budget := Option.some.inj (hbudget.symm.trans hbudget')
  exact ⟨hlong, (hsaid (by decide)).1⟩

/-- **A complaint may understate the budget.**  These settings are refused because a request has thirty
    seconds only; but the budget that they are told is below that, as the bits beyond a word are lost. -/
theorem complaint_understates :
    Sample.patientSettings.check? = some (.error (.requestTimeoutTooShort 30000 9749)) ∧
      Sample.patientSettings.mutationBudget? = some (.ofMillis 18446744073709561365) ∧
      ¬ 30000 ≤ 9749 := by
  refine ⟨by decide +kernel, by decide +kernel, by decide⟩

end SessionCluster
