/-
  The budget of changes — how it bounds the time that a call takes, and where it does not.

  Settings are accepted only if a request has more time than their budget: two calls on the store,
  a removal from the cache, and as long as the delivery of an event can take.  Updates, removals
  and touches keep it, whatever the backends do and whoever else calls (`changes_within_budget`).

  A creation may make more calls on the store than two, because others may come between its insert
  and its swap.  Each of them adds its own limit to what the creation can take; so under settings
  that are accepted, a creation can take longer than the budget, and longer than a request has
  (`creation_exceeds_budget`).
-/
import SessionCluster.Node.Boot
import SessionCluster.Proofs.Promptness
import SessionCluster.Proofs.Schedules

namespace SessionCluster

/-! ## Whole milliseconds -/

namespace Span

/-- Whether a span is so many whole milliseconds. -/
def Whole (d : Span) : Prop := 1000000 ∣ d.nanos

/-- A timer takes no longer than a span of whole milliseconds. -/
theorem Whole.ticks {d : Span} (h : d.Whole) : d.ticks * 1000000 = d.nanos := by
  obtain ⟨k, hk⟩ := h
  unfold Span.ticks
  omega

theorem ofMillis_nanos (n : UInt64) : (ofMillis n.toNat).nanos = n.toNat * 1000000 := by
  have hlt : n.toNat < 18446744073709551616 := n.toNat_lt
  show min (n.toNat * 1000000) 18446744073709551615999999999 = _
  omega

theorem whole_ofMillis (n : UInt64) : (ofMillis n.toNat).Whole := by
  unfold Whole
  rw [ofMillis_nanos]
  exact Nat.dvd_mul_left ..

theorem Whole.shorter {a b : Span} (ha : a.Whole) (hb : b.Whole) : (a.shorter b).Whole := by
  unfold Span.shorter
  split
  · exact ha
  · exact hb

end Span

namespace Backoff

variable {b : Backoff} (hbase : b.baseDelay.Whole) (hmax : b.maxDelay.Whole)

include hbase hmax

/-- Delays double whole milliseconds, up to a limit of whole milliseconds. -/
theorem whole_delayAfter (failed : Nat) : (b.delayAfter failed).Whole := by
  unfold delayAfter doubled
  split
  · rename_i d hd
    have hnanos : d.nanos = b.baseDelay.nanos * Nat.pow 2 (doublings failed) :=
      Span.ofNanos?_eq_some.mp hd
    refine Span.Whole.shorter ?_ hmax
    unfold Span.Whole
    rw [hnanos]
    exact Nat.dvd_mul_right_of_dvd hbase _
  · exact hmax

theorem whole_waits (n : Nat) : 1000000 ∣ b.waitsNanos n := by
  induction n with
  | zero => exact Nat.dvd_zero _
  | succ n ih => exact Nat.dvd_add ih (whole_delayAfter hbase hmax _)

/-- The longest that a delivery can take is so many whole milliseconds, if all delays are. -/
theorem whole_worstCase (hattempt : b.attemptTimeout.Whole) {d : Span} (hd : b.worstCase? = some d) :
    d.Whole := by
  have hnanos := Span.ofNanos?_eq_some.mp hd
  rw [longWaitsNanos_eq] at hnanos
  unfold Span.Whole
  rw [hnanos]
  exact Nat.dvd_add (whole_waits hbase hmax _) (Nat.dvd_mul_right_of_dvd hattempt _)

end Backoff

/-! ## The budget -/

namespace Settings

variable {s : Settings}

theorem whole_delivery {d : Span} (hd : s.backoff.worstCase? = some d) : d.Whole :=
  Backoff.whole_worstCase (Span.whole_ofMillis _) (Span.whole_ofMillis _) (Span.whole_ofMillis _) hd

/-- The budget in nanoseconds: its parts add up. -/
theorem budget_nanos {budget : Span} (h : s.mutationBudget? = some budget) :
    ∃ delivery, s.backoff.worstCase? = some delivery ∧
      budget.nanos = 2 * s.storeTimeout.nanos + s.cacheTimeout.nanos + delivery.nanos := by
  unfold mutationBudget? at h
  obtain ⟨store, hstore, h⟩ := Option.bind_eq_some_iff.mp h
  obtain ⟨calls, hcalls, h⟩ := Option.bind_eq_some_iff.mp h
  obtain ⟨delivery, hdelivery, h⟩ := Option.bind_eq_some_iff.mp h
  have htwice : store.nanos = s.storeTimeout.nanos * 2 := Span.ofNanos?_eq_some.mp hstore
  have hmore : calls.nanos = store.nanos + s.cacheTimeout.nanos := Span.ofNanos?_eq_some.mp hcalls
  have hall : budget.nanos = calls.nanos + delivery.nanos := Span.ofNanos?_eq_some.mp h
  exact ⟨delivery, hdelivery, by omega⟩

/-- Settings that are accepted have a budget, and a request has more time than that. -/
theorem budget_of_check (h : s.check? = some (.ok ())) :
    ∃ budget, s.mutationBudget? = some budget ∧ budget < s.requestTimeout := by
  unfold check? at h
  split at h
  · cases h
  · obtain ⟨budget, hbudget, hcheck⟩ := Option.map_eq_some_iff.mp h
    refine ⟨budget, hbudget, ?_⟩
    unfold checkBudget require at hcheck
    split at hcheck
    · rename_i hlt
      exact of_decide_eq_true hlt
    · cases hcheck

/-- What a node takes over from its settings. -/
theorem of_assemble {parts : Boot.Parts} {clock : WallClock} {table : RehearsedTable}
    {server : RehearsedServer} {n : Node}
    (hn : Boot.assemble s parts clock table server = some n) :
    n.settings = s.coordinator parts.name ∧
      s.backoff.worstCase? = some n.lanes.ackTimeout := by
  unfold Boot.assemble at hn
  obtain ⟨lanes, hlanes, hn⟩ := Option.bind_eq_some_iff.mp hn
  obtain ⟨delivery, hdelivery, rfl⟩ := Option.map_eq_some_iff.mp hlanes
  obtain ⟨_, _, hn⟩ := Option.bind_eq_some_iff.mp hn
  obtain rfl := Option.some.inj hn
  exact ⟨rfl, hdelivery⟩

end Settings

/-- What some calls on the store can take, and what follows a write, is the budget and the limits of
    the calls beyond two.  All parts are whole milliseconds, so nothing is lost by counting ticks. -/
theorem Settings.limit_le {s : Settings} {delivery budget : Span}
    (hdelivery : s.backoff.worstCase? = some delivery) (hbudget : s.mutationBudget? = some budget)
    (calls : Nat) :
    (calls * s.storeTimeout.ticks + s.cacheTimeout.ticks + delivery.ticks) * 1000000 ≤
      budget.nanos + (calls - 2) * s.storeTimeout.nanos := by
  obtain ⟨delivery', hdelivery', hparts⟩ := budget_nanos hbudget
  obtain rfl : delivery = delivery' := Option.some.inj (hdelivery.symm.trans hdelivery')
  have hstore : s.storeTimeout.ticks * 1000000 = s.storeTimeout.nanos :=
    (Span.whole_ofMillis _).ticks
  have hcache : s.cacheTimeout.ticks * 1000000 = s.cacheTimeout.nanos :=
    (Span.whole_ofMillis _).ticks
  have hacks : delivery.ticks * 1000000 = delivery.nanos := (whole_delivery hdelivery).ticks
  have hsplit : calls * s.storeTimeout.nanos ≤
      2 * s.storeTimeout.nanos + (calls - 2) * s.storeTimeout.nanos := by
    rw [← Nat.add_mul]
    exact Nat.mul_le_mul_right _ (by omega)
  calc (calls * s.storeTimeout.ticks + s.cacheTimeout.ticks + delivery.ticks) * 1000000
      = calls * s.storeTimeout.nanos + s.cacheTimeout.nanos + delivery.nanos := by
        rw [Nat.add_mul, Nat.add_mul, Nat.mul_assoc, hstore, hcache, hacks]
    _ ≤ budget.nanos + (calls - 2) * s.storeTimeout.nanos := by omega

/-- Whoever has not finished has spent all the time until now. -/
theorem Member.spent_of_open {m : Member} (h : ¬ ∃ a, m.rest = .done a) (first : Moment Node)
    (now : Nat) : m.spent first now = now - first.tick := by
  obtain ⟨role, first', last, rest⟩ := m
  cases rest with
  | done a => exact absurd ⟨a, rfl⟩ h
  | act u k => rfl
  | wait r d k => rfl
  | never => rfl
  | spawn x k => rfl

/-- Circumstances in which any calls are made, and the node changes in any way but in what no
    member changes. -/
def Circumstances.unruly : Circumstances := ⟨fun _ => True, Node.Abides⟩

/-- **The budget bounds what a change takes**, if its call makes two calls on the store at most; and
    every further call that it may make adds no more than its own limit.  When that time is over,
    the call has been answered.

    The node is made from settings that are accepted, so a request has more time than the budget.
    Its store, cache and broker may be slow, fail or hang at any time, and its keys may be changed
    by anybody. -/
theorem changes_within_budget {s : Settings} {parts : Boot.Parts} {clock : WallClock}
    {table : RehearsedTable} {server : RehearsedServer} {n : Node}
    (hs : s.check? = some (.ok ())) (hn : Boot.assemble s parts clock table server = some n) :
    ∃ budget, s.mutationBudget? = some budget ∧ budget < s.requestTimeout ∧
      ∀ p, Process.PromptRuns .unruly (.start n) p → ∀ m ∈ p.members,
        ∀ c calls first, m.role = .call c → c.storeLimit = n.settings.storeTimeout →
          c.storeCalls? = some calls → m.first = some first →
            m.spent first p.history.now.tick * 1000000 ≤
                budget.nanos + (calls - 2) * s.storeTimeout.nanos ∧
              (budget.nanos + (calls - 2) * s.storeTimeout.nanos <
                (p.history.now.tick - first.tick) * 1000000 → ∃ a, m.rest = .done a) := by
  -- an accepted configuration has a budget, and the node's limits are the ones it is made of
  obtain ⟨budget, hbudget, hrequest⟩ := Settings.budget_of_check hs
  obtain ⟨hsettings, hacks⟩ := Settings.of_assemble hn
  refine ⟨budget, hbudget, hrequest, ?_⟩
  intro p hp m hm c calls first hrole hlimit hcalls hfirst
  have hstore : n.settings.storeTimeout = s.storeTimeout := by
    rw [hsettings]
    rfl
  have hcache : n.settings.cacheTimeout = s.cacheTimeout := by
    rw [hsettings]
    rfl
  -- so the limit of the member is the one that the budget was reckoned from
  have hmember : m.role.limit? n = some (calls * s.storeTimeout.ticks + s.cacheTimeout.ticks +
      n.lanes.ackTimeout.ticks) := by
    rw [hrole, Role.limit?, hcalls, hlimit, hstore, hcache]
    rfl
  have hspent := Process.spent_le (fun _ _ h => h) hp hm hfirst hmember
  have hbound : m.spent first p.history.now.tick * 1000000 ≤
      budget.nanos + (calls - 2) * s.storeTimeout.nanos :=
    Nat.le_trans (Nat.mul_le_mul_right _ hspent) (Settings.limit_le hacks hbudget calls)
  -- while the call is open its time runs on, so it cannot be open beyond the bound
  refine ⟨hbound, fun hlate => ?_⟩
  by_contra hopen
  rw [Member.spent_of_open hopen] at hbound
  omega

/-! ## A creation that takes longer -/

/-- The limit for the store of a creation that has been answered with a record, and how many ticks
    it has spent. -/
def Member.creationTime? : Member → Option (Span × Nat)
  | ⟨.call (.create s ..), some first, last, .done (.ok _)⟩ => some (s.storeTimeout, last - first.tick)
  | _ => none

/-- A creation that has been answered is a call that makes six calls on the store at most. -/
theorem Member.of_creationTime? {m : Member} {limit : Span} {ticks : Nat}
    (h : m.creationTime? = some (limit, ticks)) :
    ∃ c first, m.role = .call c ∧ c.storeLimit = limit ∧ c.storeCalls? = some 6 ∧
      m.first = some first ∧ (∃ a, m.rest = .done a) ∧ ∀ now, m.spent first now = ticks := by
  unfold creationTime? at h
  split at h
  · rename_i s key payload ttl first last c
    obtain ⟨rfl, rfl⟩ := Prod.mk.inj (Option.some.inj h)
    exact ⟨_, first, rfl, rfl, rfl, rfl, ⟨_, rfl⟩, fun _ => rfl⟩
  · cases h

namespace Sample

/-- Settings of a node with one lane, whose requests have ten seconds. -/
def tightSettings : Settings :=
  { server := { requestTimeoutSecs := 10 }, events := { partitions := 1 } }

/-- A node that is made from them. -/
def tightNode : Node :=
  (Boot.assemble tightSettings ⟨settings.node, .bus {}⟩ (.running .epoch) {} {}).get
    (by decide +kernel)

/-- The node with a session that has expired, a store and a cache that are slow, and a broker that
    never answers. -/
def slowed (n : Node) : Node :=
  { n with
    store := .memory
      { slots := ⟨[(key, .live ⟨key, .null, version 1, settings.node, .epoch, .epoch, .epoch⟩)]⟩
        latency := 2000 }
    cache := .memory { latency := 500 }
    transport := .bus { standing := { hangs := true } } }

/-- A sweep and a creation of that session begin together.  The sweep removes the record after the
    creation has found it, and before the creation can replace it. -/
def overtakenCreation : Process :=
  ((((Process.start tightNode).heed (.change slowed)).heed (.call (.sweep {}))).heed
    (.call (.create tightNode.settings key (.bool true) (.ofMillis 60000)))).attend 50

theorem tightSettings_accepted : tightSettings.check? = some (.ok ()) := by decide +kernel

theorem tightNode_assembled :
    Boot.assemble tightSettings ⟨settings.node, .bus {}⟩ (.running .epoch) {} {} = some tightNode :=
  (Option.some_get _).symm

/-- The sample follows its cues, promptly. -/
theorem runs_overtakenCreation :
    Process.PromptRuns .unruly (.start tightNode) overtakenCreation := by
  have hslowed : ∀ n : Node, n.Abides (slowed n) := fun n => ⟨rfl, rfl, fun _ h => h⟩
  unfold overtakenCreation
  refine .trans ?_ (Process.promptRuns_attend 50 _)
  refine .tail ?_ (Process.prompt_call trivial _)
  refine .tail ?_ (Process.prompt_call trivial _)
  exact .single (Process.prompt_change hslowed _)

/-- The creation has its record after almost twelve seconds. -/
theorem overtakenCreation_time :
    overtakenCreation.members.filterMap Member.creationTime? = [(.ofMillis 2000, 11950)] := by
  decide +kernel

end Sample

/-- The creation keeps to the budget and four calls more. -/
theorem sample_changes_within_budget :
    ∃ budget, Sample.tightSettings.mutationBudget? = some budget ∧
      budget < Sample.tightSettings.requestTimeout ∧
      11950 * 1000000 ≤ budget.nanos + 4 * Sample.tightSettings.storeTimeout.nanos := by
  obtain ⟨budget, hbudget, hrequest, hall⟩ :=
    changes_within_budget Sample.tightSettings_accepted Sample.tightNode_assembled
  refine ⟨budget, hbudget, hrequest, ?_⟩
  have htime : (Span.ofMillis 2000, 11950) ∈
      Sample.overtakenCreation.members.filterMap Member.creationTime? := by
    rw [Sample.overtakenCreation_time]
    exact List.mem_singleton.mpr rfl
  obtain ⟨m, hm, hcreation⟩ := List.mem_filterMap.mp htime
  obtain ⟨c, first, hrole, hlimit, hcalls, hfirst, _, hspent⟩ := Member.of_creationTime? hcreation
  have hsame : c.storeLimit = Sample.tightNode.settings.storeTimeout := by
    rw [hlimit]
    decide +kernel
  have hbound := (hall _ Sample.runs_overtakenCreation m hm c 6 first hrole hsame hcalls hfirst).1
  rw [hspent] at hbound
  exact hbound

/-- **A creation may take longer than the budget**, and longer than a request has: a sweep removes
    the expired record that it is about to replace, so it inserts again, and every call on the store
    takes as long as it may. -/
theorem creation_exceeds_budget :
    Sample.tightSettings.check? = some (.ok ()) ∧
      Boot.assemble Sample.tightSettings ⟨Sample.settings.node, .bus {}⟩ (.running .epoch) {} {} =
        some Sample.tightNode ∧
      Process.PromptRuns .unruly (.start Sample.tightNode) Sample.overtakenCreation ∧
      ∃ budget, Sample.tightSettings.mutationBudget? = some budget ∧
        ∃ m ∈ Sample.overtakenCreation.members, ∃ c first, m.role = .call c ∧
          c.storeLimit = Sample.tightNode.settings.storeTimeout ∧ m.first = some first ∧
          (∃ a, m.rest = .done a) ∧
          budget.nanos < m.spent first Sample.overtakenCreation.history.now.tick * 1000000 ∧
          Sample.tightSettings.requestTimeout.nanos <
            m.spent first Sample.overtakenCreation.history.now.tick * 1000000 := by
  refine ⟨Sample.tightSettings_accepted, Sample.tightNode_assembled,
    Sample.runs_overtakenCreation, .ofMillis 9950, by decide +kernel, ?_⟩
  have htime : (Span.ofMillis 2000, 11950) ∈
      Sample.overtakenCreation.members.filterMap Member.creationTime? := by
    rw [Sample.overtakenCreation_time]
    exact List.mem_singleton.mpr rfl
  obtain ⟨m, hm, hcreation⟩ := List.mem_filterMap.mp htime
  obtain ⟨c, first, hrole, hlimit, _, hfirst, hdone, hspent⟩ := Member.of_creationTime? hcreation
  refine ⟨m, hm, c, first, hrole, ?_, hfirst, hdone, ?_, ?_⟩
  · rw [hlimit]
    decide +kernel
  · rw [hspent]
    decide +kernel
  · rw [hspent]
    decide +kernel

end SessionCluster
