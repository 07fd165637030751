/-
  Touches — what a touch does to the expiry of a session.

  A touch reads the clock, finds the record of its session in the store, and then replaces it by one
  that expires later, up to a ceiling: the longest lifetime from its reading of the clock.  Others
  act in between.  A creation or a touch that has read the clock later has a higher ceiling, and may
  have moved the expiry above that of a touch that is still under way, which then brings it back.

  * `TouchStage` — how far a touch has come that may still write;
  * `touch_commits` — **a touch that commits keeps to its ceiling, and moves the expiry on unless it
    was overtaken**: somebody has read the clock later, and set the expiry before it;
  * `touch_shortens` — a touch that is overtaken may shorten its session, though all clocks agree and
    never go back.
-/
import SessionCluster.Proofs.Calls
import SessionCluster.Proofs.Limits

namespace SessionCluster

/-! ## A touch under way -/

/-- An operation that calls the store no more. -/
def Retired {α : Type} : Operation α → Prop
  | .done _ => True
  | .ask (.store _) _ => False
  | .ask _ next => ∀ x, Retired (next x)

/-- How far a touch has come that has read the clock, and may still write: it looks for its record, or
    replaces the one that it has found at an earlier moment. -/
inductive TouchStage (s : CoordinatorSettings) (key : SessionKey) (extension : Span)
    (now : Instant) (w : World) (p : Operation (Outcome Record)) : Prop where
  | loading
      (heq : p = Coordinator.loadLive s key now fun r =>
        Coordinator.swap s key r.version (r.extended extension (now.plus s.maxTtl) s.node now) now)
  | swapping (r : Record) (seen : Slots) (hr : seen.live? key = some r)
      (hgrows : seen.Grows w.slots)
      (heq : p = Coordinator.swap s key r.version
        (r.extended extension (now.plus s.maxTtl) s.node now) now)

/-- What is left of a touch, by what it has asked so far. -/
def Touching (s : CoordinatorSettings) (key : SessionKey) (extension : Span)
    (made : List (Exchange World)) (w : World) (p : Operation (Outcome Record)) : Prop :=
  Retired p ∨ ∃ now, readings made = [now] ∧ TouchStage s key extension now w p

section

variable {s : CoordinatorSettings} {key : SessionKey} {extension : Span} {now : Instant}
  {w w₁ w₂ : World} {made es : List (Exchange World)} {p p' : Operation (Outcome Record)}

/-- Others act. -/
theorem Touching.mono (h : Touching s key extension made w p) (hg : w.slots.Grows w₁.slots) :
    Touching s key extension made w₁ p := by
  refine h.imp_right ?_
  rintro ⟨now, hread, hstage⟩
  refine ⟨now, hread, ?_⟩
  cases hstage with
  | loading heq => exact .loading heq
  | swapping r seen hr hgrows heq => exact .swapping r seen hr (hgrows.trans hg) heq

theorem Retired.next {q : Request} {next : q.Answer → Operation (Outcome Record)}
    (h : Retired (.ask q next)) (x : q.Answer) : Retired (next x) := by
  cases q with
  | store c => exact absurd h id
  | _ => exact h x

theorem Settles.retired (h : Settles World.Answers w p es w₂ p') : Retired p → Retired p' := by
  induction h with
  | rest => exact id
  | ask _ _ _ ih => exact fun hp => ih (hp.next _)

theorem Retired.commit (key : SessionKey) (value : Record) (earlier : List Change) (own : Change) :
    Retired (Coordinator.commit key value earlier own) := fun _ _ _ _ => trivial

/-- A touch begins: it reads the clock, unless its extension is refused. -/
theorem touching_start
    (hs : Settles World.Answers w (Coordinator.touch s key extension) es w₂ p) :
    Touching s key extension es w₂ p := by
  unfold Coordinator.touch at hs
  split at hs
  · exact .inl (hs.retired trivial)
  · cases hs with
    | rest hrest => cases hrest
    | @ask _ _ _ now w₁ es _ _ _ _ hs =>
      obtain ⟨-, rfl⟩ := hs.of_rest rfl
      cases hs with
      | rest => exact .inr ⟨now, rfl, .loading rfl⟩
      | ask hq => cases hq

/-- A touch goes on, and does not read the clock again. -/
theorem TouchStage.poll {q : Request} {next : q.Answer → Operation (Outcome Record)} {x : q.Answer}
    (h : TouchStage s key extension now w (.ask q next)) (ha : w.Answers q x w₁)
    (hs : Settles World.Answers w₁ (next x) es w₂ p') :
    Retired p' ∨ readings (⟨w, q, x, w₁⟩ :: es) = [] ∧
      TouchStage s key extension now w₂ p' := by
  cases h with
  | loading heq =>
    unfold Coordinator.loadLive Coordinator.storeCall at heq
    cases heq
    rcases x with _ | f | found
    · exact .inl (hs.retired trivial)
    · exact .inl (hs.retired trivial)
    · obtain ⟨hfound, rfl⟩ := ha.resolve_right fun hnone => hnone.1 _ rfl
      have hlive : found = w.slots.live? key := Except.ok.inj (Option.some.inj hfound)
      cases found with
      | none => exact .inl (hs.retired trivial)
      | some r =>
        simp only at hs
        split at hs
        · exact .inl (hs.retired trivial)
        · -- the record that was found is replaced next
          cases hs with
          | rest => exact .inr ⟨rfl, .swapping r w.slots hlive.symm (.refl _) rfl⟩
          | ask hq => cases hq
  | swapping r seen hr hgrows heq =>
    unfold Coordinator.swap Coordinator.storeCall at heq
    cases heq
    rcases x with _ | f | o
    · exact .inl (hs.retired trivial)
    · exact .inl (hs.retired trivial)
    · cases o with
      | applied => exact .inl (hs.retired (Retired.commit _ _ _ _))
      | conflict latest => exact .inl (hs.retired trivial)
      | missing => exact .inl (hs.retired trivial)

end

/-- **Every touch is at one of its stages**, all along. -/
theorem Runs.touching {c : Cluster World} (h : Runs (.idle {}) c) {i : Nat}
    {s : CoordinatorSettings} {key : SessionKey} {extension : Span} {made : List (Exchange World)}
    {rest : Operation (Outcome Record)}
    (hp : c.calls i = some ⟨.touch s key extension, made, rest⟩) :
    Touching s key extension made c.world rest := by
  induction h generalizing i s key extension made rest with
  -- nothing runs yet
  | refl => cases hp
  | @tail c c' hc hst ih =>
    obtain ⟨hin, call, es, hs⟩ := hst
    -- the store only grows in a step, and the stages outlast that
    have hg : c.world.slots.Grows c'.world.slots := (Runs.lawful hc hin hs).grows
    cases hs.progressed hp with
    -- it begins: refused at once, or with the clock read
    | begun hset => exact touching_start hset
    -- it goes on, from what it had read of the clock and of the record
    | resumed hi ha hset =>
      rcases ih hi with hretired | ⟨now, hread, hstage⟩
      · exact .inl (hset.retired (hretired.next _))
      · rcases hstage.poll ha hset with hretired | ⟨hnone, hlater⟩
        · exact .inl hretired
        · exact .inr ⟨now, by rw [readings_append, hread, hnone, List.append_nil], hlater⟩
    | stayed hi => exact (ih hi).mono hg

/-! ## What a touch makes of a record -/

/-- Somebody who read the clock later has set the expiry of a session before a touch could. -/
def Overtaken (log : ClockLog) (key : SessionKey) (now : Instant) : Prop :=
  ∃ x ∈ log, x.1.SetsExpiry key ∧
    (x.2.inLeapSecond = false → now.inLeapSecond = false → now.before x.2 = true)

/-- A record that a touch has replaced: the next one expires no later than the longest lifetime from
    the touch's reading of the clock, and no earlier than before, unless the touch was overtaken. -/
structure Touched (L : Limits) (log : ClockLog) (key : SessionKey) (extension : Span) (now : Instant)
    (r r' : Record) : Prop where
  extended : ∃ node, r' = r.extended extension (now.plus L.maxTtl) node now
  ceiling : r'.expiresAt ≤ now.plus L.maxTtl
  later : r.expiresAt ≤ r'.expiresAt ∨ Overtaken log key now

/-- A record that keeps the limits is moved on by a touch that was not overtaken. -/
theorem Record.KeepsLimits.touched {L : Limits} {log : ClockLog} {key : SessionKey} {r : Record}
    (h : r.KeepsLimits L log key) (extension : Span) (now : Instant) (node : NodeName) :
    Touched L log key extension now r (r.extended extension (now.plus L.maxTtl) node now) := by
  refine ⟨⟨node, rfl⟩, min_le_right _ _, ?_⟩
  obtain ⟨x, hx, hsets, hexpiry⟩ := h.expiry
  by_cases hover : x.2.inLeapSecond = false → now.inLeapSecond = false → now.before x.2 = true
  · exact .inr ⟨x, hx, hsets, hover⟩
  · -- the expiry was set by a clock that had not gone past the reading of the touch
    obtain ⟨hordinary, hlater⟩ := Classical.not_imp.mp hover
    obtain ⟨hnow, hle⟩ := Classical.not_imp.mp hlater
    have hold := hexpiry hordinary
    refine .inl (le_min ?_ ?_)
    · exact Instant.le_plus (le_trans hold (Instant.plus_le_last hordinary _)) extension
    · have hx : x.2 ≤ now := Bool.eq_false_iff.mpr hle
      exact le_trans hold (Instant.plus_le_plus hordinary hnow hx _)

/-- A replacement that has changed a slot has been applied. -/
theorem Slots.applied_of_written {s : Slots} {key k : SessionKey} {expected : Version} {r : Record}
    (h : (StoreCall.swap key expected r).written? (s.apply (.swap key expected r)).1 = some k) :
    k = key ∧ s.writeOutcome key expected = .applied := by
  rw [apply_swap_outcome] at h
  cases ho : s.writeOutcome key expected with
  | applied =>
    rw [ho] at h
    cases h
    exact ⟨rfl, rfl⟩
  | conflict latest => rw [ho] at h; cases h
  | missing => rw [ho] at h; cases h

/-- **A touch that commits keeps to its ceiling, and moves the expiry on unless it was overtaken.**
    For nodes with common limits, in every run, whatever the clocks show and however long a call on
    the store takes: what a touch writes is the extended record of its session, in place of the one
    that it has found before. -/
theorem touch_commits {L : Limits} (hL : L.maxTtl.millis < 18446744073709551616) {log : ClockLog}
    {c : Cluster World} (h : Timed World.InRange (Call.Moderate L) log c) {i : Nat}
    {s : CoordinatorSettings} {key : SessionKey} {extension : Span} {made : List (Exchange World)}
    {q : Request} {next : q.Answer → Operation (Outcome Record)}
    (hp : c.calls i = some ⟨.touch s key extension, made, .ask q next⟩) {x : q.Answer} {w : World}
    (ha : c.world.Answers q x w) {k : SessionKey}
    (hw : Exchange.written? ⟨c.world, q, x, w⟩ = some k) :
    k = key ∧ ∃ now r r', readings made = [now] ∧ c.world.slots.live? key = some r ∧
      w.slots.live? key = some r' ∧ Touched L log key extension now r r' := by
  rcases Runs.touching h.leads hp with hretired | ⟨now, hread, hstage⟩
  · -- a touch that calls the store no more writes nothing
    cases q with
    | store call => exact absurd hretired id
    | _ => cases hw
  · cases hstage with
    | loading heq =>
      unfold Coordinator.loadLive Coordinator.storeCall at heq
      cases heq
      rcases x with _ | f | found
      · cases hw
      · cases hw
      · cases hw
    | swapping r seen hr hgrows heq =>
      unfold Coordinator.swap Coordinator.storeCall at heq
      cases heq
      rcases ha with ⟨rfl, rfl⟩ | ⟨hfails, -⟩
      · obtain ⟨rfl, happ⟩ := Slots.applied_of_written hw
        have hlive := hgrows.applied_onto hr happ
        have hkeeps := (h.keepsLimits hL).world _ r hlive
        have hmost : s.maxTtl = L.maxTtl := (h.allowed hp).limits.maxTtl
        refine ⟨rfl, now, r, _, hread, hlive, ?_, hkeeps.touched extension now s.node⟩
        rw [World.after, Slots.apply_swap_applied hlive rfl, Slots.live?_put, if_pos rfl, hmost]
        rfl
      · -- a call on the store that has failed has written nothing
        rcases x with _ | f | o
        · cases hw
        · cases hw
        · exact absurd rfl (hfails o)

/-! ## Schedules -/

namespace Sample

/-- How long the touches of the schedules extend a session: a week. -/
def week : Span := .ofSeconds 604800

/-- A session of five seconds is about to be prolonged by a touch that has found it. -/
def prolonging : List Action := prolonged.take 4

/-- A session is created for a week.  One touch begins a second later, and waits for the store; another
    one begins two seconds after it, and commits before the first one has found the record. -/
def overtaking : List Action :=
  [.start 0 (.create settings key .null week) (second 0), .resume 0 (second 0) false,
   .start 1 (.touch settings key week) (second 1),
   .start 2 (.touch settings key week) (second 3), .resume 2 (second 3) false,
   .resume 2 (second 3) false, .resume 1 (second 3) false]

end Sample

open Sample in
/-- A touch of a week that commits: its record lasts from the moment of its reading of the clock,
    and no longer than it may. -/
theorem sample_touch_commits : Sample.limits.maxTtl.millis < 18446744073709551616 ∧
    ∃ log c made q next x w, Timed World.InRange (Call.Moderate Sample.limits) log c ∧
      c.calls 1 = some ⟨.touch Sample.settings Sample.key Sample.week, made, .ask q next⟩ ∧
      c.world.Answers q x w ∧ Exchange.written? ⟨c.world, q, x, w⟩ = some Sample.key ∧
      ∃ now r r', readings made = [now] ∧ c.world.slots.live? Sample.key = some r ∧
        w.slots.live? Sample.key = some r' ∧
        Touched Sample.limits log Sample.key Sample.week now r r' := by
  have hL : limits.maxTtl.millis < 18446744073709551616 := by decide +kernel
  have h : Timed World.InRange (Call.Moderate limits) _ _ :=
    Timed.follow (fun _ hw => hw) prolonging .idle (by decide +kernel) (by decide +kernel)
  obtain ⟨made, written, next, hp⟩ : ∃ made written next,
      ((Cluster.idle {}).follow prolonging).calls 1 =
        some ⟨.touch settings key week, made, .ask (.store (.swap key (version 1) written)) next⟩ :=
    ⟨_, _, _, rfl⟩
  have ha := World.answers_obey (second 1) false ((Cluster.idle {}).follow prolonging).world
    (.store (.swap key (version 1) written))
  exact ⟨hL, _, _, _, _, _, _, _, h, hp, ha, rfl, (touch_commits hL h hp ha rfl).2⟩

open Sample in
/-- **A touch that is overtaken may shorten its session**: all clocks agree, and none goes back or shows
    a leap second, and yet the record that the touch writes expires before the one that it replaces. -/
theorem touch_shortens : Sample.limits.maxTtl.millis < 18446744073709551616 ∧
    ∃ log c made q next x w r r', Timed World.InRange (Call.Moderate Sample.limits) log c ∧
      log.Pairwise (fun e later => e.2 ≤ later.2) ∧ (∀ e ∈ log, e.2.inLeapSecond = false) ∧
      c.calls 1 = some ⟨.touch Sample.settings Sample.key Sample.week, made, .ask q next⟩ ∧
      c.world.Answers q x w ∧ Exchange.written? ⟨c.world, q, x, w⟩ = some Sample.key ∧
      c.world.slots.live? Sample.key = some r ∧ w.slots.live? Sample.key = some r' ∧
      ¬ r.expiresAt ≤ r'.expiresAt := by
  have h : Timed World.InRange (Call.Moderate limits) _ _ :=
    Timed.follow (fun _ hw => hw) overtaking .idle (by decide +kernel) (by decide +kernel)
  have hlog : [] ++ (Cluster.idle {}).clockLog overtaking =
      [(.create settings key .null week, second 0), (.touch settings key week, second 1),
        (.touch settings key week, second 3)] := rfl
  rw [hlog] at h
  -- the ceiling of the first touch lies two seconds before the expiry that it replaces
  obtain ⟨made, written, next, hp, hwritten⟩ : ∃ made written next,
      ((Cluster.idle {}).follow overtaking).calls 1 =
        some ⟨.touch settings key week, made, .ask (.store (.swap key (version 2) written)) next⟩ ∧
      written.expiresAt = (second 1).plus limits.maxTtl := ⟨_, _, _, rfl, by decide +kernel⟩
  obtain ⟨r, hr, hexpiry⟩ : ∃ r, ((Cluster.idle {}).follow overtaking).world.slots.live? key = some r ∧
      r.expiresAt = (second 3).plus limits.maxTtl := ⟨_, rfl, by decide +kernel⟩
  have ha := World.answers_obey (second 3) false ((Cluster.idle {}).follow overtaking).world
    (.store (.swap key (version 2) written))
  refine ⟨by decide +kernel, _, _, _, _, _, _, _, r, written, h, by decide +kernel,
    by decide +kernel, hp, ha, rfl, hr, rfl, ?_⟩
  rw [hwritten, hexpiry]
  decide +kernel

end SessionCluster
