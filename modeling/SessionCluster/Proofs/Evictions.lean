/-
  Evictions — what sweeps remove while others write.

  A sweep removes a record at the version that it has listed, and does not look at the expiry again.
  Between the listing and the removal the key may have been touched, updated, removed and created
  again, by calls whose clocks show anything.  Versions never return, so what still has the listed
  version is the listed record, and a key that has moved on is skipped.

  * `Evicts` — an exchange that removes a record which was listed before, and had expired by then;
  * `Spares` — what is left of a sweep evicts only so, whatever others do while it waits; it is
    defined along the operation, so the sweep is walked through once;
  * `evicted_as_listed` — in every run of sweeps and calls over one store, each record that a sweep
    removes had expired by the reading of that sweep and is the one that it listed; and a sweep
    that answers has accounted for all that it listed.
-/
import SessionCluster.Proofs.Calls
import SessionCluster.Proofs.Freshness
import SessionCluster.Proofs.Schedules
import SessionCluster.Proofs.Sweeps

namespace SessionCluster

/-! ## Listings -/

section

variable {σ : Type}

/-- The records that an exchange has listed, if it is a scan that was answered. -/
def Exchange.listed : Exchange σ → List Record
  | ⟨_, .store (.scan _ _), some (.ok batch), _⟩ => batch
  | _ => []

/-- Only a call on the store writes. -/
theorem Exchange.isAwait_of_written {e : Exchange σ} {key : SessionKey} (h : e.written? = some key) :
    e.question.isAwait = true := by
  unfold Exchange.written? at h
  split at h
  · rfl
  · cases h

/-- All records that were listed in the course of some exchanges. -/
def listings (es : List (Exchange σ)) : List Record := es.flatMap Exchange.listed

@[simp] theorem listings_append (es fs : List (Exchange σ)) :
    listings (es ++ fs) = listings es ++ listings fs :=
  List.flatMap_append

theorem listings_singleton (e : Exchange σ) : listings [e] = e.listed := List.flatMap_singleton ..

end

/-! ## Contents of runs -/

/-- Contents in which each record is stored under its own key, and each key once. -/
structure Slots.Tidy (s : Slots) : Prop where
  keyed : s.Keyed
  distinct : (s.entries.map Prod.fst).Nodup

/-- In every run, the content is tidy. -/
theorem Runs.tidy {c : Cluster World} (h : Runs (.idle {}) c) : c.world.slots.Tidy := by
  refine ⟨fun key r hl => ?_, ?_⟩
  · have hchronicle := h.invariant.1 key
    rw [Slots.live?_eq_some.mp hl] at hchronicle
    exact hchronicle.key_of_live
  · induction h with
    | refl => exact List.nodup_nil
    | tail hc hstep ih =>
      obtain ⟨hin, call, es, hs⟩ := hstep
      cases Runs.lawful hc hin hs with
      | quiet _ hslots =>
        rw [hslots]
        exact ih
      | wrote _ _ hslots =>
        rw [hslots]
        exact Slots.nodup_put ih _ _

/-- What a scan lists is stored under its key, and has expired. -/
theorem Slots.Tidy.of_expired {s : Slots} (h : s.Tidy) {now : Instant} {limit : Nat} {r : Record}
    (hr : r ∈ s.expired now limit) : s.live? r.key = some r ∧ r.isExpiredAt now = true := by
  rw [Slots.expired_eq] at hr
  exact (Slots.mem_allExpired h.keyed h.distinct).mp (List.mem_of_mem_take hr)

/-! ## Evictions -/

/-- An exchange that ends a record of a key: it was listed before, had expired by the reading of the
    sweep, and is what the key holds. -/
structure Evicts (now : Instant) (past : List (Exchange World)) (e : Exchange World)
    (key : SessionKey) (r : Record) : Prop where
  /-- A scan of this sweep has listed the record. -/
  listed : r ∈ listings past
  expired : r.isExpiredAt now = true
  /-- It is the record that the store holds, at the version that was listed. -/
  live : e.before.slots.live? key = some r
  ended : e.after.slots = e.before.slots.put key (.tombstone r.tombstoneVersion)

/-- A record that a sweep has listed, and that was stored in a content which has grown since. -/
structure Listed (now : Instant) (past : List (Exchange World)) (s : Slots) (r : Record) : Prop where
  listed : r ∈ listings past
  expired : r.isExpiredAt now = true
  stored : ∃ s₀ : Slots, s₀.live? r.key = some r ∧ s₀.Grows s

theorem Listed.mono {now : Instant} {past : List (Exchange World)} {s s' : Slots} {r : Record}
    (h : Listed now past s r) (hg : s.Grows s') (es : List (Exchange World)) :
    Listed now (past ++ es) s' r := by
  obtain ⟨s₀, hl, hg₀⟩ := h.stored
  refine ⟨?_, h.expired, s₀, hl, hg₀.trans hg⟩
  rw [listings_append]
  exact List.mem_append_left _ h.listed

/-- **What a removal meets**: the key has moved on, or it holds the record that was listed. -/
theorem Listed.removal {now : Instant} {past : List (Exchange World)} {s s' : Slots} {r : Record}
    (h : Listed now past s r) (hg : s.Grows s') :
    s'.apply (.remove r.key r.version) = (.missing, s', none) ∨
      (∃ cur, s'.apply (.remove r.key r.version) = (.conflict cur, s', none)) ∨
      s'.live? r.key = some r ∧ s'.apply (.remove r.key r.version) =
        (.applied, s'.put r.key (.tombstone r.tombstoneVersion), some (.removed r.key)) := by
  cases hl : s'.live? r.key with
  | none => exact .inl (Slots.apply_remove_missing hl)
  | some cur =>
    by_cases hv : cur.version = r.version
    · -- the version has not returned
      obtain ⟨s₀, hl₀, hg₀⟩ := h.stored
      obtain rfl : cur = r := (hg₀.trans hg).same_record hl₀ hl hv
      exact .inr (.inr ⟨rfl, Slots.apply_remove_applied hl rfl⟩)
    · exact .inr (.inl ⟨cur, Slots.apply_remove_conflict hl hv⟩)

/-- An exchange of a sweep after its look at the clock: it writes nothing, or evicts. -/
structure Fair (now : Instant) (past : List (Exchange World)) (e : Exchange World) : Prop where
  unread : e.reading? = none
  evicts : ∀ key, e.written? = some key → ∃ r, Evicts now past e key r

/-- What is left of a sweep that has read `now` and asked `past`: whatever others do while it waits,
    it evicts only what it has listed, and ends as `post` says. -/
def Spares {α : Type} (now : Instant) (post : List (Exchange World) → α → Prop) :
    Operation α → List (Exchange World) → World → Prop
  | .done a, past, _ => post past a
  | .ask q next, past, w =>
    ∀ w₁, w.slots.Grows w₁.slots → w₁.slots.Tidy →
      ∀ x w₂, w₁.Answers q x w₂ → w₁.slots.Grows w₂.slots →
        Fair now past ⟨w₁, q, x, w₂⟩ ∧ Spares now post (next x) (past ++ [⟨w₁, q, x, w₂⟩]) w₂

/-! ## The walk through a sweep -/

/-- A sweep that answers has removed or skipped all that it listed, and counted what it removed. -/
def Balanced (es : List (Exchange World)) (answer : Except SessionError SweepReport) : Prop :=
  ∀ report, answer = .ok report →
    report.evicted = (writes es).length ∧
      report.evicted + report.skipped = (listings es).length

section

variable {now : Instant} {s : SweeperSettings} {past : List (Exchange World)} {w : World}

theorem Spares.mono {α : Type} {post : List (Exchange World) → α → Prop} {p : Operation α} {w' : World}
    (h : Spares now post p past w) (hg : w.slots.Grows w'.slots) : Spares now post p past w' := by
  cases p with
  | done a => exact h
  | ask q next => exact fun w₁ hg₁ => h w₁ (hg.trans hg₁)

/-- A call of a sweep on the store: it takes effect, or its failure ends the sweep. -/
theorem Spares.storeCall {c : StoreCall}
    {next : c.Outcome → Operation (Except SessionError SweepReport)}
    (h : ∀ w₁ : World, w.slots.Grows w₁.slots → w₁.slots.Tidy →
      w.slots.Grows (w₁.after c).slots →
      (∀ key, (w₁.effect c).written? = some key → ∃ r, Evicts now past (w₁.effect c) key r) ∧
        Spares now Balanced (next (w₁.slots.apply c).1) (past ++ [w₁.effect c]) (w₁.after c)) :
    Spares now Balanced (Sweeper.storeCall s c next) past w := by
  intro w₁ hg htidy x w₂ ha hg₂
  rcases ha with ⟨rfl, rfl⟩ | ⟨hx, rfl⟩
  · obtain ⟨hevicts, hrest⟩ := h w₁ hg htidy (hg.trans hg₂)
    exact ⟨⟨rfl, hevicts⟩, hrest⟩
  · rcases x with _ | f | o
    · exact ⟨⟨rfl, nofun⟩, nofun⟩
    · exact ⟨⟨rfl, nofun⟩, nofun⟩
    · exact absurd rfl (hx o)

/-- Anything but a call on the store leaves the content as it is, and lists nothing. -/
theorem Spares.aside {q : Request} {next : q.Answer → Operation (Except SessionError SweepReport)}
    (hstore : ∀ c, q ≠ .store c) (hnow : q ≠ .now)
    (h : ∀ x (e : Exchange World) (w' : World), writes [e] = [] → listings [e] = [] →
      w.slots.Grows w'.slots → Spares now Balanced (next x) (past ++ [e]) w') :
    Spares now Balanced (.ask q next) past w := by
  intro w₁ hg _ x w₂ ha hg₂
  -- such an exchange is fair: it neither reads the clock nor writes nor lists
  have hall (hread : Exchange.reading? ⟨w₁, q, x, w₂⟩ = none)
      (hwrite : Exchange.written? ⟨w₁, q, x, w₂⟩ = none)
      (hlist : Exchange.listed ⟨w₁, q, x, w₂⟩ = []) :
      Fair now past ⟨w₁, q, x, w₂⟩ ∧ Spares now Balanced (next x) (past ++ [⟨w₁, q, x, w₂⟩]) w₂ := by
    refine ⟨⟨hread, fun key hkey => ?_⟩, h x _ w₂ (writes_of_none hwrite) ?_ (hg.trans hg₂)⟩
    · rw [hwrite] at hkey
      cases hkey
    · rw [listings_singleton, hlist]
  -- the calls on the store and the clock are left out; for the rest, nothing has changed
  cases q with
  | now => exact absurd rfl hnow
  | store c => exact absurd rfl (hstore c)
  | cached key =>
    obtain ⟨_, rfl⟩ := ha
    exact hall rfl rfl rfl
  | announce earlier own =>
    obtain ⟨_, rfl⟩ := ha
    exact hall rfl rfl rfl
  | _ =>
    obtain rfl := ha
    exact hall rfl rfl rfl

/-- What a sweep has counted, with so many records of a batch removed and so many left. -/
structure Tallied (past : List (Exchange World)) (p : Sweeper.Progress) (removed left : Nat) :
    Prop where
  evicted : p.evicted + removed = (writes past).length
  listed : p.evicted + removed + p.skipped + left = (listings past).length

namespace Tallied

variable {p : Sweeper.Progress} {removed left : Nat} {es : List (Exchange World)}

/-- A record of the batch is skipped. -/
theorem skip (h : Tallied past p removed (left + 1)) (hwrites : writes es = [])
    (hlistings : listings es = []) :
    Tallied (past ++ es) { p with skipped := p.skipped + 1 } removed left := by
  have hlisted := h.listed
  constructor
  · rw [writes_append, hwrites, List.append_nil]
    exact h.evicted
  · rw [listings_append, hlistings, List.append_nil]
    show p.evicted + removed + (p.skipped + 1) + left = _
    omega

/-- A record of the batch is removed. -/
theorem evict {key : SessionKey} (h : Tallied past p removed (left + 1)) (hwrites : writes es = [key])
    (hlistings : listings es = []) (pending : PendingAcks) :
    Tallied (past ++ es) { p with pending := pending } (removed + 1) left := by
  have hevicted := h.evicted
  have hlisted := h.listed
  constructor
  · rw [writes_append, hwrites, List.length_append, ← hevicted]
    rfl
  · rw [listings_append, hlistings, List.append_nil]
    show p.evicted + (removed + 1) + p.skipped + left = _
    omega

/-- A batch is listed. -/
theorem list (h : Tallied past p 0 0) (hwrites : writes es = []) :
    Tallied (past ++ es) p 0 (listings es).length := by
  have hlisted := h.listed
  constructor
  · rw [writes_append, hwrites, List.append_nil]
    exact h.evicted
  · rw [listings_append, List.length_append]
    omega

/-- The end of a batch. -/
theorem close (h : Tallied past p removed 0) :
    Tallied past { p with evicted := p.evicted + removed } 0 0 := ⟨h.evicted, h.listed⟩

end Tallied

/-- The end of a sweep. -/
theorem report_spares {p : Sweeper.Progress} (h : Tallied past p 0 0) :
    Spares now Balanced (Sweeper.report p) past w := by
  refine .aside (by simp) (by simp) fun ws e w' hwrites hlistings _ => ?_
  intro report heq
  obtain rfl := Except.ok.inj heq
  rw [writes_append, hwrites, listings_append, hlistings, List.append_nil, List.append_nil]
  exact ⟨h.evicted, h.listed⟩

/-- Removing a batch.  Whatever became of a key meanwhile, only the record that was listed has the
    listed version. -/
theorem evict_spares {next : Nat → Sweeper.Progress → Operation (Except SessionError SweepReport)}
    (hnext : ∀ removed p past w, Tallied past p removed 0 →
      Spares now Balanced (next removed p) past w) (batch : List Record) :
    ∀ removed p past (w : World), (∀ r ∈ batch, Listed now past w.slots r) →
      Tallied past p removed batch.length →
      Spares now Balanced (Sweeper.evict s now next batch removed p) past w := by
  induction batch with
  | nil => exact fun removed p past w _ ht => hnext removed p past w ht
  | cons r batch ih =>
    intro removed p past w hlisted ht
    have hr : Listed now past w.slots r := hlisted r (List.mem_cons_self ..)
    have hothers {w' : World} (es : List (Exchange World)) (hg : w.slots.Grows w'.slots) :
        ∀ r' ∈ batch, Listed now (past ++ es) w'.slots r' :=
      fun r' hr' => (hlisted r' (List.mem_cons_of_mem _ hr')).mono hg es
    refine .storeCall fun w₁ hg _ hg₂ => ?_
    have hunlisted : listings [w₁.effect (.remove r.key r.version)] = [] := rfl
    -- the key has moved on: nothing is removed
    have hskip {o : WriteOutcome} (ho : (StoreCall.remove r.key r.version).written? o = none)
        (happ : w₁.slots.apply (.remove r.key r.version) = (o, w₁.slots, none)) :
        (∀ key, (w₁.effect (.remove r.key r.version)).written? = some key →
          ∃ r', Evicts now past (w₁.effect (.remove r.key r.version)) key r') ∧
        Spares now Balanced
          (Sweeper.evict s now next batch removed { p with skipped := p.skipped + 1 })
          (past ++ [w₁.effect (.remove r.key r.version)])
          (w₁.after (.remove r.key r.version)) := by
      have hunwritten := (written?_effect happ).trans ho
      refine ⟨fun key hkey => ?_, ?_⟩
      · rw [hunwritten] at hkey
        cases hkey
      · exact ih _ _ _ _ (hothers _ hg₂) (ht.skip (writes_of_none hunwritten) hunlisted)
    rcases hr.removal hg with happ | ⟨cur, happ⟩ | ⟨hl, happ⟩
    · have hrest := hskip rfl happ
      rw [happ]
      exact hrest
    · have hrest := hskip rfl happ
      rw [happ]
      exact hrest
    · have hwritten : (w₁.effect (.remove r.key r.version)).written? = some r.key :=
        written?_effect happ
      refine ⟨fun key hkey => ?_, ?_⟩
      · rw [hwritten] at hkey
        obtain rfl := Option.some.inj hkey
        exact ⟨r, hr.listed, hr.expired, hl, after_slots happ⟩
      · rw [happ]
        refine .aside (by simp) (by simp) fun told e w₂ hwrites hlistings hg₃ => ?_
        refine .aside (by simp) (by simp) fun u f w₃ hwrites' hlistings' hg₄ => ?_
        rw [List.append_assoc, List.append_assoc]
        have hone : writes ([w₁.effect (.remove r.key r.version)] ++ ([e] ++ [f])) = [r.key] := by
          rw [writes_append, writes_append, writes_of_some hwritten, hwrites, hwrites']
          rfl
        refine ih _ _ _ _ (hothers _ (hg₂.trans (hg₃.trans hg₄))) (ht.evict hone ?_ _)
        rw [listings_append, listings_append, hunlisted, hlistings, hlistings']
        rfl

/-- Batch after batch. -/
theorem batches_spares (s : SweeperSettings) (now : Instant) (n : Nat) :
    ∀ p past (w : World), Tallied past p 0 0 →
      Spares now Balanced (Sweeper.batches s now n p) past w := by
  induction n with
  | zero => exact fun p past w ht => report_spares ht
  | succ n ih =>
    intro p past w ht
    refine .storeCall fun w₁ hg htidy hg₂ => ⟨nofun, ?_⟩
    have hlistings : listings [w₁.effect (.scan now s.batchSize)] = w₁.slots.expired now s.batchSize :=
      listings_singleton _
    refine evict_spares (fun removed p past w ht => ?_) _ _ _ _ _ (fun r hr => ?_) ?_
    · simp only
      split
      · exact report_spares ht.close
      · exact ih _ _ _ ht.close
    · obtain ⟨hl, he⟩ := htidy.of_expired hr
      refine ⟨?_, he, w₁.slots, hl, .refl _⟩
      rw [listings_append, hlistings]
      exact List.mem_append_right _ hr
    · have hunwritten : writes [w₁.effect (.scan now s.batchSize)] = [] := writes_of_none rfl
      have hbatch := ht.list hunwritten
      rw [hlistings] at hbatch
      exact hbatch

end

/-! ## Clusters -/

/-- What a sweep has asked so far: it looked at the clock once, and evicted only what it had listed. -/
structure Spared (now : Instant) (made : List (Exchange World)) : Prop where
  reading : readings made = [now]
  evicts : ∀ before e after, made = before ++ e :: after → ∀ key, e.written? = some key →
    ∃ r, Evicts now before e key r

section

variable {now : Instant} {made es : List (Exchange World)} {w w' : World}

theorem Spared.first (now : Instant) (w : World) : Spared now [⟨w, .now, now, w⟩] := by
  refine ⟨rfl, fun before e after heq key hkey => ?_⟩
  have hmem : e ∈ [(⟨w, .now, now, w⟩ : Exchange World)] := by
    rw [heq]
    exact List.mem_append_right _ (List.mem_cons_self ..)
  rw [List.mem_singleton.mp hmem] at hkey
  cases hkey

/-- A fair exchange more, and all that was written was listed still. -/
theorem Spared.snoc {e : Exchange World} (h : Spared now made) (he : Fair now made e) :
    Spared now (made ++ [e]) := by
  refine ⟨?_, fun before e' after heq key hkey => ?_⟩
  · rw [readings_append, h.reading, readings, List.filterMap_cons_none he.unread]
    rfl
  · rcases List.eq_nil_or_concat after with rfl | ⟨after, last, rfl⟩
    · obtain ⟨rfl, hlast⟩ := List.append_inj' heq rfl
      cases hlast
      exact he.evicts key hkey
    · rw [List.concat_eq_append, ← List.cons_append, ← List.append_assoc] at heq
      exact h.evicts before e' after (List.append_inj' heq rfl).1 key hkey

/-- What takes no time leaves the content as it is. -/
theorem World.Answers.slots_eq {q : Request} {x : q.Answer} (hq : q.isAwait = false)
    (ha : w.Answers q x w') : w'.slots = w.slots := by
  cases q with
  | announce earlier own =>
    obtain ⟨_, rfl⟩ := ha
    rfl
  | now | beginForget =>
    obtain rfl := ha
    rfl
  | _ => cases hq

/-- What a sweep asks in a poll after its wait. -/
theorem Spares.settles {α : Type} {post : List (Exchange World) → α → Prop} {p p' : Operation α}
    (hs : Settles World.Answers w p es w' p') :
    ∀ {made : List (Exchange World)}, w.slots.Tidy → Spared now made → Spares now post p made w →
      Spared now (made ++ es) ∧ Spares now post p' (made ++ es) w' := by
  induction hs with
  | rest =>
    intro made _ hspared hspares
    rw [List.append_nil]
    exact ⟨hspared, hspares⟩
  | @ask w q next x w₁ es w₂ p hq ha _ ih =>
    intro made htidy hspared hspares
    have hsame := ha.slots_eq hq
    have hg : w.slots.Grows w₁.slots := by
      rw [hsame]
      exact .refl _
    obtain ⟨hfair, hrest⟩ := hspares w (.refl _) htidy x w₁ ha hg
    have hlater := ih (by rwa [hsame]) (hspared.snoc hfair) hrest
    rwa [List.append_assoc] at hlater

end

/-- **Every sweep spares** what it has not listed, all along. -/
theorem Runs.spared {c : Cluster World} (h : Runs (.idle {}) c) {i : Nat} {s : SweeperSettings}
    {made : List (Exchange World)} {rest : Operation (Except SessionError SweepReport)}
    (hp : c.calls i = some ⟨.sweep s, made, rest⟩) :
    ∃ now, Spared now made ∧ Spares now Balanced rest made c.world := by
  induction h generalizing i s made rest with
  | refl => cases hp
  | @tail c c' hc hstep ih =>
    have hc' : Runs (.idle {}) c' := hc.tail hstep
    obtain ⟨hin, call, es, hs⟩ := hstep
    have hgrows : c.world.slots.Grows c'.world.slots := (Runs.lawful hc hin hs).grows
    have htidy' : c'.world.slots.Tidy := Runs.tidy hc'
    cases hs.progressed hp with
    -- it begins with its reading of the clock, which all its batches are judged by
    | begun hset =>
      generalize c'.world = w₂ at hset ⊢
      cases hset with
      | rest hrest => cases hrest
      | @ask _ _ _ now w₁ _ _ _ _ ha hset =>
        obtain rfl : w₁ = c.world := ha
        have hbatches := batches_spares s now (max 1 s.maxBatches) {} [⟨c.world, .now, now, c.world⟩]
          c.world ⟨rfl, rfl⟩
        exact ⟨now, Spares.settles hset (Runs.tidy hc) (.first now _) hbatches⟩
    -- it goes on: the exchange is fair, and so are those it leads to
    | @resumed made q next x w₁ es p hi ha hset =>
      obtain ⟨now, hspared, hspares⟩ := ih hi
      have hsame : c'.world.slots = w₁.slots := hset.slots_eq.1
      have htidy : w₁.slots.Tidy := hsame ▸ htidy'
      have hg : c.world.slots.Grows w₁.slots := hsame ▸ hgrows
      obtain ⟨hfair, hrest⟩ := hspares c.world (.refl _) (Runs.tidy hc) x w₁ ha hg
      have hlater := Spares.settles hset htidy (hspared.snoc hfair) hrest
      rw [List.append_assoc] at hlater
      exact ⟨now, hlater⟩
    -- others act beside it: it spares still, as the store only grows
    | stayed hi =>
      obtain ⟨now, hspared, hspares⟩ := ih hi
      exact ⟨now, hspared, hspares.mono hgrows⟩

/-- **A sweep removes only what it has listed as expired.**  In every run of sweeps and calls over a
    store that was empty at first, each sweep looks at the clock once.  Each record that it removes
    is one that it has listed before and that had expired by that reading, it is what the key holds
    at the moment of the removal, and the key is left with its tombstone.  A sweep that answers has
    removed or skipped everything that it has listed, and reports what it has removed. -/
theorem evicted_as_listed {c : Cluster World} (h : Runs (.idle {}) c) {i : Nat}
    {s : SweeperSettings} {made : List (Exchange World)}
    {rest : Operation (Except SessionError SweepReport)}
    (hp : c.calls i = some ⟨.sweep s, made, rest⟩) :
    ∃ now, readings made = [now] ∧
      (∀ before e after key, made = before ++ e :: after → e.written? = some key →
        AnsweredIn World.Answers World.InRange {} c i (.sweep s) e ∧
          ∃ r, Evicts now before e key r) ∧
      ∀ report, rest = .done (.ok report) →
        report.evicted = (writes made).length ∧
          report.evicted + report.skipped = (listings made).length := by
  obtain ⟨now, hspared, hspares⟩ := h.spared hp
  refine ⟨now, hspared.reading, fun before e after key hmade hkey => ⟨?_, ?_⟩, fun report hrest => ?_⟩
  · have hmem : e ∈ made := by
      rw [hmade]
      exact List.mem_append_right _ (List.mem_cons_self ..)
    exact Leads.answered h hp hmem (Exchange.isAwait_of_written hkey)
  · exact hspared.evicts before e after hmade key hkey
  · subst hrest
    exact hspares report rfl

/-- What a sweep that has answered has asked, and its report. -/
def Progress.swept? {σ : Type} : Progress σ → Option (List (Exchange σ) × SweepReport)
  | ⟨.sweep _, made, .done (.ok report)⟩ => some (made, report)
  | _ => none

/-- The progress of a sweep that has answered. -/
theorem Progress.of_swept {σ : Type} {p : Progress σ} {made : List (Exchange σ)}
    {report : SweepReport} (h : p.swept? = some (made, report)) :
    ∃ s, p = ⟨.sweep s, made, .done (.ok report)⟩ := by
  unfold Progress.swept? at h
  split at h
  · cases h
    exact ⟨_, rfl⟩
  · cases h

namespace Sample

def other : SessionKey := ⟨"t", by decide⟩

/-- A sweep lists records one at a time.  It removes the first; the second is put into the store by a
    call whose clock is behind, listed, and replaced before its turn comes. -/
def oneByOne : SweeperSettings := { batchSize := 1 }

/-- The sweep lists a record that is replaced before its turn, and passes it over. -/
def overtakenSweep : List Action :=
  [.start 0 (.create settings other .null (.ofMillis 1000)) (second 1), .resume 0 (second 1) false,
   .start 1 (.sweep oneByOne) (second 9), .resume 1 (second 9) false, .resume 1 (second 9) false,
   .resume 1 (second 9) false,
   .start 2 (.create settings key .null (.ofMillis 1000)) (second 0), .resume 2 (second 0) false,
   .resume 1 (second 9) false,
   .start 3 (.create settings key .null (.ofMillis 1000)) (second 9), .resume 3 (second 9) false,
   .resume 3 (second 9) false, .resume 1 (second 9) false, .resume 1 (second 9) false]

theorem runs_overtakenSweep : Runs (.idle {}) ((Cluster.idle {}).follow overtakenSweep) :=
  Cluster.runs_follow overtakenSweep _ (by decide +kernel)

end Sample

/-- The sweep that was overtaken has listed two records, removed one and skipped the other. -/
theorem sample_evicted_as_listed : ∃ s made,
    ((Cluster.idle {}).follow Sample.overtakenSweep).calls 1 =
      some ⟨.sweep s, made, .done (.ok ⟨1, 1, 0⟩)⟩ ∧
    readings made = [Sample.second 9] ∧ writes made = [Sample.other] ∧ (listings made).length = 2 := by
  have hswept : ((((Cluster.idle {}).follow Sample.overtakenSweep).calls 1).bind
      Progress.swept?).map (fun x => (readings x.1, writes x.1, x.2)) =
        some ([Sample.second 9], [Sample.other], ⟨1, 1, 0⟩) := by decide +kernel
  obtain ⟨⟨made, report⟩, hbind, hfacts⟩ := Option.map_eq_some_iff.mp hswept
  obtain ⟨p, hp, hanswer⟩ := Option.bind_eq_some_iff.mp hbind
  obtain ⟨s, rfl⟩ := Progress.of_swept hanswer
  obtain ⟨hread, hwrites, hreport⟩ : readings made = [Sample.second 9] ∧
      writes made = [Sample.other] ∧ report = ⟨1, 1, 0⟩ := by
    simpa only [Prod.mk.injEq] using hfacts
  subst hreport
  obtain ⟨now, _, _, hbalanced⟩ := evicted_as_listed Sample.runs_overtakenSweep hp
  obtain ⟨_, hlisted⟩ := hbalanced _ rfl
  exact ⟨s, made, hp, hread, hwrites, hlisted.symm⟩

end SessionCluster
