/-
  Refusals — why a creation answers that a session exists.

  A creation reads the clock once, and then makes up to six calls on the store.  It gives up when it
  finds a record that has not expired, when a record is no longer the one that it meant to replace,
  and when its rounds are over.  The first is what a refusal is for.  In the two other cases
  somebody has written a record under the key since the creation began, and that record is not
  judged again: if its writer's clock had shown less than the creation has read, it may have
  expired by that reading.

  * `InTheWay` — what accounts for a refusal: a record that has not expired, or one that was written
    meanwhile by a call whose clock had shown less;
  * `refused_for_a_record` — every refusal is accounted for by what the store held at some moment
    while the creation was under way;
  * `refused_without_a_record` — a refusal while the store held nothing but expired records, though
    all clocks agree and never go back.
-/
import SessionCluster.Proofs.Calls
import SessionCluster.Proofs.Freshness
import SessionCluster.Proofs.Schedules

namespace SessionCluster

/-! ## Runs and their moments -/

/-- A run of calls over a store that was empty at first, while versions are in range: the states that
    it has passed, what the clocks have shown, and the state that it has come to. -/
inductive Passes : List (Cluster World) → List Instant → Cluster World → Prop where
  | idle : Passes [] [] (.idle {})
  | step {past : List (Cluster World)} {times : List Instant} {c c' : Cluster World} {call : Call}
      {es : List (Exchange World)} (h : Passes past times c) (hin : c.world.InRange)
      (hs : Step World.Answers c call es c') :
      Passes (past ++ [c]) (times ++ readings es) c'

theorem Passes.runs {past : List (Cluster World)} {times : List Instant} {c : Cluster World}
    (h : Passes past times c) : Runs (.idle {}) c := by
  induction h with
  | idle => exact .refl
  | step _ hin hs ih => exact ih.tail ⟨hin, _, _, hs⟩

/-! ## What is in the way -/

/-- A record that is in the way of a creation which began in a state and has read the clock since: it
    has not expired by that reading, or it was written after the creation began, and announced with
    an earlier reading. -/
structure InTheWay (start : World) (key : SessionKey) (now : Instant) (w : World) (r : Record) :
    Prop where
  live : w.slots.live? key = some r
  cause : r.isExpiredAt now = false ∨
    start.slots.versionOf key < r.version.number ∧
      ∃ change ∈ w.announced, change.key = key ∧ change.version = r.version ∧
        change.time.before now = true

/-- At a moment, a call had begun and not answered yet. -/
def UnderWay (i : Nat) (made : List (Exchange World)) (c : Cluster World) : Prop :=
  ∃ p, c.calls i = some p ∧ p.hasAnswered = false ∧ p.made <+: made

/-- At one of some moments, while a creation was under way, a record was in its way. -/
def Blocked (moments : List (Cluster World)) (i : Nat) (made : List (Exchange World))
    (start : World) (key : SessionKey) (now : Instant) : Prop :=
  ∃ c ∈ moments, UnderWay i made c ∧ ∃ r, InTheWay start key now c.world r

theorem Blocked.more {moments : List (Cluster World)} {i : Nat} {made : List (Exchange World)}
    {start : World} {key : SessionKey} {now : Instant} (h : Blocked moments i made start key now)
    (new : List (Exchange World)) (c : Cluster World) :
    Blocked (moments ++ [c]) i (made ++ new) start key now := by
  obtain ⟨c₁, hmem, ⟨p, hp, hrest, hmade⟩, hr⟩ := h
  exact ⟨c₁, List.mem_append_left _ hmem, ⟨p, hp, hrest, hmade.trans (List.prefix_append ..)⟩, hr⟩

/-! ## A creation as long as nothing is in its way -/

/-- An operation that will not answer that a session exists. -/
def Clear : Operation (Outcome Record) → Prop
  | .done a => ∀ key, a ≠ .error (.alreadyExists key)
  | .ask _ next => ∀ x, Clear (next x)

/-- What is left of a creation, as long as nothing was in its way.  After its first round it knows
    what the key holds: the tombstone that it will start above, or the expired record that it is about to
    replace, or the tombstone of that record. -/
inductive Unhindered (s : CoordinatorSettings) (key : SessionKey) (payload : Json) (ttl : Span)
    (now : Instant) (slot : Option Slot) : Operation (Outcome Record) → Prop where
  | first (n : Nat) :
      Unhindered s key payload ttl now slot (Coordinator.createFrom s key payload ttl now (n + 2) none)
  | again (n : Nat) {v : Version} (hslot : slot = some (.tombstone v)) :
      Unhindered s key payload ttl now slot
        (Coordinator.createFrom s key payload ttl now (n + 1) (some v))
  | replace (n : Nat) {e r : Record} {next : WriteOutcome → Operation (Outcome Record)}
      (hslot : slot = some (.live e) ∨ slot = some (.tombstone e.tombstoneVersion))
      (happlied : Clear (next .applied))
      (hmissing : next .missing =
        Coordinator.createFrom s key payload ttl now (n + 1) (some e.tombstoneVersion)) :
      Unhindered s key payload ttl now slot (Coordinator.storeCall s (.swap key e.version r) next)
  | clear {p : Operation (Outcome Record)} (h : Clear p) : Unhindered s key payload ttl now slot p

section

variable {s : CoordinatorSettings} {key : SessionKey} {payload : Json} {ttl : Span} {now : Instant}
  {w w₁ w₂ : World} {es : List (Exchange World)} {p p' : Operation (Outcome Record)}

theorem Clear.commit (key : SessionKey) (value : Record) (earlier : List Change) (own : Change) :
    Clear (Coordinator.commit key value earlier own) := by
  rintro ⟨pending, event⟩ ticket u warnings key
  exact nofun

theorem Settles.clear (h : Settles World.Answers w p es w₂ p') : Clear p → Clear p' := by
  induction h with
  | rest => exact id
  | ask _ _ _ ih => exact fun hp => ih (hp _)

theorem clear_ofStore (f : StoreFault) :
    Clear (.done (.error (.ofStore f)) : Operation (Outcome Record)) := by
  intro key h
  cases f <;> cases h

/-- A poll that begins with the answer of the store: the operation has ended in a failure, or the call
    took effect. -/
theorem poll_storeCall {c : StoreCall} {next : c.Outcome → Operation (Outcome Record)}
    {q : Request} {next' : q.Answer → Operation (Outcome Record)} {x : q.Answer}
    (heq : Coordinator.storeCall s c next = .ask q next') (ha : w.Answers q x w₁)
    (hs : Settles World.Answers w₁ (next' x) es w₂ p') :
    Clear p' ∨ Settles World.Answers (w.after c) (next (w.slots.apply c).1) es w₂ p' := by
  unfold Coordinator.storeCall at heq
  cases heq
  rcases ha with ⟨rfl, rfl⟩ | ⟨hx, rfl⟩
  · exact .inr hs
  · left
    rcases x with _ | f | o
    · exact hs.clear (clear_ofStore _)
    · exact hs.clear (clear_ofStore _)
    · exact absurd rfl (hx o)

section

variable {q : Request} {next : q.Answer → Operation (Outcome Record)} {x : q.Answer}
  (hlow : w.slots.versionOf key < 18446744073709551614) (ha : w.Answers q x w₁)
  (hs : Settles World.Answers w₁ (next x) es w₂ p')

include ha hs

/-- After the first insertion the creation knows what the key holds, or something is in its way. -/
theorem poll_first {n : Nat}
    (hp : Coordinator.createFrom s key payload ttl now (n + 2) none = .ask q next) :
    (∃ r, w.slots.live? key = some r ∧ r.isExpiredAt now = false) ∨
      Unhindered s key payload ttl now (w₂.slots.get? key) p' := by
  unfold Coordinator.createFrom at hp
  rcases poll_storeCall hp ha hs with hclear | hgo
  · exact .inr (.clear hclear)
  let r := Coordinator.fresh s key payload ttl now none
  cases hslot : w.slots.get? key with
  | none =>
    rw [Slots.apply_insert_unused (r := r) hslot] at hgo
    exact .inr (.clear (hgo.clear (Clear.commit _ _ _ _)))
  | some slot =>
    cases slot with
    | tombstone v =>
      by_cases hbelow : r.version ≤ v
      · -- it will start above this tombstone
        have happ := Slots.apply_insert_below (r := r) hslot hbelow
        rw [happ] at hgo
        obtain ⟨rfl, rfl⟩ := hgo.of_rest rfl
        rw [after_slots happ]
        exact .inr (.again n hslot)
      · rw [Slots.apply_insert_above (r := r) hslot hbelow] at hgo
        exact .inr (.clear (hgo.clear (Clear.commit _ _ _ _)))
    | live e =>
      have hl : w.slots.live? key = some e := Slots.live?_eq_some.mpr hslot
      have happ := Slots.apply_insert_live (r := r) hl
      cases he : e.isExpiredAt now with
      | false => exact .inl ⟨e, hl, he⟩
      | true =>
        rw [happ] at hgo
        simp only [he] at hgo
        rw [if_neg nofun] at hgo
        obtain ⟨rfl, rfl⟩ := hgo.of_rest rfl
        rw [after_slots happ]
        exact .inr (.replace n (.inl hslot) (Clear.commit _ _ _ _) rfl)

include hlow in
/-- Above a tombstone that is still there, a record is inserted. -/
theorem poll_again {n : Nat} {v : Version} (hslot : w.slots.get? key = some (.tombstone v))
    (hp : Coordinator.createFrom s key payload ttl now (n + 1) (some v) = .ask q next) :
    Clear p' := by
  unfold Coordinator.createFrom at hp
  rcases poll_storeCall hp ha hs with hclear | hgo
  · exact hclear
  have hnext : v.next.number = v.number + 1 := by
    rw [Slots.versionOf_of_get hslot] at hlow
    exact Version.next_number (Nat.lt_succ_of_lt hlow)
  have habove : ¬ (Coordinator.fresh s key payload ttl now (some v)).version ≤ v := by
    show ¬ v.next.number ≤ v.number
    omega
  rw [Slots.apply_insert_above hslot habove] at hgo
  exact hgo.clear (Clear.commit _ _ _ _)

/-- An expired record that is still there is replaced, and where it is not its tombstone is known. -/
theorem poll_replace {n : Nat} {e r : Record} {next' : WriteOutcome → Operation (Outcome Record)}
    (hslot : w.slots.get? key = some (.live e) ∨
      w.slots.get? key = some (.tombstone e.tombstoneVersion))
    (happlied : Clear (next' .applied))
    (hmissing : next' .missing =
      Coordinator.createFrom s key payload ttl now (n + 1) (some e.tombstoneVersion))
    (hp : Coordinator.storeCall s (.swap key e.version r) next' = .ask q next) :
    Unhindered s key payload ttl now (w₂.slots.get? key) p' := by
  rcases poll_storeCall hp ha hs with hclear | hgo
  · exact .clear hclear
  rcases hslot with hslot | hslot
  · have hl : w.slots.live? key = some e := Slots.live?_eq_some.mpr hslot
    rw [Slots.apply_swap_applied hl rfl] at hgo
    exact .clear (hgo.clear happlied)
  · have hl : w.slots.live? key = none := Slots.live?_eq_none.mpr (.inr ⟨_, hslot⟩)
    have happ : w.slots.apply (.swap key e.version r) = (.missing, w.slots, none) :=
      Slots.apply_swap_missing hl
    rw [happ] at hgo
    change Settles _ _ (next' .missing) _ _ _ at hgo
    rw [hmissing] at hgo
    obtain ⟨rfl, rfl⟩ := hgo.of_rest rfl
    rw [after_slots happ]
    exact .again n hslot

include hlow in
/-- **A poll of a creation** that nothing has been in the way of: a record that has not expired is in
    its way now, or the creation goes on unhindered. -/
theorem Unhindered.poll (h : Unhindered s key payload ttl now (w.slots.get? key) p) (hp : p = .ask q next) :
    (∃ r, w.slots.live? key = some r ∧ r.isExpiredAt now = false) ∨
      Unhindered s key payload ttl now (w₂.slots.get? key) p' := by
  cases h with
  | first n => exact poll_first ha hs hp
  | again n hslot => exact .inr (.clear (poll_again hlow ha hs hslot hp))
  | replace n hslot happlied hmissing =>
    exact .inr (poll_replace ha hs hslot happlied hmissing hp)
  | clear h =>
    subst hp
    exact .inr (.clear (hs.clear (h x)))

end

/-- **What others do to the key** while a creation waits: nothing that hinders it, or a record has
    appeared above what the key held. -/
theorem Unhindered.meanwhile {call : Call} (h : Unhindered s key payload ttl now (w.slots.get? key) p)
    (hlawful : Lawful call w es w₂) :
    Unhindered s key payload ttl now (w₂.slots.get? key) p ∨
      ∃ r, w₂.slots.live? key = some r ∧ w.slots.versionOf key < r.version.number := by
  cases hlawful with
  | quiet _ hslots =>
    rw [hslots]
    exact .inl h
  | @wrote k new cs _ hnew hslots =>
    rw [hslots, Slots.get?_put]
    by_cases hk : key = k
    · subst hk
      rw [if_pos rfl]
      have hlt := hnew.numberOf_lt
      cases new with
      | live r =>
        refine .inr ⟨r, ?_, hlt⟩
        rw [Slots.live?_put, if_pos rfl]
        rfl
      | tombstone v =>
        left
        generalize w.slots.get? key = old at h hnew
        cases hnew with
        | @ended cur _ _ _ _ _ hv =>
          cases h with
          | first n => exact .first n
          | again n hslot => cases hslot
          | @replace n e r next hslot happlied hmissing =>
            rcases hslot with ⟨⟨⟩⟩ | ⟨⟨⟩⟩
            -- the tombstone of the record is the version after it
            have hv' : v.number < 18446744073709551616 := v.number_lt
            have hend : v = cur.tombstoneVersion :=
              version_eq (hv.trans (Version.next_number (by omega)).symm)
            exact .replace n (.inr (by rw [hend])) happlied hmissing
          | clear h => exact .clear h
    · rw [if_neg hk]
      exact .inl h

/-- An unhindered creation that may come to be refused has not answered. -/
theorem Unhindered.clear_or_ask {slot : Option Slot}
    (h : Unhindered s key payload ttl now slot p) : Clear p ∨ ∃ q next, p = .ask q next := by
  cases h with
  | first n => exact .inr ⟨_, _, rfl⟩
  | again n => exact .inr ⟨_, _, rfl⟩
  | replace n => exact .inr ⟨_, _, rfl⟩
  | clear h => exact .inl h

/-- A creation begins with a look at the clock, unless its arguments are refused. -/
theorem starts_unhindered (h : Settles World.Answers w (Coordinator.create s key payload ttl) es w₂ p) :
    Clear p ∨ ∃ now, w₂ = w ∧ es = [⟨w, .now, now, w⟩] ∧
      Unhindered s key payload ttl now (w.slots.get? key) p := by
  unfold Coordinator.create at h
  cases hlife : Coordinator.checkLifetime s "ttl_ms" ttl with
  | error e =>
    rw [hlife] at h
    -- refused for its lifetime: no reading of the clock, and nothing about another session
    refine .inl (h.clear fun key he => ?_)
    cases he
    cases checkLifetime_judges hlife
  | ok u =>
    cases hpayload : Coordinator.checkPayload s payload with
    | error e =>
      rw [hlife, hpayload] at h
      -- refused for its payload, likewise
      refine .inl (h.clear fun key he => ?_)
      cases he
      cases checkPayload_judges hpayload
    | ok u =>
      rw [hlife, hpayload] at h
      cases h with
      | rest hrest => cases hrest
      -- both pass: the clock is read at once, and the first of the rounds begins
      | @ask _ _ _ now _ _ _ _ _ ha hs =>
        obtain rfl := ha
        refine .inr ⟨now, ?_⟩
        cases hs with
        | rest => exact ⟨rfl, rfl, .first 1⟩
        | ask hq => cases hq

end

/-! ## Clusters -/

/-- What is known of a creation that is under way, by the moments that were passed: it will not be
    refused, or it began in a state and has read the clock since, and either something was in its
    way, or it goes on unhindered. -/
def Watched (moments : List (Cluster World)) (c : Cluster World) (i : Nat) (s : CoordinatorSettings)
    (key : SessionKey) (payload : Json) (ttl : Span) (made : List (Exchange World))
    (rest : Operation (Outcome Record)) : Prop :=
  Clear rest ∨ ∃ start now more, made = ⟨start, .now, now, start⟩ :: more ∧
    start.slots.Grows c.world.slots ∧ (now.before .last = true →
      Blocked moments i made start key now ∨
        Unhindered s key payload ttl now (c.world.slots.get? key) rest)

section

variable {past : List (Cluster World)} {times : List Instant} {c c' : Cluster World} {i : Nat}
  {s : CoordinatorSettings} {key : SessionKey} {payload : Json} {ttl : Span}
  {made : List (Exchange World)} {rest : Operation (Outcome Record)} {call : Call}
  {es : List (Exchange World)}

/-- A creation waits while another call takes a step. -/
theorem Watched.meanwhile (h : Watched past c i s key payload ttl made rest)
    (hp : c'.calls i = some ⟨.create s key payload ttl, made, rest⟩)
    (hlawful : Lawful call c.world es c'.world) (hvouched : c'.world.Vouched)
    (hkeyed : ∀ r, c'.world.slots.live? key = some r → r.key = key) :
    Watched (past ++ [c']) c' i s key payload ttl made rest := by
  rcases h with hclear | ⟨start, now, more, hmade, hgrows, h⟩
  · exact .inl hclear
  by_cases hclear : Clear rest
  · exact .inl hclear
  refine .inr ⟨start, now, more, hmade, hgrows.trans hlawful.grows, fun hlast => ?_⟩
  rcases h hlast with hblocked | hfree
  · left
    have hmore := hblocked.more [] c'
    rwa [List.append_nil] at hmore
  · rcases hfree.meanwhile hlawful with hfree' | ⟨r, hl, hlt⟩
    · exact .inr hfree'
    · -- a record has appeared while the creation waits
      left
      obtain ⟨q, next, rfl⟩ := hfree.clear_or_ask.resolve_left hclear
      refine ⟨c', List.mem_append_right _ (List.mem_singleton_self c'),
        ⟨_, hp, rfl, List.prefix_rfl⟩, r, hl, ?_⟩
      obtain ⟨change, hmem, hv⟩ := hvouched key r hl
      cases ht : change.time.before now with
      | false => exact .inl (hv.fresh now hlast ht)
      | true =>
        refine .inr ⟨Nat.lt_of_le_of_lt (hgrows.versionOf_le key) hlt, change, hmem, ?_,
          hv.version_eq, ht⟩
        rw [hv.key_eq, hkeyed r hl]

/-- A creation goes on. -/
theorem Watched.go_on {q : Request} {next : q.Answer → Operation (Outcome Record)}
    {x : q.Answer} {w₁ : World}
    (h : Watched (past ++ [c]) c i s key payload ttl made (.ask q next))
    (hp : c.calls i = some ⟨.create s key payload ttl, made, .ask q next⟩)
    (hin : c.world.InRange) (ha : c.world.Answers q x w₁)
    (hs : Settles World.Answers w₁ (next x) es c'.world rest)
    (hgrows' : c.world.slots.Grows c'.world.slots) :
    Watched (past ++ [c] ++ [c']) c' i s key payload ttl
      (made ++ ⟨c.world, q, x, w₁⟩ :: es) rest := by
  rcases h with hclear | ⟨start, now, more, rfl, hgrows, h⟩
  · exact .inl (hs.clear (hclear x))
  refine .inr ⟨start, now, more ++ ⟨c.world, q, x, w₁⟩ :: es, rfl, hgrows.trans hgrows',
    fun hlast => ?_⟩
  rcases h hlast with hblocked | hfree
  · exact .inl (hblocked.more _ c')
  · rcases hfree.poll (hin key) ha hs rfl with ⟨r, hl, he⟩ | hfree'
    · refine .inl ⟨c, ?_, ⟨_, hp, rfl, List.prefix_append ..⟩, r, hl, .inl he⟩
      exact List.mem_append_left _ (List.mem_append_right _ (List.mem_singleton_self c))
    · exact .inr hfree'

/-- **Every creation is watched**, all along. -/
theorem Passes.watched (h : Passes past times c)
    (hp : c.calls i = some ⟨.create s key payload ttl, made, rest⟩) :
    Watched (past ++ [c]) c i s key payload ttl made rest := by
  induction h generalizing i s key payload ttl made rest with
  | idle => cases hp
  | @step past times c c' call es h hin hs ih =>
    -- what every run keeps: the store's steps are lawful, its records announced, its keys right
    have hruns' : Runs (.idle {}) c' := h.runs.tail ⟨hin, _, _, hs⟩
    have hlawful := h.runs.lawful hin hs
    have hvouched := (Leads.vouched hruns').world
    have hkeyed (key : SessionKey) (r : Record) (hl : c'.world.slots.live? key = some r) :
        r.key = key := by
      have hchronicle := hruns'.invariant.1 key
      rw [Slots.live?_eq_some.mp hl] at hchronicle
      exact hchronicle.key_of_live
    cases hs.progressed hp with
    -- the call begins in this step: nothing can have stood in its way yet
    | begun hset =>
      rcases starts_unhindered hset with hclear | ⟨now, hsame, rfl, hfree⟩
      · exact .inl hclear
      · exact .inr ⟨c.world, now, [], rfl, hsame ▸ .refl _, fun _ => .inr (hsame ▸ hfree)⟩
    -- the call goes on, over what the step has made of the store
    | resumed hi ha hset => exact (ih hi).go_on hi hin ha hset hlawful.grows
    | stayed hi => exact (ih hi).meanwhile hp hlawful hvouched (hkeyed key)

/-- **A creation is refused for a record.**  If it answers that the session exists, then at some moment
    after its start and before its answer the store held a record of the session that had not expired
    by the creation's reading of the clock, or one that was written after the creation began and
    announced with an earlier reading.  This holds for all interleavings and all clocks, as long
    as the reading is short of the last instant. -/
theorem refused_for_a_record (h : Passes past times c)
    (hp : c.calls i =
      some ⟨.create s key payload ttl, made, .done (.error (.alreadyExists key))⟩)
    (hlast : ∀ now ∈ readings made, now.before .last = true) :
    ∃ start now more, made = ⟨start, .now, now, start⟩ :: more ∧
      Blocked past i made start key now := by
  rcases h.watched hp with hclear | ⟨start, now, more, rfl, _, hall⟩
  · exact absurd rfl (hclear key)
  · refine ⟨start, now, more, rfl, ?_⟩
    rcases hall (hlast now (List.mem_cons_self ..)) with hblocked | hfree
    · -- the call had not answered yet, so the moment is not the last one
      obtain ⟨c₁, hmem, ⟨p, hcalls, hopen, hmade⟩, hr⟩ := hblocked
      rcases List.mem_append.mp hmem with hmem | hmem
      · exact ⟨c₁, hmem, ⟨p, hcalls, hopen, hmade⟩, hr⟩
      · rw [List.mem_singleton.mp hmem, hp] at hcalls
        cases hcalls
        cases hopen
    · rcases hfree.clear_or_ask with hclear | ⟨q, next, heq⟩
      · exact absurd rfl (hclear key)
      · cases heq

end

/-! ## Schedules -/

namespace Cluster

/-- The states that a schedule passes. -/
def moments (c : Cluster World) : List Action → List (Cluster World)
  | [] => []
  | a :: rest => c :: (c.act a).moments rest

/-- What the clocks show in the course of a schedule. -/
def shown (c : Cluster World) : List Action → List Instant
  | [] => []
  | a :: rest => readings (c.asked a) ++ (c.act a).shown rest

end Cluster

/-- A schedule that can be followed is a run, with its moments and readings. -/
theorem Passes.follow (schedule : List Action) :
    ∀ {past : List (Cluster World)} {times : List Instant} {c : Cluster World},
      Passes past times c → c.admitsAll schedule = true →
        Passes (past ++ c.moments schedule) (times ++ c.shown schedule) (c.follow schedule) := by
  induction schedule with
  | nil =>
    intro past times c h _
    rw [Cluster.moments, Cluster.shown, List.append_nil, List.append_nil]
    exact h
  | cons a rest ih =>
    intro past times c h hall
    obtain ⟨hfirst, hrest⟩ := Bool.and_eq_true_iff.mp hall
    obtain ⟨ha, hin⟩ := Bool.and_eq_true_iff.mp hfirst
    obtain ⟨call, hs⟩ := Cluster.step_act ha
    have hlater := ih (h.step (World.inRange_sound hin) hs) hrest
    rw [List.append_assoc, List.append_assoc] at hlater
    exact hlater

namespace Sample

/-- A creation that lasts a second. -/
def brief : Call := .create settings key .null (.ofMillis 1000)

/-- A session is created, and while it is there another creation of it is refused. -/
def refusal : List Action :=
  [.start 0 brief (second 0), .resume 0 (second 0) false, .start 1 brief (second 0),
   .resume 1 (second 0) false]

/-- A session is created and expires.  Two creations find it expired; the one that began a second
    before the other replaces it first, by a record that has expired when the other one began. -/
def overtaken : List Action :=
  [.start 0 brief (second 0), .resume 0 (second 0) false,
   .start 1 brief (second 2), .resume 1 (second 2) false,
   .start 2 brief (second 3), .resume 2 (second 3) false,
   .resume 1 (second 3) false, .resume 2 (second 3) false]

theorem refusal_passes : Passes ((Cluster.idle {}).moments refusal) ((Cluster.idle {}).shown refusal)
    ((Cluster.idle {}).follow refusal) :=
  Passes.follow refusal .idle (by decide +kernel)

theorem overtaken_passes : Passes ((Cluster.idle {}).moments overtaken)
    ((Cluster.idle {}).shown overtaken) ((Cluster.idle {}).follow overtaken) :=
  Passes.follow overtaken .idle (by decide +kernel)

end Sample

/-- The creation that was refused found the session. -/
theorem sample_refused_for_a_record : ∃ made start now more,
    made = ⟨start, .now, now, start⟩ :: more ∧
      Blocked ((Cluster.idle {}).moments Sample.refusal) 1 made start Sample.key now := by
  obtain ⟨made, hp, hlast⟩ : ∃ made,
      ((Cluster.idle {}).follow Sample.refusal).calls 1 =
        some ⟨Sample.brief, made, .done (.error (.alreadyExists Sample.key))⟩ ∧
      ∀ now ∈ readings made, now.before .last = true := ⟨_, rfl, by decide +kernel⟩
  obtain ⟨start, now, more, hmade, hblocked⟩ :=
    refused_for_a_record Sample.refusal_passes hp hlast
  exact ⟨made, start, now, more, hmade, hblocked⟩

/-- **A creation may be refused without a record.**  All clocks agree and never go back; a creation
    answers that the session exists; and from its start to its answer the store held nothing but
    records that had expired by its reading of the clock. -/
theorem refused_without_a_record : ∃ past times c made now, Passes past times c ∧
    times.Pairwise (· ≤ ·) ∧
    c.calls 2 = some ⟨Sample.brief, made, .done (.error (.alreadyExists Sample.key))⟩ ∧
    readings made = [now] ∧
    ∀ c₁ ∈ past, (c₁.calls 2).isSome = true →
      ∀ r, c₁.world.slots.live? Sample.key = some r → r.isExpiredAt now = true := by
  refine ⟨_, _, _, _, _, Sample.overtaken_passes, by decide +kernel, rfl, rfl, ?_⟩
  have hall : (((Cluster.idle {}).moments Sample.overtaken).all fun c₁ =>
      !(c₁.calls 2).isSome ||
        (c₁.world.slots.live? Sample.key).all (·.isExpiredAt (Sample.second 3))) = true := by
    decide +kernel
  intro c₁ hc₁ hbegun r hl
  have hthis := List.all_eq_true.mp hall c₁ hc₁
  rw [hbegun, hl] at hthis
  exact hthis

end SessionCluster
