/-
  CacheUnseen — the cache is invisible to callers.

  Two runs make the same calls, one after the other, on stores that hold the same.  One of them has a
  cache: looks into it and copies may fail at any call, copies are served for as long as time likes,
  and only removals have to take effect.  The other has none, and every look misses.

  What a call answers alone is DETERMINED by the reading of the clock and the content of the store,
  whatever sound state of the cache it is made in (`Call.Determined`).  And whatever happens
  without a cache may also happen with one that is of no use (`uncached_finishes`), so the same
  holds of the run that has none.

  * `exists_determined` — the answer of each call is determined;
  * `cache_unseen` — both runs come to an end, with the same answers and the same content.
-/
import SessionCluster.Node.Backends
import SessionCluster.Proofs.Schedules
import SessionCluster.Proofs.Sequences

namespace SessionCluster

/-! ## Answers -/

namespace Call

/-- What a call answers, but for how its changes were delivered: of a sweep, how many records it has
    removed and how many it has skipped. -/
def Result : Call → Type
  | .create .. | .update .. | .touch .. => Except SessionError (Record × Change)
  | .delete .. => Except SessionError (Unit × Change)
  | .get .. => Except SessionError Record
  | .sweep _ => Except SessionError (Nat × Nat)

/-- What is in the answer of a call. -/
def result : (c : Call) → c.Answer → c.Result
  | .create .., a | .update .., a | .touch .., a | .delete .., a => said a
  | .get .., a => a
  | .sweep _, a => a.map fun report => (report.evicted, report.skipped)

/-- A call, and what it has answered. -/
abbrev Reply := (c : Call) × c.Result

end Call

namespace Solo

/-! ## Without a cache -/

/-- What questions can be answered where there is no cache. -/
def Uncached (now : Instant) (w : Solo) : (q : Request) → q.Answer → Solo → Prop
  | .cached key, x, w' => Node.withoutCache (.get key) = .ok x ∧ w' = w
  | .cache _ _, _, w' => w' = w
  | .forgotten _, _, w' => w' = w
  | .forget _, _, w' => w' = w
  | .now, x, w' => w.Answers now .now x w'
  | .store c, x, w' => w.Answers now (.store c) x w'
  | .announce earlier own, x, w' => w.Answers now (.announce earlier own) x w'
  | .beginForget key, x, w' => w.Answers now (.beginForget key) x w'
  | .warnings pending, x, w' => w.Answers now (.warnings pending) x w'

/-- Every request has an answer in which the cache keeps nothing. -/
theorem exists_answer_uncached (now : Instant) (w : Solo) (q : Request) :
    ∃ x w₁, w.Uncached now q x w₁ := by
  cases q with
  | cached key => exact ⟨none, w, rfl, rfl⟩
  | cache r freshFor => exact ⟨(), w, rfl⟩
  | forgotten ticket => exact ⟨(), w, rfl⟩
  | forget key => exact ⟨(), w, rfl⟩
  | now => exact w.exists_answer now .now
  | store c => exact w.exists_answer now (.store c)
  | announce earlier own => exact w.exists_answer now (.announce earlier own)
  | beginForget key => exact w.exists_answer now (.beginForget key)
  | warnings pending => exact w.exists_answer now (.warnings pending)

variable {α : Type} {now : Instant} {w w' v v' : Solo} {key : SessionKey}

/-- What is answered without a cache may be answered with one: looks fail, and copies are not kept. -/
theorem Uncached.answers {q : Request} {x : q.Answer} (h : v.Uncached now q x v')
    (cache : MemoryCache) :
    ∃ cache', Answers now { v with cache := cache } q x { v' with cache := cache' } := by
  cases q with
  -- without a cache there is no copy, and a look that fails finds none either
  | cached key =>
    obtain ⟨hx, rfl⟩ := h
    have hnone : x = none := (Except.ok.inj hx).symm
    exact ⟨cache, .inl ⟨hnone, rfl⟩⟩
  -- a copy need not be kept
  | cache r freshFor =>
    obtain rfl := h
    exact ⟨cache, .inl rfl⟩
  -- a removal takes effect, whatever the cache holds
  | forgotten ticket =>
    obtain rfl := h
    cases hkey : v'.leaving[ticket]? with
    | none =>
      refine ⟨cache, 0, ?_⟩
      simp only [hkey]
    | some key =>
      refine ⟨(cache.call 0 (.remove key)).1, 0, ?_⟩
      simp only [hkey]
      rfl
  | forget key =>
    obtain rfl := h
    exact ⟨(cache.call 0 (.remove key)).1, 0, rfl⟩
  -- everything else does not touch the cache
  | now =>
    obtain ⟨rfl, rfl⟩ := h
    exact ⟨cache, rfl, rfl⟩
  | store c =>
    obtain ⟨rfl, rfl⟩ := h
    exact ⟨cache, rfl, rfl⟩
  | announce earlier own =>
    obtain ⟨hown, rfl⟩ := h
    exact ⟨cache, hown, rfl⟩
  | beginForget key =>
    obtain ⟨rfl, rfl⟩ := h
    exact ⟨cache, rfl, rfl⟩
  | warnings pending =>
    obtain rfl := h
    exact ⟨cache, rfl⟩

/-- **Whatever happens without a cache may happen with one**, in whatever state it is. -/
theorem uncached_finishes {p : Operation α} {a : α} (h : Finishes (Uncached now) v p a v') :
    ∀ cache, ∃ cache',
      Finishes (Answers now) { v with cache := cache } p a { v' with cache := cache' } := by
  induction h with
  | done => exact fun cache => ⟨cache, .done⟩
  | ask hx _ ih =>
    intro cache
    obtain ⟨cache₁, hx₁⟩ := Uncached.answers hx cache
    obtain ⟨cache', h'⟩ := ih cache₁
    exact ⟨cache', .ask hx₁ h'⟩

/-- A state that holds what a sound one holds, with its cache, is sound. -/
theorem Sound.transfer (hw : w.Sound) (hsame : w.slots = v.slots) :
    Sound { v with cache := w.cache } where
  keyed := hsame ▸ hw.keyed
  distinct := hsame ▸ hw.distinct
  available := hw.available
  current := hsame ▸ hw.current

end Solo

/-! ## What determines an answer -/

/-- A call that is made alone over a content comes to a verdict, whatever is in the cache. -/
def Call.Determined (c : Call) (now : Instant) (s : Slots) (x : Verdict c.Result) : Prop :=
  ∀ w : Solo, w.Sound → w.slots = s →
    Comes (Solo.Answers now) (fun a w' => w.Settled x (c.result a) w') c.operation w

namespace Solo

/-- A creation over any content, with any versions, comes to a verdict. -/
theorem exists_verdict_create (s : CoordinatorSettings) (key : SessionKey) (payload : Json)
    (ttl : Span) (now : Instant) (slots : Slots) :
    ∃ x, ∀ w : Solo, w.Sound → w.slots = slots →
      Comes (Answers now) (fun a w' => w.Settled x (said a) w')
        (Coordinator.createFrom s key payload ttl now Coordinator.createRounds none) w := by
  by_cases hlow : ∀ v, slots.get? key = some (.tombstone v) → v.number < 18446744073709551615
  · refine ⟨.created slots key now (OneStep.create s.node key payload ttl now slots),
      fun w hw hslots => ?_⟩
    subst hslots
    exact comes_createFrom hw hlow
  · -- the only content that is not covered by the one-step specification
    simp only [not_forall] at hlow
    obtain ⟨v, hslot, hv⟩ := hlow
    refine ⟨.refused (.alreadyExists key) slots, fun w hw hslots => ?_⟩
    subst hslots
    exact comes_createBelow hw hslot (Nat.le_of_not_lt hv) Coordinator.createRounds none (.inl rfl)

/-- **The answer of a call is determined** by the clock and the content of the store. -/
theorem exists_determined (c : Call) (now : Instant) (s : Slots) : ∃ x, c.Determined now s x := by
  cases c with
  | create cs key payload ttl =>
    -- what is refused is refused by any world with this content
    have hrefused (e : SessionError) (w : Solo) (hw : w.Sound) (hslots : w.slots = s) :
        w.Settled (.refused e s) (said (.error e : Outcome Record)) w := by
      subst hslots
      exact settled_refused hw e
    unfold Call.Determined
    show ∃ x, ∀ w : Solo, w.Sound → w.slots = s →
      Comes _ (fun a w' => w.Settled x (said a) w') (Coordinator.create cs key payload ttl) w
    unfold Coordinator.create
    cases Coordinator.checkLifetime cs "ttl_ms" ttl with
    -- refused for its lifetime, or for its payload, or determined by what stands under the key
    | error e => exact ⟨.refused e s, hrefused e⟩
    | ok u =>
      cases Coordinator.checkPayload cs payload with
      | error e => exact ⟨.refused e s, hrefused e⟩
      | ok u =>
        obtain ⟨x, hx⟩ := exists_verdict_create cs key payload ttl now s
        exact ⟨x, fun w hw hslots => comes_now (hx w hw hslots)⟩
  | get cs key =>
    refine ⟨⟨(OneStep.get key now s).1, s, []⟩, fun w hw hslots => ?_⟩
    subst hslots
    exact comes_get hw
  | update cs key expected payload =>
    refine ⟨.update cs key expected payload now s, fun w hw hslots => ?_⟩
    subst hslots
    exact comes_update hw expected payload
  | delete cs key expected =>
    refine ⟨.delete key expected now s, fun w hw hslots => ?_⟩
    subst hslots
    exact comes_delete hw expected
  | touch cs key extendBy =>
    refine ⟨.touch cs key extendBy now s, fun w hw hslots => ?_⟩
    subst hslots
    exact comes_touch hw extendBy
  | sweep ss =>
    -- a sweep ends as many of the expired as all its batches hold
    let most := ss.batchSize * max 1 ss.maxBatches
    refine ⟨⟨.ok ((s.expired now most).length, 0), s.swept now most,
      (s.expired now most).map (·.expiry now)⟩, fun w hw hslots => ?_⟩
    subst hslots
    refine (comes_sweep hw).imp ?_
    rintro a w' ⟨hsettled, degraded, rfl⟩
    refine ⟨?_, hsettled.slots, hsettled.told, hsettled.sound⟩
    show Except.ok (0 + _, 0) = Except.ok (_, 0)
    rw [Nat.zero_add]

/-- A call is answered alike with a cache and without: it leaves the same content, and announces
    the same. -/
theorem same_answer {w w' v v' : Solo} (hw : w.Sound) (hsame : w.slots = v.slots) {c : Call}
    {a b : c.Answer} (hcached : Finishes (Answers now) w c.operation a w')
    (huncached : Finishes (Uncached now) v c.operation b v') :
    c.result a = c.result b ∧ w'.Sound ∧ w'.slots = v'.slots ∧
      ∃ told, w'.announced = w.announced ++ told ∧ v'.announced = v.announced ++ told := by
  obtain ⟨x, hx⟩ := exists_determined c now w.slots
  obtain ⟨cache', hlike⟩ := uncached_finishes huncached w.cache
  have hsettled := hcached.comes (hx w hw rfl)
  have hsettled' := hlike.comes (hx _ (hw.transfer hsame) hsame.symm)
  have hslots : w'.slots = v'.slots := hsettled.slots.trans hsettled'.slots.symm
  exact ⟨hsettled.said.trans hsettled'.said.symm, hsettled.sound, hslots, x.told, hsettled.told,
    hsettled'.told⟩

/-! ## Sequences of calls -/

/-- Calls are made one after the other, each at a reading of the clock, and answer. -/
inductive Series (S : Instant → Surroundings Solo) :
    Solo → List (Instant × Call) → List Call.Reply → Solo → Prop where
  | done {w : Solo} : Series S w [] [] w
  | call {w w₁ w₂ : Solo} {now : Instant} {c : Call} {a : c.Answer} {rest : List (Instant × Call)}
      {replies : List Call.Reply} (h : Finishes (S now) w c.operation a w₁)
      (hrest : Series S w₁ rest replies w₂) :
      Series S w ((now, c) :: rest) (⟨c, c.result a⟩ :: replies) w₂

/-- Every sequence of calls comes to an end, where every question is answered. -/
theorem exists_series {S : Instant → Surroundings Solo}
    (hS : ∀ now w q, ∃ x w₁, S now w q x w₁) (steps : List (Instant × Call)) :
    ∀ w : Solo, ∃ replies w', Series S w steps replies w' := by
  induction steps with
  | nil => exact fun w => ⟨[], w, .done⟩
  | cons x rest ih =>
    intro w
    obtain ⟨a, w₁, h⟩ := exists_finishes (hS x.1) x.2.operation w
    obtain ⟨replies, w₂, hrest⟩ := ih w₁
    exact ⟨_, w₂, .call h hrest⟩

/-- A sequence of calls is answered alike with a cache and without. -/
theorem same_replies {steps : List (Instant × Call)} {w w' : Solo} {replies : List Call.Reply}
    (hcached : Series Answers w steps replies w') :
    ∀ {v v' : Solo} {replies' : List Call.Reply}, w.Sound → w.slots = v.slots →
      Series Uncached v steps replies' v' → replies = replies' ∧ w'.slots = v'.slots ∧
        ∃ told, w'.announced = w.announced ++ told ∧ v'.announced = v.announced ++ told := by
  induction hcached with
  | done =>
    rintro v _ _ _ hsame ⟨⟩
    exact ⟨rfl, hsame, [], (List.append_nil _).symm, (List.append_nil _).symm⟩
  | call hfirst _ ih =>
    intro v v' replies' hw hsame huncached
    cases huncached with
    | call hfirst' hrest' =>
      obtain ⟨hreply, hsound, hslots, told, htold, htold'⟩ := same_answer hw hsame hfirst hfirst'
      obtain ⟨hreplies, hend, later, hlater, hlater'⟩ := ih hsound hslots hrest'
      refine ⟨by rw [hreply, hreplies], hend, told ++ later, ?_, ?_⟩
      · rw [hlater, htold, List.append_assoc]
      · rw [hlater', htold', List.append_assoc]

/-- **The cache is invisible to callers.**  Calls are made one after the other, at any readings of
    the clock, from a sound state on; and the same calls are made without a cache, from a state
    with the same content.  Either way all of them answer; and they answer the same, leave the same
    content and announce the same changes. -/
theorem cache_unseen {w v : Solo} (hw : w.Sound) (hsame : w.slots = v.slots)
    (steps : List (Instant × Call)) :
    (∃ replies w', Series Answers w steps replies w') ∧
      (∃ replies v', Series Uncached v steps replies v') ∧
      ∀ replies w' replies' v', Series Answers w steps replies w' →
        Series Uncached v steps replies' v' → replies = replies' ∧ w'.slots = v'.slots ∧
          ∃ told, w'.announced = w.announced ++ told ∧ v'.announced = v.announced ++ told :=
  ⟨exists_series exists_answer steps w, exists_series exists_answer_uncached steps v,
    fun _ _ _ _ hcached huncached => same_replies hcached hw hsame huncached⟩

end Solo

namespace Sample

/-- A session that expires at second five. -/
def session : Record := ⟨key, .null, version 1, settings.node, second 0, second 0, second 5⟩

/-- A store that holds the session, and a cache that serves a copy for a second. -/
def warm : Solo where
  slots := ({} : Slots).put key (.live session)
  cache := { entries := [(key, ⟨session, 1000000000⟩)] }

/-- The sample begins well: its versions are low, and its records are under their own keys. -/
theorem warm_sound : warm.Sound where
  keyed := by
    intro k r hr
    rw [warm, Slots.live?_put] at hr
    by_cases hk : k = key
    · rw [if_pos hk] at hr
      cases hr
      exact hk.symm
    · rw [if_neg hk] at hr
      cases hr
  distinct := by
    show [key].Nodup
    simp
  available := rfl
  current := by
    intro x hx _
    obtain rfl := List.mem_singleton.mp hx
    rfl

/-- The session is read, while the clock goes forth and back, replaced, read, swept away and created
    anew. -/
def readings : List (Instant × Call) :=
  [(second 2, .get settings key), (second 6, .get settings key), (second 1, .get settings key),
   (second 1, .update settings key (version 1) (.bool true)), (second 1, .get settings key),
   (second 6, .sweep {}), (second 6, .get settings key),
   (second 6, .create settings key .null (.ofMillis 1000)), (second 6, .get settings key)]

end Sample

/-- Nobody hears of the copy. -/
theorem sample_cache_unseen : ∃ replies w' v',
    Solo.Series Solo.Answers Sample.warm Sample.readings replies w' ∧
      Solo.Series Solo.Uncached { Sample.warm with cache := {} } Sample.readings replies v' := by
  obtain ⟨⟨replies, w', h⟩, ⟨replies', v', h'⟩, hall⟩ :=
    Solo.cache_unseen Sample.warm_sound (v := { Sample.warm with cache := {} }) rfl Sample.readings
  obtain ⟨rfl, _⟩ := hall replies w' replies' v' h h'
  exact ⟨replies, w', v', h, h'⟩

end SessionCluster
