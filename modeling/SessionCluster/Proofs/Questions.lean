/-
  Questions — the calls of a node on its backends, under the pact of its members.

  Each rule is stated for a steady assertion.  A call that does nothing of consequence leaves the
  assertion as it is, whatever it answers and however long it takes: so the rule of such a call
  asks only that what follows is safe wherever the assertion holds.  Three calls are of
  consequence, and their rules say more:

  * `Safe.callStore`, `Safe.storeAnswer` — a call on the store fails or comes too late, or takes
    effect in one poll;
  * `Safe.announce` — the announcement that a write owes, after which the poll is allowed again;
  * `Safe.cached`, `Safe.fill` — what a cache in memory finds, and what is put into it in time.
-/
import SessionCluster.Proofs.Conduct
import SessionCluster.Proofs.Copies

namespace SessionCluster

namespace Safe

open Activity Node

variable {T : Terms} {seat : Option Nat} {A D : Turn Node Work → Prop} {α : Type}

/-! ## Waiting -/

section

variable (hA : T.Steady seat A) (hD : ∀ g, A g → D g) {g : Turn Node Work} (hg : A g)

include hA hD hg

/-- A wait for whatever it may be. -/
theorem waitFor {Q : α → Turn Node Work → Prop} {r : Node → Bool} {d : Option Nat}
    {p : Activity Node Work α} (h : ∀ g, A g → Safe T.pact seat D Q p g) :
    Safe T.pact seat D Q (.wait r d p) g := by
  refine wait (hA.at_ hg).2 ?_
  intro h' hh
  have hlater := hA.later hg hh
  exact ⟨hD _ hlater, fun _ => h _ hlater⟩

/-- A wait for nothing. -/
theorem never {Q : α → Turn Node Work → Prop} :
    Safe T.pact seat D Q (.never : Activity Node Work α) g :=
  ⟨(hA.at_ hg).2, fun _ hh => hD _ (hA.later hg hh)⟩

/-- A wait of a number of ticks. -/
theorem sleepTicks {Q : Unit → Turn Node Work → Prop} {n : Nat} (h : ∀ g, A g → Q () g) :
    Safe T.pact seat D Q (Activity.sleepTicks n) g := by
  show Safe T.pact seat D Q (sleepUntil (g.tick + n)) g
  exact waitFor hA hD hg h

/-- The delay of a backend. -/
theorem delay {Q : Unit → Turn Node Work → Prop} {millis : Nat} (h : ∀ g, A g → Q () g) :
    Safe T.pact seat D Q (Node.delay millis) g := by
  unfold Node.delay
  split
  · exact h g hg
  · exact sleepTicks hA hD hg h

omit hD in
/-- An exchange with the key-value server. -/
theorem exchange {Q : α → Turn Node Work → Prop} (e : KeyValue.Exchange α)
    (h : ∀ a g, A g → Q a g) : Safe T.pact seat D Q (Node.exchange e) g := by
  unfold Node.exchange
  induction e generalizing g with
  | done a => exact h a g hg
  | ask c next ih =>
    refine ofProgram (step ?_)
    exact ih _ (hA.quiet hg ⟨fun hn => ⟨hn.memory, hn.direct⟩, rfl, rfl, rfl, fun _ hx => hx⟩)

/-! ## The cache -/

/-- A call on the cache. -/
theorem callCache {q : CacheCall} {Q : Except CacheFault q.Outcome → Turn Node Work → Prop}
    (hmemory : ∀ g c, A g → g.state.cache = .memory c →
      Q (c.call g.tick q).2
        (g.reach { g.state with cache := .memory (c.call g.tick q).1 }))
    (habsent : ∀ g, A g → Q (withoutCache q) g)
    (hserver : T.kind = .server → ∀ x g, A g → Q x g) :
    Safe T.pact seat D Q (Node.callCache q) g := by
  have hkind := (hA.at_ hg).kind
  unfold Node.callCache
  refine bind (Activity.read _) (read ?_)
  cases hcache : g.state.cache with
  | absent => exact habsent g hg
  | server space =>
    refine exchange hA hg _ (hserver ?_)
    rw [← hkind, cacheKind, hcache]
  | memory c =>
    have hmem : T.kind = .memory := by rw [← hkind, cacheKind, hcache]
    refine bind (Node.delay c.latency) (delay hA hD hg fun g hg => stepAt ?_)
    -- it is still a cache in memory
    cases hcache' : g.state.cache with
    | absent =>
      have hkind' := (hA.at_ hg).kind
      rw [cacheKind, hcache', hmem] at hkind'
      cases hkind'
    | server space =>
      have hkind' := (hA.at_ hg).kind
      rw [cacheKind, hcache', hmem] at hkind'
      cases hkind'
    | memory c' =>
      have hcall := hmemory g c' hg hcache'
      simpa only [onMemoryCache, hcache'] using hcall

/-- Removing a key from the cache. -/
theorem remove {key : SessionKey} {Q : Except CacheFault Unit → Turn Node Work → Prop}
    (h : ∀ x g, A g → Q x g) : Safe T.pact seat D Q (Node.callCache (.remove key)) g := by
  refine callCache (q := .remove key) hA hD hg ?_ (fun g hg => h _ g hg) (fun _ => h)
  intro g c hg hcache
  refine h _ _ (hA.quiet hg ⟨fun hn => ⟨hn.memory, hn.direct⟩, ?_, rfl, rfl, ?_⟩)
  · simp only [cacheKind, hcache]
  · intro x hx
    simp only [Node.copies, memoryCache, hcache]
    exact c.call_remove_mem g.tick key x hx

/-- Looking a key up: what a cache in memory finds is a copy that is still served. -/
theorem lookUp {key : SessionKey}
    {Q : Except CacheFault (Option Record) → Turn Node Work → Prop}
    (h : ∀ x g, A g →
      (T.kind ≠ .server → ∀ r, x = .ok (some r) →
        ∃ c : CacheEntry, (key, c) ∈ g.state.copies ∧ c.record = r ∧
          MemoryCache.nanosAt g.tick < c.freshUntil) →
      Q x g) :
    Safe T.pact seat D Q (Node.callCache (.get key)) g := by
  refine callCache (q := .get key) hA hD hg ?_ ?_
    (fun hs x g hg => h x g hg fun hns => absurd hs hns)
  · intro g c hg hcache
    obtain ⟨hsub, hhit⟩ := c.call_get g.tick key
    refine h _ _ (hA.quiet hg ⟨fun hn => ⟨hn.memory, hn.direct⟩, ?_, rfl, rfl, ?_⟩)
      fun _ r hr => hhit r hr
    · simp only [cacheKind, hcache]
    · intro x hx
      simp only [Node.copies, memoryCache, hcache]
      exact hsub x hx
  · intro g hg
    refine h _ g hg fun _ r hr => ?_
    cases hr

/-! ## The store -/

/-- A call on the store: it fails, or it takes effect in one poll. -/
theorem callStore {c : StoreCall} {Q : Except StoreFault c.Outcome → Turn Node Work → Prop}
    (hfail : ∀ g, A g → Q (.error MemoryStore.fault) g)
    (htake : ∀ g store, A g → g.state.store = .memory store → store.unavailable = false →
      Q (.ok (store.slots.apply c).1)
        (g.reach { g.state with store := .memory (store.call c).1 })) :
    Safe T.pact seat D Q (Node.callStore c) g := by
  obtain ⟨store, hstore⟩ := (hA.at_ hg).plain.memory
  unfold Node.callStore
  refine bind (Activity.read _) (read ?_)
  simp only [hstore]
  refine bind _ (delay hA hD hg fun g hg => step ?_)
  obtain ⟨store, hstore⟩ := (hA.at_ hg).plain.memory
  simp only [onMemoryStore, hstore]
  cases hu : store.unavailable with
  | true =>
    rw [MemoryStore.call_of_unavailable hu]
    have hsame : { g.state with store := .memory store } = g.state := by rw [← hstore]
    rw [hsame]
    exact hfail g hg
  | false =>
    rw [MemoryStore.call_answer hu]
    exact htake g store hg hstore hu

/-- What the node answers to a call on the store: it fails or comes too late and nothing has
    happened, or it takes effect. -/
theorem storeAnswer {storeLimit cacheLimit : Span} {c : StoreCall}
    {Q : Option (Except StoreFault c.Outcome) → Turn Node Work → Prop}
    (hfail : ∀ g x, A g → (∀ o, x ≠ some (.ok o)) → Q x g)
    (htake : ∀ g store, A g → g.state.store = .memory store → store.unavailable = false →
      Q (some (.ok (store.slots.apply c).1))
        (g.reach { g.state with store := .memory (store.call c).1 })) :
    Safe T.pact seat D Q (Node.answer storeLimit cacheLimit (.store c)) g := by
  have hnone : takeInterposition c.kind g.state = (g.state, none) := by
    unfold takeInterposition
    rw [(hA.at_ hg).plain.direct]
    rfl
  refine within (bind (Activity.step _) (step ?_))
  simp only [hnone]
  refine callStore hA ?_ hg (fun g hg _ => hfail g _ hg nofun) ?_
  · exact fun g hg _ => ⟨hfail g none hg nofun, hD g hg⟩
  · exact fun g store hg hstore hu _ => htake g store hg hstore hu

/-! ## Questions without consequence -/

/-- What the node answers to a look into the cache: nothing, or what a cache in memory has found
    that is still served. -/
theorem cached {storeLimit cacheLimit : Span} {key : SessionKey}
    {Q : Option Record → Turn Node Work → Prop}
    (h : ∀ x g, A g →
      (T.kind ≠ .server → ∀ r, x = some r →
        ∃ c : CacheEntry, (key, c) ∈ g.state.copies ∧ c.record = r ∧
          MemoryCache.nanosAt g.tick < c.freshUntil) →
      Q x g) :
    Safe T.pact seat D Q (Node.answer storeLimit cacheLimit (.cached key)) g := by
  refine bind (Activity.within cacheLimit (Node.callCache (.get key))) (within ?_)
  refine lookUp hA ?_ hg ?_
  · intro g hg _
    refine ⟨h _ g hg fun _ r hr => ?_, hD g hg⟩
    cases hr
  · intro x g hg hfound _
    cases x with
    | error f =>
      refine h _ g hg fun _ r hr => ?_
      cases hr
    | ok found =>
      refine h _ g hg fun hs r hr => hfound hs r ?_
      rw [hr]

/-- Removing a key from the cache, within a limit. -/
theorem forgetWithin {limit : Span} {key : SessionKey} {Q : Unit → Turn Node Work → Prop}
    (h : ∀ g, A g → Q () g) : Safe T.pact seat D Q (Node.forgetWithin limit key) g := by
  refine bind (Activity.within limit (Node.callCache (.remove key))) (within ?_)
  refine remove hA ?_ hg ?_
  · exact fun g hg _ => ⟨h g hg, hD g hg⟩
  · exact fun x g hg _ => h g hg

omit hg in
/-- Waiting for the outcomes of events. -/
theorem warningsBy (deadline : Nat) (pending : PendingAcks) :
    ∀ {Q : List Warning → Turn Node Work → Prop} {g}, A g → (∀ ws g, A g → Q ws g) →
      Safe T.pact seat D Q (Node.warningsBy deadline pending) g := by
  induction pending with
  | nil => exact fun hg h => h [] _ hg
  | cons p pending ih =>
    intro Q g hg h
    refine waitFor hA hD hg fun g hg => ?_
    exact bind (Node.warningsBy deadline pending) (ih hg fun ws g hg => h _ g hg)

/-- **A question of no consequence** leaves everything as it is. -/
theorem plainAnswer {storeLimit cacheLimit : Span} {q : Request} (hq : q.isPlain = true)
    {Q : q.Answer → Turn Node Work → Prop} (h : ∀ x g, A g → Q x g) :
    Safe T.pact seat D Q (Node.answer storeLimit cacheLimit q) g := by
  cases q with
  | store c => cases hq
  | announce earlier own => cases hq
  | cache r freshFor => cases hq
  | now => exact h _ g hg
  | cached key => exact cached hA hD hg fun x g hg _ => h x g hg
  | beginForget key =>
    have hticket : A (g.reach (forgetTicket g.state).1) :=
      hA.quiet hg ⟨fun hn => ⟨hn.memory, hn.direct⟩, rfl, rfl, rfl, fun _ hx => hx⟩
    exact h _ _ (hA.spawn hticket rfl)
  | forgotten ticket => exact waitFor hA hD hg fun g hg => h () g hg
  | forget key => exact forgetWithin hA hD hg fun g hg => h () g hg
  | warnings pending => exact warningsBy hA hD _ pending hg fun ws g hg => h ws g hg

/-- Putting a copy into the cache: it is put there in time, or not at all. -/
theorem fill {storeLimit cacheLimit : Span} {r : Record} {freshFor : Span}
    {Q : Unit → Turn Node Work → Prop}
    (hnot : ∀ g', A g' → g'.tick ≤ g.tick + cacheLimit.ticks → Q () g')
    (hfill : ∀ g' c, A g' → g'.tick ≤ g.tick + cacheLimit.ticks → g'.state.cache = .memory c →
      Q () (g'.reach { g'.state with cache := .memory (c.plant g'.tick r freshFor) })) :
    Safe T.pact seat D Q (Node.answer storeLimit cacheLimit (.cache r freshFor)) g := by
  refine bind (Activity.within cacheLimit (Node.callCache (.set r freshFor))) (within ?_)
  refine callCache hA ?_ hg ?_ ?_ ?_
  · exact fun g hg hle => ⟨hnot g hg hle, hD g hg⟩
  · intro g' c hg' hcache hle
    cases hu : c.unavailable with
    | true =>
      rw [MemoryCache.call_unavailable hu]
      have hsame : { g'.state with cache := .memory c } = g'.state := by rw [← hcache]
      rw [hsame]
      exact hnot g' hg' hle
    | false =>
      rw [MemoryCache.call_set hu]
      exact hfill g' c hg' hle hcache
  · exact fun g hg hle => hnot g hg hle
  · exact fun _ x g hg hle => hnot g hg hle

end

/-! ## After a write -/

/-- Giving changes identities. -/
theorem identifyAll (cs : List Change) :
    ∀ {Q : List Event → Turn Node Work → Prop} {g : Turn Node Work},
      (∀ es : List Event, es.map Event.change = cs → Q es
        (g.reach { g.state with eventCount := g.state.eventCount + es.length })) →
      Safe T.pact seat D Q (Node.identifyAll cs) g := by
  induction cs with
  | nil => exact fun h => h [] rfl
  | cons c cs ih =>
    intro Q g h
    refine bind (Node.identifyAll cs) (ih ?_)
    intro es hes
    have hcons := h (⟨eventIdOf (g.state.eventCount + 1), c⟩ :: es) (by rw [List.map_cons, hes])
    rwa [List.length_cons, Nat.add_comm es.length, ← Nat.add_assoc] at hcons

/-- Handing events in. -/
theorem enqueue (es : List Event) :
    ∀ {Q : PendingAcks → Turn Node Work → Prop} {g : Turn Node Work},
      (∀ acks, Q acks
        (g.reach { g.state with lanes := (g.state.lanes.offerAll es).1 })) →
      Safe T.pact seat D Q (Node.enqueue es) g := by
  induction es with
  | nil => exact fun h => h _
  | cons v es ih =>
    intro Q g h
    exact bind (Node.enqueue es) (ih fun acks => h _)

/-- A write that was applied, with its events handed in, is allowed. -/
theorem written {g : Turn Node Work} {store : MemoryStore} {c : StoreCall} {es : List Event}
    (hg : T.At seat g) (hstore : g.state.store = .memory store)
    (hu : store.unavailable = false)
    (hw : (c.written? (store.slots.apply c).1).isSome = true)
    (ha : c.Announced (es.map Event.change)) (count : Nat) :
    T.At seat (g.reach { g.state with
      store := .memory (store.call c).1
      lanes := (g.state.lanes.offerAll es).1
      eventCount := count }) := by
  -- the write raises the slot of its key, through the versions of the events
  obtain ⟨key, hkey⟩ := Option.isSome_iff_exists.mp hw
  obtain ⟨slot, hput, hslot⟩ := ha.effect hkey
  -- the lanes take some of the events in, in their order
  obtain ⟨hcount, kept, hkept, hevents⟩ := g.state.lanes.offerAll_events es
  have hslots : g.state.pipeline.slots = store.slots := by
    simp only [Node.pipeline, memoryStore, hstore]
  have hmove : Pipeline.Move seat g.state.pipeline _ := .write (hslots ▸ hslot) (hkept.map _)
  refine hg.reach ⟨fun hn => ⟨⟨_, rfl⟩, hn.direct⟩, rfl, rfl, ?_, fun x hx => .inl hx⟩
  -- as a step of the pipeline: slot and queues, and nothing of what was sent
  have heq : ({ g.state with
      store := .memory (store.call c).1
      lanes := (g.state.lanes.offerAll es).1
      eventCount := count } : Node).pipeline =
    { g.state.pipeline with
      slots := g.state.pipeline.slots.put key slot
      queued := fun i => g.state.pipeline.queued i ++
        kept.filter (·.partition g.state.pipeline.lanes = i) } := by
    refine Pipeline.ext ?_ hcount (funext hevents) rfl rfl
    show (store.call c).1.slots = g.state.pipeline.slots.put key slot
    rw [MemoryStore.call_slots hu, hput, hslots]
  rw [heq]
  exact .single hmove

/-- **The announcement that a write owes**: after it, the poll is allowed again. -/
theorem announce {storeLimit cacheLimit : Span} {earlier : List Change} {own : Change}
    {Q : PendingAcks × Event → Turn Node Work → Prop} {g : Turn Node Work} {store : MemoryStore}
    {c : StoreCall} (hg : T.At seat g) (hstore : g.state.store = .memory store)
    (hu : store.unavailable = false)
    (hw : (c.written? (store.slots.apply c).1).isSome = true)
    (ha : c.Announced (earlier ++ [own])) (h : ∀ x g, T.At seat g → Q x g) :
    Safe T.pact seat D Q (Node.answer storeLimit cacheLimit (.announce earlier own))
      (g.reach { g.state with store := .memory (store.call c).1 }) := by
  refine bind (Node.identifyAll earlier) (identifyAll earlier ?_)
  intro es hes
  refine bind (Activity.step _) (step ?_)
  refine bind (Node.enqueue _) (enqueue _ ?_)
  intro acks
  have hall : c.Announced
      ((es ++ [(⟨eventIdOf (g.state.eventCount + es.length + 1), own⟩ : Event)]).map
        Event.change) := by
    rw [List.map_append, hes]
    exact ha
  have hdone := written hg hstore hu hw hall (g.state.eventCount + es.length + 1)
  exact h (acks, _) (g.reach _) hdone

/-! ## Orderly operations -/

/-- **The walk through an operation that announces its writes.** -/
theorem orderly {storeLimit cacheLimit : Span} {p : Operation α} {owed : Option StoreCall}
    (hp : Orderly owed p) {Q : α → Turn Node Work → Prop} (hQ : ∀ a g, T.At seat g → Q a g) :
    ∀ g, T.At seat g →
      match owed with
      | none =>
        Safe T.pact seat (fun _ => True) Q (.ofProgram (Node.answer storeLimit cacheLimit) p) g
      | some c =>
        ∀ store, g.state.store = .memory store → store.unavailable = false →
          (c.written? (store.slots.apply c).1).isSome = true →
          Safe T.pact seat (fun _ => True) Q (.ofProgram (Node.answer storeLimit cacheLimit) p)
            (g.reach { g.state with store := .memory (store.call c).1 }) := by
  induction hp with
  | done a => exact fun g hg => hQ a g hg
  | plain hq _ ih =>
    intro g hg
    exact ofProgram (plainAnswer Terms.at_steady (fun _ _ => trivial) hg hq fun x g hg => ih x g hg)
  | @store c next hnone hsome ih ih' =>
    intro g hg
    refine ofProgram (storeAnswer Terms.at_steady (fun _ _ => trivial) hg ?_ ?_)
    · -- failed or too late: nothing has happened
      intro g x hg hx
      exact ih x (fun o ho => absurd ho (hx o)) g hg
    · intro g store hg hstore hu
      have hkeyed := hg.keyed
      have hslots : g.state.pipeline.slots = store.slots := by
        simp only [Node.pipeline, memoryStore, hstore]
      rw [hslots] at hkeyed
      cases hw : c.written? (store.slots.apply c).1 with
      | none =>
        rw [MemoryStore.call_of_unwritten hu hw]
        have hsame : { g.state with store := .memory store } = g.state := by rw [← hstore]
        rw [hsame]
        refine ih _ ?_ g hg
        intro o ho
        cases ho
        exact ⟨hkeyed.foreseen c, hw⟩
      | some k =>
        have hsome' : (c.written? (store.slots.apply c).1).isSome = true := by rw [hw]; rfl
        exact ih' _ hsome' g hg store hstore hu hsome'
  | announce ha _ ih =>
    intro g hg store hstore hu hw
    exact ofProgram (announce hg hstore hu hw ha fun x g hg => ih x g hg)

end Safe

end SessionCluster
