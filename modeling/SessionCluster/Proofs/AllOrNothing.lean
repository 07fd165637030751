/-
  All or nothing — what a call that changes a session has done, wherever it is dropped.

  A mutation may make several calls on the store; each may find it unavailable, may take too long,
  or may be the point at which the caller goes away.  Between its polls others may do anything.
  Still there are only two states of affairs, at every wait and at the end:

  * nothing has been done: every poll has left the node as it was and started no task, and the
    mutation, if it has finished, has failed;
  * all has been done: one poll has made one write, has handed in all events of it, and has
    started the removal from the cache as a task; every other poll has left the node as it was,
    and the mutation, if it has finished, has succeeded.

  The walk through a mutation is an induction on `CommitsOnce`: its calls on the store are quiet
  (`Wp.storeAnswer`) until one is a write, and then everything is done before the next wait
  (`Wp.commit`).

  `all_or_nothing` says it for mutations and for the requests of the gateway, whose time limit may
  drop them at any wait; what they have started by then is left to the machine.
-/
import SessionCluster.Node.Gateway
import SessionCluster.Proofs.Mutations
import SessionCluster.Proofs.Polls
import SessionCluster.Proofs.Schedules

namespace SessionCluster

/-! ## What polls may do -/

/-- A node with its store in memory, and nothing interposed. -/
structure Node.Plain (n : Node) : Prop where
  memory : ∃ store, n.store = .memory store
  direct : n.interpositions = []

/-- A poll that has left the node as it was, and has started nothing. -/
structure Poll.Quiet (e : Poll Node Work) : Prop where
  after : e.after = e.before
  started : e.started = []

/-- A poll that has made one write, has handed in the events of it, and has started the removal
    from the cache, all for one mutation. -/
structure Poll.Commits (m : Mutation) (e : Poll Node Work) : Prop where
  done : ∃ (store : MemoryStore) (c : StoreCall) (events : List Event) (key : SessionKey),
    e.before.store = .memory store ∧ store.unavailable = false ∧
    (c.written? (store.slots.apply c).1).isSome = true ∧
    m.WrittenAs c (events.map Event.change) key ∧
    e.after = { e.before with
      store := .memory (store.call c).1
      lanes := (e.before.lanes.offerAll events).1
      eventCount := e.before.eventCount + events.length
      forgetCount := e.before.forgetCount + 1 } ∧
    e.started = [.forget key e.before.forgetCount]

/-- The protocol of a mutation: quiet polls, and at most one that commits. -/
def Mutation.protocol (m : Mutation) : Protocol Node Work Bool where
  others _ n := n.Plain
  poll committed e committed' :=
    e.Quiet ∧ committed' = committed ∨ committed = false ∧ committed' = true ∧ e.Commits m

theorem Poll.quiet_fresh (t : Nat) (n : Node) : (Poll.fresh t n : Poll Node Work).Quiet :=
  ⟨rfl, rfl⟩

namespace Wp

open Activity Node

variable {m : Mutation} {D : Bool → Poll Node Work → Prop} {α : Type} {ph : Bool}

/-- Waiting, in a poll that has been quiet so far. -/
theorem waitQuiet {Q : α → Bool → Poll Node Work → Prop} {r : Node → Bool} {d : Option Nat}
    {k : Activity Node Work α} {t : Nat} {n : Node}
    (h : ∀ t n, n.Plain → D ph (.fresh t n) ∧ Wp m.protocol D Q k ph (.fresh t n)) :
    Wp m.protocol D Q (.wait r d k) ph (.fresh t n) :=
  ⟨ph, .inl ⟨Poll.quiet_fresh t n, rfl⟩, fun t n hn => h t n hn⟩

/-- Waiting for a number of milliseconds. -/
theorem delay {Q : Unit → Bool → Poll Node Work → Prop} {millis t : Nat} {n : Node}
    (hn : n.Plain) (h : ∀ t n, n.Plain → D ph (.fresh t n) ∧ Q () ph (.fresh t n)) :
    Wp m.protocol D Q (Node.delay millis) ph (.fresh t n) := by
  unfold Node.delay
  split
  · exact (h t n hn).2
  · show Wp m.protocol D Q (sleepUntil (t + millis)) ph (.fresh t n)
    exact waitQuiet h

/-- A call on the store in memory. -/
theorem callStore {c : StoreCall}
    {Q : Except StoreFault c.Outcome → Bool → Poll Node Work → Prop} {t : Nat} {n : Node}
    (hn : n.Plain) (hD : ∀ t n, n.Plain → D ph (.fresh t n))
    (hfail : ∀ t n, n.Plain → Q (.error MemoryStore.fault) ph (.fresh t n))
    (htake : ∀ t n store, n.Plain → n.store = .memory store → store.unavailable = false →
      Q (.ok (store.slots.apply c).1) ph
        ⟨t, n, { n with store := .memory (store.call c).1 }, []⟩) :
    Wp m.protocol D Q (Node.callStore c) ph (.fresh t n) := by
  have hstep (t : Nat) (n : Node) (hn : n.Plain) :
      Wp m.protocol D Q (Activity.step (onMemoryStore fun store => store.call c)) ph
        (.fresh t n) := by
    obtain ⟨⟨store, hstore⟩, hdirect⟩ := hn
    refine step ?_
    unfold onMemoryStore
    simp only [hstore]
    cases hu : store.unavailable with
    | true =>
      rw [MemoryStore.call_of_unavailable hu]
      have hsame : { n with store := .memory store } = n := by rw [← hstore]
      simp only [hsame]
      exact hfail t n ⟨⟨store, hstore⟩, hdirect⟩
    | false =>
      rw [MemoryStore.call_answer hu]
      exact htake t n store ⟨⟨store, hstore⟩, hdirect⟩ hstore hu
  -- first the latency, during which others act; then the call itself, in one poll
  obtain ⟨⟨store, hstore⟩, hdirect⟩ := hn
  unfold Node.callStore
  refine bind (Activity.read _) (read ?_)
  simp only [hstore]
  refine bind _ (delay ⟨⟨store, hstore⟩, hdirect⟩ ?_)
  exact fun t n hn => ⟨hD t n hn, hstep t n hn⟩

/-- What the node answers to a call on the store: it fails or takes too long and nothing has
    happened, or it takes effect. -/
theorem storeAnswer {storeLimit cacheLimit : Span} {c : StoreCall}
    {Q : Option (Except StoreFault c.Outcome) → Bool → Poll Node Work → Prop} {t : Nat} {n : Node}
    (hn : n.Plain) (hD : ∀ t n, n.Plain → D ph (.fresh t n))
    (hfail : ∀ t n x, n.Plain → (∀ o, x ≠ some (.ok o)) → Q x ph (.fresh t n))
    (htake : ∀ t n store, n.Plain → n.store = .memory store → store.unavailable = false →
      Q (some (.ok (store.slots.apply c).1)) ph
        ⟨t, n, { n with store := .memory (store.call c).1 }, []⟩) :
    Wp m.protocol D Q (Node.answer storeLimit cacheLimit (.store c)) ph (.fresh t n) := by
  have hcall : Wp m.protocol (fun ph e => Q none ph e ∧ D ph e) (fun x => Q (some x))
      (Node.callStore c) ph (.fresh t n) :=
    callStore hn (fun t n hn => ⟨hfail t n none hn nofun, hD t n hn⟩)
      (fun t n hn => hfail t n _ hn nofun) htake
  have hnone : takeInterposition c.kind n = (n, none) := by
    unfold takeInterposition
    rw [hn.direct]
    rfl
  refine within (bind (Activity.step _) (step ?_))
  simp only [hnone]
  exact hcall

/-! ## After a write -/

/-- Giving changes identities. -/
theorem identifyAll (cs : List Change) :
    ∀ {Q : List Event → Bool → Poll Node Work → Prop} {e : Poll Node Work},
      (∀ es : List Event, es.map Event.change = cs → Q es ph
        { e with after := { e.after with eventCount := e.after.eventCount + es.length } }) →
      Wp m.protocol D Q (Node.identifyAll cs) ph e := by
  induction cs with
  | nil => exact fun h => h [] rfl
  | cons c cs ih =>
    intro Q e h
    refine bind (Node.identifyAll cs) (ih ?_)
    intro es hes
    have hcons := h (⟨eventIdOf (e.after.eventCount + 1), c⟩ :: es) (by rw [List.map_cons, hes])
    rwa [List.length_cons, Nat.add_comm es.length, ← Nat.add_assoc] at hcons

/-- Handing events in. -/
theorem enqueue (es : List Event) :
    ∀ {Q : PendingAcks → Bool → Poll Node Work → Prop} {e : Poll Node Work},
      Q (e.after.lanes.offerAll es).2 ph
        { e with after := { e.after with lanes := (e.after.lanes.offerAll es).1 } } →
      Wp m.protocol D Q (Node.enqueue es) ph e := by
  induction es with
  | nil => exact fun h => h
  | cons v es ih =>
    intro Q e h
    exact bind (Node.enqueue es) (ih h)

/-- Announcing changes: all of their events are handed in. -/
theorem announce {storeLimit cacheLimit : Span} {earlier : List Change} {own : Change}
    {Q : PendingAcks × Event → Bool → Poll Node Work → Prop} {e : Poll Node Work}
    (h : ∀ (es : List Event) (last : Event), es.map Event.change = earlier ++ [own] →
      Q ((e.after.lanes.offerAll es).2, last) ph
        { e with after := { e.after with
          lanes := (e.after.lanes.offerAll es).1
          eventCount := e.after.eventCount + es.length } }) :
    Wp m.protocol D Q (Node.answer storeLimit cacheLimit (.announce earlier own)) ph e := by
  refine bind (Node.identifyAll earlier) (identifyAll earlier ?_)
  intro es hes
  refine bind (Node.enqueue _) (enqueue _ ?_)
  have hall := h (es ++ [⟨eventIdOf (e.after.eventCount + es.length + 1), own⟩])
    ⟨eventIdOf (e.after.eventCount + es.length + 1), own⟩ (by rw [List.map_append, hes]; rfl)
  rw [List.length_append] at hall
  exact hall

/-- Waiting for the outcomes of events changes nothing. -/
theorem warningsBy (deadline : Nat) (hD : ∀ t n, n.Plain → D ph (.fresh t n))
    (pending : PendingAcks) :
    ∀ {Q : List Warning → Bool → Poll Node Work → Prop} {t n}, n.Plain →
      (∀ t n ws, n.Plain → Q ws ph (.fresh t n)) →
      Wp m.protocol D Q (Node.warningsBy deadline pending) ph (.fresh t n) := by
  induction pending with
  | nil => exact fun hn h => h _ _ [] hn
  | cons p pending ih =>
    intro Q t n _ h
    refine waitQuiet fun t n hn => ⟨hD t n hn, ?_⟩
    exact bind (Node.warningsBy deadline pending) (ih hn fun t n ws hn => h t n _ hn)

/-- **After a write**: the events and the removal from the cache belong to the poll of the write,
    and what follows is quiet. -/
theorem commit {storeLimit cacheLimit : Span} {β : Type} {key : SessionKey} {value : β}
    {earlier : List Change} {own : Change} {Q : Outcome β → Bool → Poll Node Work → Prop}
    {t : Nat} {n : Node} {store : MemoryStore} {c : StoreCall}
    (hstore : n.store = .memory store) (hu : store.unavailable = false)
    (hwritten : (c.written? (store.slots.apply c).1).isSome = true)
    (hw : m.WrittenAs c (earlier ++ [own]) key)
    (hD : ∀ t n, n.Plain → D true (.fresh t n))
    (hdone : ∀ t n a, n.Plain → Q (.ok a) true (.fresh t n)) :
    Wp m.protocol D Q
      (.ofProgram (Node.answer storeLimit cacheLimit) (Coordinator.commit key value earlier own))
      false ⟨t, n, { n with store := .memory (store.call c).1 }, []⟩ := by
  refine ofProgram (announce ?_)
  intro es last hes
  have hcommits : Poll.Commits m
      ⟨t, n, { n with
        store := .memory (store.call c).1
        lanes := (n.lanes.offerAll es).1
        eventCount := n.eventCount + es.length
        forgetCount := n.forgetCount + 1 }, [.forget key n.forgetCount]⟩ :=
    ⟨store, c, es, key, hstore, hu, hwritten, hes ▸ hw, rfl, rfl⟩
  -- the next wait is that for the removal from the cache
  refine ⟨true, .inr ⟨rfl, rfl, hcommits⟩, ?_⟩
  intro t n hn
  refine ⟨hD t n hn, ?_⟩
  exact ofProgram (warningsBy _ hD _ hn fun t n ws hn => hdone t n _ hn)

/-! ## Mutations -/

/-- The walk through what is left of a mutation: quiet polls, until it fails or commits. -/
theorem commitsOnce {storeLimit cacheLimit : Span} {β : Type}
    {Q : Outcome β → Bool → Poll Node Work → Prop} {p : Operation (Outcome β)}
    (hp : CommitsOnce m.WrittenAs p)
    (hD : ∀ ph t n, n.Plain → D ph (.fresh t n))
    (hfail : ∀ t n a, n.Plain → Q (.error a) false (.fresh t n))
    (hdone : ∀ t n a, n.Plain → Q (.ok a) true (.fresh t n)) :
    ∀ {t n}, n.Plain →
      Wp m.protocol D Q (.ofProgram (Node.answer storeLimit cacheLimit) p) false (.fresh t n) := by
  induction hp with
  | fail e => exact fun hn => hfail _ _ e hn
  | now _ ih =>
    intro t n hn
    exact ofProgram (ih _ hn)
  | @store c next hnone hsome ih =>
    intro t n hn
    refine ofProgram (storeAnswer hn (hD false) ?_ ?_)
    · -- failed or too late: nothing has happened
      intro t n x hn hx
      exact ih x (fun o ho => absurd ho (hx o)) hn
    · intro t n store hn hstore hu
      cases hw : c.written? (store.slots.apply c).1 with
      | none =>
        -- refused: the node is as it was, and the poll is quiet up to here
        rw [MemoryStore.call_of_unwritten hu hw]
        have hsame : { n with store := .memory store } = n := by rw [← hstore]
        rw [hsame]
        refine ih _ ?_ hn
        intro o ho
        cases ho
        exact hw
      | some k =>
        obtain ⟨key, value, earlier, own, hwrite, hcommit⟩ := hsome _ k hw
        rw [hcommit]
        exact commit hstore hu (by rw [hw]; rfl) hwrite (hD true) hdone

/-- The walk through a mutation of a node. -/
theorem mutation (m : Mutation) {D : Bool → Poll Node Work → Prop}
    {Q : Outcome m.Value → Bool → Poll Node Work → Prop}
    (hD : ∀ ph t n, n.Plain → D ph (.fresh t n))
    (hfail : ∀ t n a, n.Plain → Q (.error a) false (.fresh t n))
    (hdone : ∀ t n a, n.Plain → Q (.ok a) true (.fresh t n)) {t : Nat} {n : Node}
    (hn : n.Plain) :
    Wp m.protocol D Q (Node.operation m.operation) false (.fresh t n) :=
  commitsOnce (m.commitsOnce _) hD hfail hdone hn

end Wp

/-! ## All or nothing -/

open Activity

/-- Polls in which nothing was done. -/
def NothingDone (es : List (Poll Node Work)) : Prop := ∀ e ∈ es, e.Quiet

/-- Polls in one of which everything was done for a mutation, and in the others nothing. -/
def AllDone (m : Mutation) (es : List (Poll Node Work)) : Prop :=
  ∃ earlier e later, es = earlier ++ e :: later ∧
    NothingDone earlier ∧ e.Commits m ∧ NothingDone later

theorem NothingDone.nil : NothingDone [] := by
  intro e he
  cases he

theorem NothingDone.cons {e : Poll Node Work} {es : List (Poll Node Work)} (he : e.Quiet)
    (hes : NothingDone es) : NothingDone (e :: es) := by
  intro e' he'
  rcases List.mem_cons.mp he' with rfl | he'
  · exact he
  · exact hes e' he'

namespace Mutation

variable {m : Mutation} {ph : Bool}

/-- After the commit, nothing more is done. -/
theorem done_of_committed {es : List (Poll Node Work)} (h : m.protocol.Allows true es ph) :
    ph = true ∧ NothingDone es := by
  induction es with
  | nil =>
    cases h
    exact ⟨rfl, .nil⟩
  | cons e es ih =>
    cases h with
    | cons hpoll hrest =>
      rcases hpoll with ⟨hq, rfl⟩ | ⟨hno, _⟩
      · obtain ⟨hph, hnone⟩ := ih hrest
        exact ⟨hph, .cons hq hnone⟩
      · cases hno

/-- What was done, by the phase that is reached. -/
theorem done_of_allows {es : List (Poll Node Work)} (h : m.protocol.Allows false es ph) :
    ph = false ∧ NothingDone es ∨ ph = true ∧ AllDone m es := by
  induction es with
  | nil =>
    cases h
    exact .inl ⟨rfl, .nil⟩
  | cons e es ih =>
    cases h with
    | cons hpoll hrest =>
      rcases hpoll with ⟨hq, rfl⟩ | ⟨_, rfl, hcommits⟩
      · rcases ih hrest with ⟨hph, hnone⟩ | ⟨hph, earlier, e', later, rfl, hearlier, he', hlater⟩
        · exact .inl ⟨hph, .cons hq hnone⟩
        · exact .inr ⟨hph, e :: earlier, e', later, rfl, .cons hq hearlier, he', hlater⟩
      · obtain ⟨hph, hnone⟩ := done_of_committed hrest
        exact .inr ⟨hph, [], e, es, rfl, .nil, hcommits, hnone⟩

/-- An activity that keeps the protocol of a mutation has done nothing, or all. -/
theorem done_of_course {α : Type} {D : Bool → Poll Node Work → Prop} {post : α → Bool → Prop}
    {p p' : Activity Node Work α} {es : List (Poll Node Work)} {t : Nat} {n : Node}
    (hwp : Wp m.protocol D (m.protocol.Ends post) p false (.fresh t n))
    (hc : Course (fun _ s => s.Plain) p (.fresh t n) es p') :
    NothingDone es ∧ (∀ a, p' = .done a → post a false) ∨
      AllDone m es ∧ ∀ a, p' = .done a → post a true := by
  obtain ⟨ph, hallows, hpost⟩ := Course.kept (P := m.protocol) hc hwp
  rcases done_of_allows hallows with ⟨rfl, hnone⟩ | ⟨rfl, hall⟩
  · exact .inl ⟨hnone, hpost⟩
  · exact .inr ⟨hall, hpost⟩

end Mutation

/-- What a fresh poll ends with. -/
theorem Protocol.ends_fresh {m : Mutation} {α : Type} {post : α → Bool → Prop} {a : α} {ph : Bool}
    (h : post a ph) (t : Nat) (n : Node) : m.protocol.Ends post a ph (.fresh t n) :=
  ⟨ph, .inl ⟨Poll.quiet_fresh t n, rfl⟩, h⟩

/-! ## The gateway -/

namespace Gateway.Response

/-- Whether a response tells of success. -/
def IsSuccess (r : Response) : Prop := 200 ≤ r.status ∧ r.status < 300

/-- No failure of an operation is shown as a success. -/
theorem ofError_not_isSuccess (e : SessionError) : ¬ (ofError e).IsSuccess := by
  unfold IsSuccess
  cases e <;> simp [ofError, ofJson]

end Gateway.Response

namespace Mutation

theorem response_error (m : Mutation) (e : SessionError) :
    ¬ (m.response (.error e)).IsSuccess := by
  cases m <;> exact Gateway.Response.ofError_not_isSuccess e

theorem response_ok (m : Mutation) (c : Committed m.Value) :
    (m.response (.ok c)).IsSuccess := by
  cases m <;> simp [Gateway.Response.IsSuccess, response, Gateway.Response.ofCommand,
    Gateway.Response.ofDeletion, Gateway.Response.ofJson]

theorem perform_eq (m : Mutation) :
    Node.perform m.command =
      (Node.operation m.operation).bind fun a => .done (m.response a) := by
  cases m <;> rfl

/-- How a mutation has answered, by whether it has committed. -/
def Answered {m : Mutation} (a : Outcome m.Value) (committed : Bool) : Prop :=
  match committed with
  | false => ∃ e, a = .error e
  | true => ∃ c, a = .ok c

/-- What a response tells, by whether the mutation has committed: time may have run out anyway. -/
def Told (r : Gateway.Response) (committed : Bool) : Prop :=
  match committed with
  | false => ¬ r.IsSuccess
  | true => r.IsSuccess ∨ r.status = 408

theorem told_timedOut (committed : Bool) : Told .timedOut committed := by
  cases committed with
  | false =>
    rintro ⟨_, hlt⟩
    exact absurd hlt (by decide)
  | true => exact .inr rfl

/-- The walk through a mutation of a node, to its answer. -/
theorem wp_operation (m : Mutation) {t : Nat} {n : Node} (hn : n.Plain) :
    Wp m.protocol (fun _ _ => True) (m.protocol.Ends Answered) (Node.operation m.operation) false
      (.fresh t n) :=
  Wp.mutation m (fun _ _ _ _ => trivial)
    (fun t n e _ => Protocol.ends_fresh ⟨e, rfl⟩ t n)
    (fun t n c _ => Protocol.ends_fresh ⟨c, rfl⟩ t n) hn

/-- The walk through the request for a mutation, to its response. -/
theorem wp_respond (m : Mutation) {limit : Span} {r : Gateway.Request}
    (hr : r.command = .ok m.command) {t : Nat} {n : Node} (hn : n.Plain) :
    Wp m.protocol (fun _ _ => True) (m.protocol.Ends Told) (Node.respond limit r) false
      (.fresh t n) := by
  have hlate (committed : Bool) (t : Nat) (n : Node) :
      m.protocol.Ends Told .timedOut committed (.fresh t n) :=
    Protocol.ends_fresh (told_timedOut committed) t n
  unfold Node.respond
  simp only [hr, m.perform_eq]
  refine Wp.bind _ (Wp.before (hlate false t n) (Wp.bind _ (Wp.mutation m ?_ ?_ ?_ hn)))
  · exact fun committed t n _ => ⟨hlate committed t n, trivial⟩
  · exact fun t n e _ => Protocol.ends_fresh (m.response_error e) t n
  · exact fun t n c _ => Protocol.ends_fresh (.inl (m.response_ok c)) t n

end Mutation

/-- A strict time limit for what is already known: only a limit without any time is too short. -/
theorem Activity.before_pure {σ τ α : Type} (d : Span) (a : α) :
    before d (pure a : Activity σ τ α) =
      .act (fun _ s => s) fun _ _ => .done (if d.ticks = 0 then none else some a) := by
  by_cases hzero : d.ticks = 0
  · simp only [before, tick, Activity.bind, hzero, if_true]
  · simp only [before, tick, Activity.bind, hzero, if_false]
    rfl

/-- A request that is refused answers in its first poll, and does nothing. -/
theorem nothing_done_of_refused {others : Node → Node → Prop} {limit : Span}
    {r : Gateway.Request} {refusal : Gateway.Response} (hr : r.command = .error refusal) {t : Nat}
    {n : Node} {es : List (Poll Node Work)} {p : Activity Node Work Gateway.Response}
    (hc : Course others (Node.respond limit r) (.fresh t n) es p) : NothingDone es := by
  have hanswer : ∃ response : Gateway.Response, Node.respond limit r =
      .act (fun _ s => s) fun _ _ => .done response := by
    unfold Node.respond
    simp only [hr, before_pure]
    by_cases hzero : limit.ticks = 0
    · rw [if_pos hzero]
      exact ⟨.timedOut, rfl⟩
    · rw [if_neg hzero]
      exact ⟨refusal, rfl⟩
  obtain ⟨response, heq⟩ := hanswer
  rw [heq] at hc
  cases hc with
  | rest hp => cases hp
  | act hc =>
    cases hc
    exact .cons ⟨rfl, rfl⟩ .nil

/-- **All or nothing.**  At every wait and at the end of a mutation, whatever others do between its
    polls: it has done nothing, and has not succeeded; or it has done all of it, and has not
    failed.  The same holds for the request of a mutation, where a success is a status of success,
    and the time limit may answer in its place; a request that is refused does nothing.  A
    mutation asks for few writes: one, if it is no creation.  And what the machine lets an activity
    do is such a course, whose started tasks are left to the machine, whatever becomes of the
    activity. -/
theorem all_or_nothing (m : Mutation) :
    (∀ t n es p, n.Plain →
      Course (fun _ s => s.Plain) (Node.operation m.operation) (.fresh t n) es p →
      NothingDone es ∧ (∀ a, p = .done a → ∃ e, a = .error e) ∨
        AllDone m es ∧ ∀ a, p = .done a → ∃ c, a = .ok c) ∧
    (∀ limit r t n es p, n.Plain →
      Course (fun _ s => s.Plain) (Node.respond limit r) (.fresh t n) es p →
      (r.command = .ok m.command →
        NothingDone es ∧ (∀ a, p = .done a → ¬ a.IsSuccess) ∨
          AllDone m es ∧ ∀ a, p = .done a → a.IsSuccess ∨ a.status = 408) ∧
      ∀ refusal, r.command = .error refusal → NothingDone es) ∧
    (∀ s qs, (m.operation s).Asks qs → qs.countP Request.isWrite ≤ m.writeLimit) ∧
    ∀ (α : Type) (p : Activity Node Work α) (M : Machine Node Work),
      ∃ es, Course Eq p (.fresh M.now M.world) es (M.advance Node.body p).1 ∧
        ∀ e ∈ es, ∀ x ∈ e.started, Node.body x ∈ (M.advance Node.body p).2.ready := by
  refine ⟨?_, ?_, ?_, ?_⟩
  · intro t n es p hn hc
    -- the operation by itself
    exact Mutation.done_of_course (m.wp_operation hn) hc
  · intro limit r t n es p hn hc
    -- its request, which the time limit may cut short
    refine ⟨fun hr => Mutation.done_of_course (m.wp_respond hr hn) hc, ?_⟩
    exact fun refusal hr => nothing_done_of_refused hr hc
  · intro s qs hqs
    -- writes are counted along the requests
    exact (m.writesAtMost s).countP_le hqs
  · intro α p M
    -- the machine's run is a course that begins with nothing started
    have hnone : ∀ x ∈ (Poll.fresh M.now M.world : Poll Node Work).started,
        Node.body x ∈ M.ready := by
      intro x hx
      cases hx
    obtain ⟨es, last, hc, _, hstarted⟩ :=
      M.advance_course Node.body p (.fresh M.now M.world) rfl rfl hnone
    exact ⟨es ++ [last], hc, hstarted⟩

namespace Sample

/-- A node with a session at version 1. -/
def node : Node where
  clock := .manual (second 0)
  store := .memory { slots := ({} : Slots).put key (.live
    ⟨key, .null, version 1, settings.node, second 0, second 0, second 60⟩) }
  lanes := .make {}
  settings := settings

def removal : Mutation := .delete key (version 1)

def request : Gateway.Request where
  method := "DELETE"
  path := "/sessions/s"
  query := some "expected_version=1"

theorem request_command : request.command = .ok removal.command := by
  with_unfolding_all rfl

theorem node_plain : node.Plain := ⟨⟨_, rfl⟩, rfl⟩

/-- The first poll of the request for the removal. -/
def firstPoll : Poll Node Work :=
  ((Node.respond (.ofSeconds 30) request).poll (.fresh 0 node)).1

end Sample

/-- The request for a removal, dropped at its first wait, has done all of it. -/
theorem sample_request_done : Sample.node.Plain ∧
    Sample.request.command = .ok Sample.removal.command ∧
    AllDone Sample.removal [Sample.firstPoll] := by
  refine ⟨Sample.node_plain, Sample.request_command, ?_⟩
  have hc := course_poll (fun _ s => s.Plain) (Node.respond (.ofSeconds 30) Sample.request)
    (.fresh 0 Sample.node)
  have hall := ((all_or_nothing Sample.removal).2.1 _ _ _ _ _ _ Sample.node_plain hc).1
    Sample.request_command
  rcases hall with ⟨hnone, _⟩ | ⟨hall, _⟩
  · -- a task was started, so it is not that nothing was done
    have hstarted : Sample.firstPoll.started.isEmpty = false := by decide +kernel
    have hquiet : Sample.firstPoll.started = [] := (hnone _ (List.mem_singleton.mpr rfl)).started
    rw [hquiet] at hstarted
    cases hstarted
  · exact hall

end SessionCluster
