/-
  Duties — every member of a node keeps the pact.

  * The worker of a lane begins the publication of an event in the poll in which it takes it out of
    the queue.  From then on it HOLDS the event: nobody else begins anything about a session of its
    lane, so the event is still what was begun last when it is begun again or accepted
    (`Terms.Holding`).
  * A reading vouches for the copy that it puts into the cache: it has seen the record in the
    store not longer ago than its time limit for the cache (`Terms.Admits`).
  * All other calls announce what they write, and fill no cache; removals from the cache and
    sweepers do nothing else.

  `Terms.governs` puts them together: the pact governs every process whose readings are admitted,
  whatever happens to its node from outside.
-/
import SessionCluster.Proofs.Questions

namespace SessionCluster

open Activity Node

/-! ## Workers -/

namespace Terms

variable {T : Terms} {i : Nat} {env : Envelope}

/-- The worker of a lane holds what it has begun: it is what was begun last of its session. -/
def Holding (T : Terms) (i : Nat) (env : Envelope) (g : Turn Node Work) : Prop :=
  T.At (some i) g ∧ (T.hasBus = true →
    g.state.pipeline.latest? env.aggregateId = some env ∧
      partitionFor env.aggregateId g.state.pipeline.lanes = i)

theorem holding_reach {g : Turn Node Work} {n : Node} (hg : T.At (some i) (g.reach n))
    (hlast : T.hasBus = true → n.pipeline.latest? env.aggregateId = some env ∧
      partitionFor env.aggregateId n.pipeline.lanes = i) : T.Holding i env (g.reach n) :=
  ⟨hg, hlast⟩

/-- What the worker of a lane relies on, from one moment to a later one. -/
theorem meanwhile_of_continues {h h' : History Node}
    (hc : h.Continues (T.pact.meanwhile (some i)) h') :
    h'.now.state.pipeline.lanes = h.now.state.pipeline.lanes ∧
      ∀ id, partitionFor id h.now.state.pipeline.lanes = i →
        h'.now.state.pipeline.latest? id = h.now.state.pipeline.latest? id := by
  refine hc.relates (R := fun m m' : Moment Node => m'.state.pipeline.lanes = m.state.pipeline.lanes ∧
    ∀ id, partitionFor id m.state.pipeline.lanes = i →
      m'.state.pipeline.latest? id = m.state.pipeline.latest? id) ?_ ?_ fun _ _ h => h
  · exact fun m => ⟨rfl, fun _ _ => rfl⟩
  · rintro m m' m'' ⟨hlanes, hlatest⟩ ⟨hlanes', hlatest'⟩
    refine ⟨hlanes'.trans hlanes, fun id hid => ?_⟩
    exact (hlatest' id (hlanes ▸ hid)).trans (hlatest id hid)

/-- **What a worker holds, it holds as long as it waits.** -/
theorem holding_steady : T.Steady (some i) (T.Holding i env) where
  at_ h := h.1
  quiet := by
    rintro g n ⟨hg, hlast⟩ hn
    refine holding_reach (hg.quiet hn) fun hbus => ?_
    rw [hn.pipeline]
    exact hlast hbus
  spawn := by
    rintro g w ⟨hg, hlast⟩ hw
    exact ⟨hg.spawn hw, hlast⟩
  later := by
    rintro g h d ⟨hg, hlast⟩ hh
    refine ⟨.fresh hh.inv, fun hbus => ?_⟩
    obtain ⟨hlatest, hlane⟩ := hlast hbus
    obtain ⟨hlanes, hsame⟩ := meanwhile_of_continues hh.continues
    refine ⟨(hsame _ hlane).trans hlatest, ?_⟩
    show partitionFor _ h.now.state.pipeline.lanes = i
    rw [hlanes]
    exact hlane

/-- The worker may begin a publication: then it holds it. -/
def Ready (T : Terms) (i : Nat) (env : Envelope) (g : Turn Node Work) : Prop :=
  (∀ b, g.state.transport = .bus b →
    T.Holding i env (g.reach { g.state with transport := .bus (b.begin env g.tick).1 })) ∧
  ((∀ b, g.state.transport ≠ .bus b) → T.Holding i env g)

/-- The pipeline when an envelope is sent: it is the latest of those begun. -/
theorem pipeline_begin {n : Node} {b : RehearsedBus} {l : Lanes} (env : Envelope) (tick : Nat)
    (hb : n.transport = .bus b) (hl : l.count = n.lanes.count) :
    ({ n with lanes := l, transport := .bus (b.begin env tick).1 } : Node).pipeline =
      { n.pipeline with queued := l.events, begun := env :: n.pipeline.begun } := by
  obtain ⟨hcalls, hbus⟩ := b.begin_records env tick
  refine Pipeline.ext rfl hl rfl ?_ ?_
  · simp only [Node.pipeline, Node.bus, hb, hcalls, List.map_cons]
  · simp only [Node.pipeline, Node.bus, hb, hbus]

theorem hasBus_of {n : Node} {b : RehearsedBus} (h : n.transport = .bus b) : n.hasBus = true := by
  unfold Node.hasBus
  rw [h]

theorem no_bus {n : Node} (h : ∀ b, n.transport ≠ .bus b) : n.hasBus = false := by
  unfold Node.hasBus
  cases ht : n.transport with
  | bus b => exact absurd ht (h b)
  | streams s => rfl

/-- What is held may be begun again. -/
theorem Holding.ready {g : Turn Node Work} (h : T.Holding i env g) : T.Ready i env g := by
  refine ⟨fun b hb => ?_, fun _ => h⟩
  obtain ⟨hg, hlast⟩ := h
  have hbus : T.hasBus = true := by rw [← hg.broker, hasBus_of hb]
  obtain ⟨hlatest, hlane⟩ := hlast hbus
  have heq := pipeline_begin env g.tick hb (Eq.refl g.state.lanes.count)
  refine holding_reach (hg.reach ⟨fun hn => ⟨hn.memory, hn.direct⟩, rfl,
    (hasBus_of rfl).trans (hasBus_of hb).symm, ?_, fun x hx => .inl hx⟩) fun _ => ?_
  · rw [heq]
    exact .single (.again hlatest hlane)
  · rw [heq, Pipeline.latest?_cons, if_pos rfl]
    exact ⟨rfl, hlane⟩

/-- What is held may be accepted. -/
theorem Holding.finish {g : Turn Node Work} {b : RehearsedBus} (h : T.Holding i env g)
    (hb : g.state.transport = .bus b) :
    T.Holding i env (g.reach { g.state with transport := .bus (b.finish env).1 }) := by
  obtain ⟨hg, hlast⟩ := h
  have hbus : T.hasBus = true := by rw [← hg.broker, hasBus_of hb]
  -- the bus's own record of what it accepted is all that may change
  obtain ⟨hlatest, hlane⟩ := hlast hbus
  have hparts : ({ g.state with transport := .bus (b.finish env).1 } : Node).pipeline =
      { g.state.pipeline with accepted := (b.bus.publish env).1.accepted } := by
    refine Pipeline.ext rfl rfl rfl ?_ rfl
    simp only [Node.pipeline, Node.bus, hb, RehearsedBus.finish]
  have haccepted : (b.bus.publish env).1.accepted = g.state.pipeline.accepted ∨
      (b.bus.publish env).1.accepted = env :: g.state.pipeline.accepted := by
    have hold : g.state.pipeline.accepted = b.bus.accepted :=
      congrArg (fun b : RehearsedBus => b.bus.accepted) (Node.bus_of_transport hb)
    rw [hold]
    -- the bus took it in or lost it: in the first case it is the accepting of what was sent last
    rcases b.bus.publish_cases env with ⟨_, hmore⟩ | ⟨_, _, hsame⟩
    · exact .inr hmore
    · exact .inl hsame
  refine holding_reach (hg.reach ⟨fun hn => ⟨hn.memory, hn.direct⟩, rfl,
    (hasBus_of rfl).trans (hasBus_of hb).symm, ?_, fun x hx => .inl hx⟩) fun _ => ?_
  · rw [hparts]
    rcases haccepted with hsame | hmore
    · rw [hsame]
    · rw [hmore]
      exact .single (.accept hlatest)
  · rw [hparts]
    exact ⟨hlatest, hlane⟩

/-- **What a worker takes out of its queue, it may begin.** -/
theorem At.take {g : Turn Node Work} {e : Event} {ticket : Nat} {node : String}
    (hg : T.At (some i) g) (hj : (g.state.lanes.take i).2 = some (.publish e ticket)) :
    T.Ready i ((Envelope.ofEvent e).withOrigin node)
      (g.reach { g.state with lanes := (g.state.lanes.take i).1 }) := by
  -- the event taken out is the first of its queue, and it is there because of its key
  obtain ⟨hcount, hothers, hfirst⟩ := g.state.lanes.take_events i
  have hqueue : g.state.pipeline.queued i = e :: (g.state.lanes.take i).1.events i := by
    show g.state.lanes.events i = _
    rw [hfirst, hj]
    rfl
  have hlane : partitionFor e.key.text g.state.pipeline.lanes = i :=
    hg.inLine.routed i e (by rw [hqueue]; exact List.mem_cons_self ..)
  constructor
  · -- a bus: taking it out and sending it are one step of the pipeline
    intro b hb
    have heq := pipeline_begin ((Envelope.ofEvent e).withOrigin node) g.tick
      (show g.state.transport = .bus b from hb) hcount
    show T.Holding i _ (g.reach { g.state with
      lanes := (g.state.lanes.take i).1
      transport := .bus (b.begin ((Envelope.ofEvent e).withOrigin node) g.tick).1 })
    refine holding_reach (hg.reach ⟨fun hn => ⟨hn.memory, hn.direct⟩, rfl,
      (hasBus_of rfl).trans (hasBus_of hb).symm, ?_, fun x hx => .inl hx⟩) fun _ => ?_
    · rw [heq]
      exact .single (.start hqueue hothers (Envelope.stamp_ofEvent e node) rfl)
    · rw [heq, Pipeline.latest?_cons, if_pos rfl]
      exact ⟨rfl, hlane⟩
  · -- no bus: the queue only loses its first event, and nothing is held
    intro hnone
    have hbus : T.hasBus = false := hg.broker.symm.trans (no_bus hnone)
    refine holding_reach (hg.reach ⟨fun hn => ⟨hn.memory, hn.direct⟩, rfl, rfl, ?_,
      fun x hx => .inl hx⟩) ?_
    · have heq : ({ g.state with lanes := (g.state.lanes.take i).1 } : Node).pipeline =
          { g.state.pipeline with queued := (g.state.lanes.take i).1.events } :=
        Pipeline.ext rfl hcount rfl rfl rfl
      rw [heq]
      refine .single (.lose fun k => ?_)
      by_cases hk : k = i
      · subst hk
        rw [hqueue]
        exact List.sublist_cons_self _ _
      · exact (hothers k hk) ▸ .refl _
    · rw [hbus]
      exact nofun

/-- A job that is no event is taken without consequence. -/
theorem quiet_take {n : Node} (hj : (n.lanes.take i).2.bind Job.event? = none) :
    n.Quiet { n with lanes := (n.lanes.take i).1 } := by
  obtain ⟨hcount, hothers, hfirst⟩ := n.lanes.take_events i
  refine ⟨fun hn => ⟨hn.memory, hn.direct⟩, rfl, rfl, ?_, fun _ hx => hx⟩
  refine Pipeline.ext rfl hcount (funext fun k => ?_) rfl rfl
  by_cases hk : k = i
  · subst hk
    rw [hj] at hfirst
    exact hfirst.symm
  · exact hothers k hk

end Terms

namespace Safe

variable {T : Terms} {i : Nat} {env : Envelope} {D : Turn Node Work → Prop}

/-- One publication, of what may be begun. -/
theorem transmit {g : Turn Node Work} (hD : ∀ g, T.Holding i env g → D g)
    (hg : T.Ready i env g) {Q : Except BrokerError Unit → Turn Node Work → Prop}
    (h : ∀ x g, T.Holding i env g → Q x g) :
    Safe T.pact (some i) D Q (Node.transmit env) g := by
  unfold Node.transmit
  refine bind (Activity.read _) (read ?_)
  cases ht : g.state.transport with
  | streams s =>
    -- a server of its own keeps no book here, so what is held is what may be begun
    have hnone : ∀ b, g.state.transport ≠ .bus b := by
      intro b hb
      rw [ht] at hb
      cases hb
    exact exchange Terms.holding_steady (hg.2 hnone) _ h
  | bus b =>
    -- the bus writes the envelope down as it is handed over
    have hbegun := hg.1 b ht
    refine bind (Activity.stepAt _) (stepAt ?_)
    simp only [onBus, ht]
    refine bind (Node.delay _) (delay Terms.holding_steady hD hbegun fun g hg => ?_)
    -- the call hangs, or goes wrong on its way, or the bus judges it
    split
    · exact never Terms.holding_steady hD hg
    · split
      · exact h _ g hg
      · refine step ?_
        -- while the call was on its way the transport may have been replaced
        cases ht' : g.state.transport with
        | bus b' =>
          simp only [onBus, ht']
          exact h _ _ (hg.finish ht')
        | streams s =>
          simp only [onBus, ht']
          exact h _ _ hg

/-- How a worker tries: each attempt has its time limit, and it waits in between. -/
def trying (b : Backoff) (env : Envelope) :
    (q : Publishing.Request) → Act (Publishing.Answer q)
  | .attempt => Activity.within b.attemptTimeout (Node.transmit env)
  | .pause d => Activity.sleep d

/-- Attempt after attempt. -/
theorem tries {b : Backoff} {Q : Except BrokerError Unit → Turn Node Work → Prop}
    (hD : ∀ g, T.Holding i env g → D g) (h : ∀ x g, T.Holding i env g → Q x g) (left : Nat) :
    ∀ (number : Nat) (g : Turn Node Work), T.Ready i env g →
      Safe T.pact (some i) D Q
        (.ofProgram (trying b env) (Publishing.tries b left number)) g := by
  -- an attempt, whatever comes of it, and then what depends on that
  have hattempt {next : Option (Except BrokerError Unit) →
      Program Publishing.Answer (Except BrokerError Unit)} {g : Turn Node Work}
      (hg : T.Ready i env g)
      (hnext : ∀ x g, T.Holding i env g →
        Safe T.pact (some i) D Q (.ofProgram (trying b env) (next x)) g) :
      Safe T.pact (some i) D Q (.ofProgram (trying b env) (.ask .attempt next)) g := by
    refine Safe.ofProgram (within (transmit ?_ hg ?_))
    · exact fun g hg _ => ⟨hnext none g hg, hD g hg⟩
    · exact fun x g hg _ => hnext (some x) g hg
  induction left with
  | zero =>
    intro number g hg
    rw [Publishing.tries]
    refine hattempt hg fun x g hg => ?_
    cases Publishing.outcome b.attemptTimeout x with
    | ok u => exact h _ g hg
    | error e =>
      simp only
      split
      · exact h _ g hg
      · exact h _ g hg
  | succ left ih =>
    intro number g hg
    rw [Publishing.tries]
    refine hattempt hg fun x g hg => ?_
    cases Publishing.outcome b.attemptTimeout x with
    | ok u => exact h _ g hg
    | error e =>
      simp only
      split
      · exact h _ g hg
      · -- it waits, and begins again what it holds
        refine Safe.ofProgram (sleepTicks Terms.holding_steady hD hg fun g hg => ?_)
        exact ih (number + 1) g hg.ready

/-- A publication with the node's retries. -/
theorem deliver {g : Turn Node Work} (hD : ∀ g, T.Holding i env g → D g)
    (hg : T.Ready i env g) {Q : Except BrokerError Unit → Turn Node Work → Prop}
    (h : ∀ x g, T.Holding i env g → Q x g) :
    Safe T.pact (some i) D Q (Node.deliver env) g := by
  unfold Node.deliver
  refine bind (Activity.read _) (read ?_)
  cases g.state.backoff with
  | none => exact transmit hD hg h
  | some b => exact tries hD h _ _ g hg

/-- The worker of a lane, from one job to the next. -/
theorem laneTurn {g : Turn Node Work} (hg : T.At (some i) g) {post : Option Work → History Node → Prop}
    (hpost : ∀ h, post (some (.lane i)) h) :
    Safe T.pact (some i) (fun _ => True) (T.pact.Ends (some i) post) (Node.laneTurn Node.deliver i) g := by
  have htrue : ∀ {A : Turn Node Work → Prop} (g), A g → True := fun _ _ => trivial
  have hend : ∀ g, T.At (some i) g → T.pact.Ends (some i) post (some (.lane i)) g :=
    fun g hg => ⟨hg.2, hpost _⟩
  have hsettle {g : Turn Node Work} {ticket : Nat} {r : Except BrokerError Unit}
      (hg : T.At (some i) g) :
      Safe T.pact (some i) (fun _ => True)
        (fun _ g => T.pact.Ends (some i) post (some (.lane i)) g)
        (Activity.step (onLanes fun l => (l.settle ticket r, ()))) g := by
    refine step (hend _ (hg.quiet ⟨fun hn => ⟨hn.memory, hn.direct⟩, rfl, rfl, rfl, fun _ hx => hx⟩))
  -- every wait and every end of the worker leaves its seat at the terms
  refine waitFor Terms.at_steady htrue hg fun g hg => ?_
  refine bind (Activity.step _) (step ?_)
  simp only [onLanes]
  -- the lane is closed and empty: the worker ends
  cases hj : (g.state.lanes.take i).2 with
  | none =>
    exact hend _ (hg.quiet (Terms.quiet_take (by rw [hj]; rfl)))
  | some j =>
    refine bind (Node.doJob Node.deliver j) ?_
    cases j with
    -- a flush has nothing to send, and is settled at once
    | flush ticket => exact hsettle (hg.quiet (Terms.quiet_take (by rw [hj]; rfl)))
    | publish e ticket =>
      -- a publication may be begun, and its answer is settled when the broker has spoken
      refine bind (Activity.read _) (read ?_)
      refine bind (Node.deliver _) (deliver htrue (hg.take hj) fun x g hg => ?_)
      exact hsettle hg.1

/-! ## Removals from the cache, and sweepers -/

section

variable {g : Turn Node Work} {post : Option Work → History Node → Prop}

/-- The removal of a copy sends nothing. -/
theorem forgetTurn (hg : T.At none g) {key : SessionKey} {ticket : Nat}
    (hpost : ∀ h, post none h) :
    Safe T.pact none (fun _ => True) (T.pact.Ends none post) (Node.forgetTurn key ticket) g := by
  refine bind (Activity.read _) (read ?_)
  refine bind (Node.forgetWithin _ key)
    (forgetWithin Terms.at_steady (fun _ _ => trivial) hg fun g hg => ?_)
  refine bind (Activity.step _) (step ?_)
  have hdone : T.At none (g.reach (markForgotten ticket g.state).1) :=
    hg.quiet ⟨fun hn => ⟨hn.memory, hn.direct⟩, rfl, rfl, rfl, fun _ hx => hx⟩
  exact ⟨hdone.2, hpost _⟩

/-- The sweeper sets itself up and sends nothing. -/
theorem sweeperBegin (hg : T.At none g) (hnone : ∀ h, post none h)
    (hnext : ∀ s h, post (some (.sweeper s)) h) :
    Safe T.pact none (fun _ => True) (T.pact.Ends none post) Node.sweeperBegin g := by
  refine stepAt ?_
  split
  · have hstopped : T.At none (g.reach
        { g.state with sweepersStopped := g.state.sweepersStopped + 1 }) :=
      hg.quiet ⟨fun hn => ⟨hn.memory, hn.direct⟩, rfl, rfl, rfl, fun _ hx => hx⟩
    exact ⟨hstopped.2, hnone _⟩
  · exact ⟨hg.2, hnext _ _⟩

/-- A turn of the sweeper writes and hands in, as any call does, and sends nothing. -/
theorem sweeperTurn (hg : T.At none g) {s : RunningSweeper} (hnone : ∀ h, post none h)
    (hnext : ∀ s h, post (some (.sweeper s)) h) :
    Safe T.pact none (fun _ => True) (T.pact.Ends none post) (Node.sweeperTurn s) g := by
  refine bind (Activity.stepAt _) (stepAt ?_)
  refine waitFor Terms.at_steady (fun _ _ => trivial) hg fun g hg => ?_
  refine bind (Activity.stepAt _) (stepAt ?_)
  show Safe T.pact none (fun _ => True) _ _ g
  generalize g.state.wakeOf g.tick _ s = woken
  obtain ⟨wake, s'⟩ := woken
  cases wake with
  | none => exact ⟨hg.2, hnext _ _⟩
  | some w =>
    simp only
    obtain ⟨pending, next⟩ := Sweeper.wakeUp s'.pending w
    cases next with
    | wait => exact ⟨hg.2, hnext _ _⟩
    | sweep =>
      -- a sweep announces what it removes
      refine bind _ (bind _ ?_)
      refine bind (Activity.read _) (read ?_)
      exact orderly (sweep_orderly _) (fun a g hg => ⟨hg.2, hnext _ _⟩) g hg
    | stop =>
      refine bind (Activity.step _) (step ?_)
      have hstopped : T.At none (g.reach
          { g.state with sweepersStopped := g.state.sweepersStopped + 1 }) :=
        hg.quiet ⟨fun hn => ⟨hn.memory, hn.direct⟩, rfl, rfl, rfl, fun _ hx => hx⟩
      exact ⟨hstopped.2, hnone _⟩

end

end Safe

/-! ## Readings -/

namespace Terms

variable {T : Terms}

/-- A record that is the live one of its key. -/
def LiveAt (h : History Node) (r : Record) : Prop :=
  h.now.state.pipeline.slots.live? r.key = some r

/-- Readings with some settings may put copies into the cache: what was live can be vouched for
    until the time limit of the cache is over, for as long as copies are served. -/
def Admits (T : Terms) (s : CoordinatorSettings) : Prop :=
  ∀ (h h' : History Node) (r : Record), LiveAt h r → h.Continues (fun _ _ => True) h' →
    h'.now.tick ≤ h.now.tick + s.cacheTimeout.ticks →
    ∀ served ≤ s.cacheTtl.nanos, T.vouches h' r (MemoryCache.nanosAt h'.now.tick + served)

/-- A poll that has written nothing so far. -/
def Reading (T : Terms) (g : Turn Node Work) : Prop :=
  T.At none g ∧ g.state.pipeline.slots = g.history.now.state.pipeline.slots

/-- A poll that has written nothing, of somebody who has seen a record live at an earlier one. -/
def HasSeen (T : Terms) (r : Record) (h : History Node) (g : Turn Node Work) : Prop :=
  T.Reading g ∧ LiveAt h r ∧ h.Continues (fun _ _ => True) g.history

/-- Having written nothing so far outlasts what others do. -/
theorem reading_steady : T.Steady none T.Reading where
  at_ h := h.1
  quiet := by
    rintro g n ⟨hg, hsame⟩ hn
    refine ⟨hg.quiet hn, ?_⟩
    show n.pipeline.slots = _
    rw [hn.pipeline]
    exact hsame
  spawn := by
    rintro g w ⟨hg, hsame⟩ hw
    exact ⟨hg.spawn hw, hsame⟩
  later := by
    rintro g h d _ hh
    exact ⟨.fresh hh.inv, rfl⟩

/-- The end of a turn is a continuation of its history. -/
theorem continues_ended (g : Turn Node Work) :
    g.history.Continues (fun _ _ => True) g.ended :=
  History.Continues.refl.push trivial (Nat.le_refl _)

/-- Having seen a record live outlasts what others do. -/
theorem hasSeen_steady {r : Record} {h : History Node} : T.Steady none (T.HasSeen r h) where
  at_ h := h.1.1
  quiet := by
    rintro g n ⟨hg, hlive, hc⟩ hn
    exact ⟨reading_steady.quiet hg hn, hlive, hc⟩
  spawn := by
    rintro g w ⟨hg, hlive, hc⟩ hw
    exact ⟨reading_steady.spawn hg hw, hlive, hc⟩
  later := by
    rintro g h' d ⟨hg, hlive, hc⟩ hh
    refine ⟨reading_steady.later hg hh, hlive, ?_⟩
    have hafter : g.ended.Continues (fun _ _ => True) h' := hh.continues.mono fun _ _ _ => trivial
    exact (hc.trans (continues_ended g)).trans hafter

/-- What a reading ends in: a record of the key that it was asked for, which had not expired when
    the reading began, and which can be vouched for until now. -/
def Read (T : Terms) (key : SessionKey) (first : Moment Node)
    (a : Except SessionError Record) (h : History Node) : Prop :=
  T.kind ≠ .server → ∀ r, a = .ok r →
    r.key = key ∧ r.isExpiredAt (first.state.clock.at_ first.tick) = false ∧
      ∃ served, MemoryCache.nanosAt h.now.tick ≤ served ∧ T.vouches h r served

/-- In what the members of a node end. -/
def post (T : Terms) : Endings
  | .call (.get _ key), first, a, h => T.Read key first a h
  | .call _, _, _, _ => True
  | .task w, _, a, _ => ∀ w', a = some w' → w'.lane? = none ∨ w'.lane? = w.lane?

end Terms

namespace Safe

variable {T : Terms}

theorem read_error {key : SessionKey} {first : Moment Node} {e : SessionError}
    (h : History Node) : T.Read key first (.error e) h := by
  rintro _ r ⟨⟩

section

variable {s : CoordinatorSettings} (hs : T.Admits s) {key : SessionKey} {first : Moment Node}
  {r : Record} {g : Turn Node Work} (hseen : T.HasSeen r g.history g) (hkey : r.key = key)
  (hfresh : r.isExpiredAt (first.state.clock.at_ first.tick) = false)

include hs hseen hkey hfresh

/-- What was seen can be vouched for as long as the time limit is not over. -/
theorem read_seen {g' : Turn Node Work} (hg' : T.At none g')
    (hc : g.history.Continues (fun _ _ => True) g'.history)
    (hle : g'.tick ≤ g.tick + s.cacheTimeout.ticks) :
    T.pact.Ends none (T.Read key first) (.ok r) g' := by
  refine ⟨hg'.2, fun _ => ?_⟩
  rintro _ ⟨⟩
  have hvouched := hs g.history g'.ended r hseen.2.1
    (hc.trans (Terms.continues_ended g')) hle 0 (Nat.zero_le _)
  rw [Nat.add_zero] at hvouched
  exact ⟨hkey, hfresh, _, Nat.le_refl _, hvouched⟩

/-- The end of a reading that has seen a record: it makes a copy, and vouches for it. -/
theorem fillSeen (freshFor : Span) (hle : freshFor.nanos ≤ s.cacheTtl.nanos) :
    Safe T.pact none (fun _ => True) (T.pact.Ends none (T.Read key first))
      (.ofProgram (Node.answer s.storeTimeout s.cacheTimeout)
        (.ask (.cache r freshFor) fun _ => .done (.ok r))) g := by
  refine ofProgram (fill Terms.hasSeen_steady (fun _ _ => trivial) hseen ?_ ?_)
  · exact fun g' hg' hlimit => read_seen hs hseen hkey hfresh hg'.1.1 hg'.2.2 hlimit
  · intro g' c hg' hlimit hcache
    refine read_seen hs hseen hkey hfresh
      (hg'.1.1.reach ⟨fun hn => ⟨hn.memory, hn.direct⟩, ?_, rfl, .refl, ?_⟩) hg'.2.2 hlimit
    · simp only [cacheKind, hcache]
    · intro x hx
      rcases List.mem_cons.mp hx with rfl | hx
      · exact .inr ⟨rfl, hs g.history g'.history r hg'.2.1 hg'.2.2 hlimit _ hle⟩
      · refine .inl ?_
        simp only [Node.copies, memoryCache, hcache]
        exact MemoryCache.mem_without hx

end

/-- **A reading vouches for what it answers**, and for the copy that it makes. -/
theorem get {s : CoordinatorSettings} (hs : T.Admits s) {key : SessionKey} {h : History Node}
    (hh : T.Inv h) :
    Safe T.pact none (fun _ => True) (T.pact.Ends none (T.Read key h.now))
      (.ofProgram (Node.answer s.storeTimeout s.cacheTimeout) (Coordinator.get s key))
      (.fresh h) := by
  have htrue : ∀ {A : Turn Node Work → Prop} (g), A g → True := fun _ _ => trivial
  have herror {e : SessionError} {g : Turn Node Work} (hg : T.Reading g) :
      T.pact.Ends none (T.Read key h.now) (.error e) g := ⟨hg.1.2, read_error _⟩
  refine ofProgram ?_
  have hstart : T.Reading (.fresh h) := ⟨.fresh hh, rfl⟩
  refine stepAt ?_
  refine ofProgram (cached Terms.reading_steady htrue hstart fun x g hg hfound => ?_)
  cases x with
  | some r =>
    -- a copy is found, which was vouched for when it was put there
    show T.pact.Ends none (T.Read key h.now)
      (if r.isExpiredAt (h.now.state.clock.at_ h.now.tick) then .error (.notFound key) else .ok r) g
    split
    · exact herror hg
    · rename_i hfresh
      refine ⟨hg.1.2, fun hserver => ?_⟩
      rintro _ ⟨⟩
      obtain ⟨c, hc, rfl, hserved⟩ := hfound hserver r rfl
      obtain ⟨hkey, hvouched⟩ := hg.1.copies hc
      refine ⟨hkey, Bool.eq_false_iff.mpr hfresh, c.freshUntil, Nat.le_of_lt hserved, ?_⟩
      exact T.push hvouched
  | none =>
    refine ofProgram (storeAnswer Terms.reading_steady htrue hg ?_ ?_)
    · intro g x hg hx
      cases x with
      | none => exact herror hg
      | some x =>
        cases x with
        | ok o => exact absurd rfl (hx o)
        | error f => exact herror hg
    · intro g store hg hstore hu
      have hslots : g.state.pipeline.slots = store.slots := by
        simp only [Node.pipeline, memoryStore, hstore]
      have hsame : { g.state with store := .memory (store.call (.get key)).1 } = g.state := by
        rw [MemoryStore.call_of_unwritten hu rfl, ← hstore]
      have hanswer : (store.slots.apply (.get key)).1 = store.slots.live? key := rfl
      rw [hsame, hanswer]
      cases hlive : store.slots.live? key with
      | none => exact herror hg
      | some r =>
        simp only
        split
        · exact herror hg
        · rename_i hfresh
          have hfresh' := Bool.eq_false_iff.mpr hfresh
          have hkey : r.key = key := hg.1.keyed key r (hslots ▸ hlive)
          have hseen : T.HasSeen r g.history g := by
            refine ⟨hg, ?_, .refl⟩
            unfold Terms.LiveAt
            rw [← hg.2, hslots, hkey]
            exact hlive
          split
          · exact read_seen hs hseen hkey hfresh' hg.1 .refl (Nat.le_add_right _ _)
          · exact fillSeen hs hseen hkey hfresh' _ (Span.shorter_le_left ..)

end Safe

/-! ## All members -/

namespace Terms

variable {T : Terms}

/-- Everyone who joins keeps the pact. -/
theorem member_safe {r : Role} {h : History Node}
    (hr : ∀ s key, r = .call (.get s key) → T.Admits s) (hh : T.Inv h) :
    Safe T.pact r.seat (fun _ => True) (T.pact.Ends r.seat (T.post r h.now)) r.activity
      (.fresh h) := by
  -- calls that change something announce it in the poll of the write
  have hquiet {c : Call} (hc : c.isRead = false) :
      Safe T.pact none (fun _ => True) (T.pact.Ends none (T.post (.call c) h.now))
        (Role.call c).activity (.fresh h) := by
    refine Safe.orderly (Call.orderly hc) (fun a g hg => ⟨hg.2, ?_⟩) (.fresh h) (.fresh hh)
    cases c with
    | get s key => cases hc
    | create s key payload ttl => trivial
    | update s key expected payload => trivial
    | delete s key expected => trivial
    | touch s key extendBy => trivial
    | sweep s => trivial
  cases r with
  | call c =>
    -- a read is safe by the terms that admit its settings
    cases c with
    | get s key => exact Safe.get (hr s key rfl) hh
    | create s key payload ttl => exact hquiet rfl
    | update s key expected payload => exact hquiet rfl
    | delete s key expected => exact hquiet rfl
    | touch s key extendBy => exact hquiet rfl
    | sweep s => exact hquiet rfl
  | task w =>
    -- a task is followed by one of its own kind, or by none: the seats stay one each
    have hsweeper (s : RunningSweeper) (w : Work) (w' : Work)
        (h : (some (Work.sweeper s) : Option Work) = some w') :
        w'.lane? = none ∨ w'.lane? = w.lane? := by
      cases h
      exact .inl rfl
    have hend {w : Work} (_ : History Node) (w' : Work) (h : (none : Option Work) = some w') :
        w'.lane? = none ∨ w'.lane? = w.lane? := by
      cases h
    cases w with
    | lane i =>
      refine Safe.laneTurn (.fresh hh) fun _ w' hw' => ?_
      cases hw'
      exact .inr rfl
    | forget key ticket => exact Safe.forgetTurn (.fresh hh) hend
    | sweeperStart =>
      exact Safe.sweeperBegin (.fresh hh) hend fun s _ w' hw' => hsweeper s _ w' hw'
    | sweeper s =>
      exact Safe.sweeperTurn (.fresh hh) hend fun s _ w' hw' => hsweeper s _ w' hw'

/-- **The pact governs** every process whose readings are admitted, whatever happens to its node
    from outside. -/
theorem governs {C : Circumstances} (hcalls : ∀ s key, C.calls (.get s key) → T.Admits s)
    (hchanges : ∀ n n', C.changes n n' → n.Suffers n') : T.pact.Governs C T.post where
  poll hinv hg := hinv.push (Nat.le_refl _) hg.1
  seen hinv hg hseat := hinv.meanwhile hg.1 hseat
  started hg := hg.2
  renewed := fun h => h _ rfl
  pass {h t} hinv ht := by
    have hsame : Conduct (T.vouches h) none h.now.state h.now.state := .refl _
    exact hinv.push ht hsame
  passSeen := by
    intro k m t _
    cases k with
    | none => trivial
    | some i => exact ⟨rfl, fun _ _ => rfl⟩
  change hinv hn := hinv.push (Nat.le_refl _) (hchanges _ _ hn).conduct
  changeSeen {k h n} hinv hn := by
    have hchanged : Conduct (T.vouches h) none h.now.state n := (hchanges _ _ hn).conduct
    exact hinv.meanwhile hchanged (.inl rfl)
  safe := by
    intro r h hr hinv
    refine member_safe (fun s key hrole => hcalls s key (hr _ hrole)) hinv

end Terms

/-! ## Beginnings -/

/-- A node that begins: its store is in memory and nothing is interposed; every record and every
    copy is under its own key; no event waits, and no publication was begun. -/
structure Node.Idle (n : Node) : Prop where
  plain : n.Plain
  keyed : n.memoryStore.slots.Keyed
  copied : ∀ x ∈ n.copies, x.2.record.key = x.1
  queued : ∀ i, n.lanes.events i = []
  begun : n.bus.calls = []
  accepted : n.bus.bus.accepted = []

/-- Without events, everything is in line. -/
theorem Node.Idle.inLine {n : Node} (hn : n.Idle) : n.pipeline.InLine := by
  have hline (id : String) : n.pipeline.line id = [] := by
    simp [Pipeline.line, Pipeline.begunAbout, Pipeline.waitingAbout, Node.pipeline, hn.begun,
      hn.queued]
  refine ⟨fun i e he => ?_, fun id => ?_, fun key s hs => ?_, fun e he => ?_, fun id => ?_⟩
  · rw [show n.pipeline.queued i = [] from hn.queued i] at he
    cases he
  · rw [hline]
    exact .nil
  · rw [hline] at hs
    cases hs
  · rw [show n.pipeline.accepted = [] from hn.accepted] at he
    cases he
  · simp [Pipeline.acceptedAbout, Node.pipeline, hn.accepted]

/-- A node that begins fits terms of its kinds under which its copies are vouched for. -/
theorem Node.Idle.inv {T : Terms} {n : Node} (hn : n.Idle) (hkind : n.cacheKind = T.kind)
    (hbus : n.hasBus = T.hasBus)
    (hvouched : ∀ x ∈ n.copies, T.vouches ⟨⟨0, n⟩, []⟩ x.2.record x.2.freshUntil) :
    T.Inv ⟨⟨0, n⟩, []⟩ :=
  ⟨hn.plain, hkind, hbus, hn.inLine, hn.keyed, fun x hx => ⟨hn.copied x hx, hvouched x hx⟩,
    List.pairwise_singleton ..⟩

/-- Circumstances in which a node suffers whatever may happen to it. -/
def Circumstances.rough (calls : Call → Prop) : Circumstances := ⟨calls, Node.Suffers⟩

end SessionCluster
