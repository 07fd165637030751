/-
  Ledgers — which job every ticket stands for, and what its outcome says.

  When a worker has taken a job out of its lane, nothing in the node tells any more what its ticket
  stands for.  The history does: the job waited in a lane at the end of the poll that added it.  So
  the ledger of a node is read off its history (`Issued`), and it is in order (`Ledger`) if no
  ticket was given out twice and every ticket whose outcome is a success stands for a flush, or for
  an event that was published.

  That an event was published is read off the history as well: in some poll the broker took its
  envelope (`Node.Takes`), the bus by accepting it, the server by agreeing to the command that
  appends it.

  * `Node.ledgerPact` — the pact that keeps the ledger in order: callers and drains add jobs under
    fresh tickets, and workers record a success only for what they have published (`Fairly`);
  * `Pact.Lasting`, `Safe.of_respects` — assertions that acts of one kind and waiting leave alone;
    an activity with such acts only needs nothing else;
  * `handed_lasting` — that events have their jobs in the ledger is such an assertion.
-/
import SessionCluster.Proofs.Constancy

namespace SessionCluster

open Activity

/-! ## Assertions that last -/

section

variable {σ τ κ α : Type} {P : Pact σ τ κ} {k : κ} {R : σ → σ → Prop} {A D : Turn σ τ → Prop}

/-- An assertion about turns that are allowed, which acts of one kind, the start of tasks and waiting
    leave alone. -/
structure Pact.Lasting (P : Pact σ τ κ) (k : κ) (R : σ → σ → Prop) (A : Turn σ τ → Prop) :
    Prop where
  allowed : ∀ {g}, A g → P.allows k g
  act : ∀ {g s}, A g → R g.state s → A (g.reach s)
  launch : ∀ {g x}, A g → A (g.launch x)
  resume : ∀ {g h d}, A g → P.Resumes k d g.ended h → A (.fresh h)

/-- **What lasts holds throughout an activity** all of whose acts are of that kind. -/
theorem Safe.of_respects (hA : P.Lasting k R A) (hD : ∀ g, A g → D g) (p : Activity σ τ α) :
    p.Respects R → ∀ {g}, A g → Safe P k D (fun _ => A) p g := by
  induction p with
  | done a => exact fun _ _ hg => hg
  | act u p ih => exact fun hp g hg => ih _ _ (hp _ _).2 (hA.act hg (hp _ _).1)
  | wait r d p ih =>
    intro hp g hg
    refine ⟨hA.allowed hg, fun h hh => ?_⟩
    have hfresh := hA.resume hg hh
    exact ⟨hD _ hfresh, fun _ => ih hp hfresh⟩
  | never => exact fun _ g hg => ⟨hA.allowed hg, fun h hh => hD _ (hA.resume hg hh)⟩
  | spawn x p ih => exact fun hp g hg => ih hp (hA.launch hg)

end

/-! ## What the broker has taken -/

/-- From one state of a node to another, the broker has taken an envelope: the bus has accepted it,
    or the server has agreed to the command that appends it. -/
inductive Node.Takes (n n' : Node) (env : Envelope) : Prop where
  | bus (h : n'.bus.bus.accepted = env :: n.bus.bus.accepted)
  | streams {s : KeyValue.StreamSettings} {text : String} (hs : n'.transport = .streams s)
      (hsent : n'.server.sent = KeyValue.appendCommand s env :: n.server.sent)
      (hreply : KeyValue.textOf (n.server.answer (KeyValue.appendCommand s env)).2 = .ok text)

/-- The broker has taken the envelope of an event, as it leaves the node. -/
def Node.Publishes (n n' : Node) (e : Event) : Prop :=
  n.Takes n' ((Envelope.ofEvent e).withOrigin n.name.text)

/-- The broker took the envelope of an event, between two moments that follow each other. -/
def History.HasPublished (h : History Node) (e : Event) : Prop :=
  ∃ newer m m' older, h.moments = newer ++ m' :: m :: older ∧ m.state.Publishes m'.state e

/-- The event that a job is to publish was published. -/
def History.Covers (h : History Node) (j : Job) : Prop := ∀ e, j.event? = some e → h.HasPublished e

namespace History

variable {h h' : History Node}

/-- What was published stays so. -/
theorem HasPublished.later {e : Event} (he : h.HasPublished e) (hs : h.moments <:+ h'.moments) :
    h'.HasPublished e := by
  obtain ⟨newer, m, m', older, hmoments, htakes⟩ := he
  obtain ⟨newest, hnewest⟩ := hs
  refine ⟨newest ++ newer, m, m', older, ?_, htakes⟩
  rw [← hnewest, hmoments, List.append_assoc]

theorem Covers.later {j : Job} (hj : h.Covers j) (hs : h.moments <:+ h'.moments) : h'.Covers j :=
  fun e he => (hj e he).later hs

/-- What a poll has published. -/
theorem hasPublished_push {m : Moment Node} {e : Event} (hm : h.now.state.Publishes m.state e) :
    (h.push m).HasPublished e := ⟨[], h.now, m, h.past, rfl, hm⟩

end History

/-! ## What others keep -/

/-- What every member of a node can rely on while it waits. -/
structure Node.Upholds (n n' : Node) : Prop where
  settings : n'.settings = n.settings
  ackTimeout : n'.lanes.ackTimeout = n.lanes.ackTimeout
  broker : n.KeepsBus n'

namespace Node.Upholds

variable {n n' n'' : Node}

theorem refl (n : Node) : n.Upholds n := ⟨rfl, rfl, .of_same rfl⟩

theorem trans (h : n.Upholds n') (h' : n'.Upholds n'') : n.Upholds n'' :=
  ⟨h'.settings.trans h.settings, h'.ackTimeout.trans h.ackTimeout, h.broker.trans h'.broker⟩

theorem of_adds (h : n.Adds n') : n.Upholds n' := ⟨h.settings, h.lanes.ackTimeout, h.broker⟩

end Node.Upholds

/-- What may happen to a node from outside.  Its clock, its store and its cache change in any way, and
    so does the broker, but for a bus, which stays one.  Lanes may be closed, and jobs may get lost,
    with failures for the outcomes of their tickets: so it looks when a worker has stopped. -/
structure Node.Suffered (n n' : Node) : Prop where
  upholds : n.Upholds n'
  count : n'.lanes.count = n.lanes.count
  later : n.lanes.nextTicket ≤ n'.lanes.nextTicket
  /-- Jobs may get lost from lanes, but none comes from nowhere. -/
  jobs : ∀ i, ∀ j ∈ n'.lanes.queue i, ∃ k, j ∈ n.lanes.queue k
  /-- No success comes from nowhere. -/
  successes : ∀ t, n'.lanes.result? t = some (.ok ()) → n.lanes.result? t = some (.ok ())

/-! ## Ledgers -/

/-- A job has waited in a lane. -/
def Issued (h : History Node) (j : Job) : Prop :=
  ∃ m ∈ h.moments, ∃ i, j ∈ m.state.lanes.queue i

/-- The ledger is in order. -/
structure Ledger (h : History Node) : Prop where
  lanes : 0 < h.now.state.lanes.count
  /-- No two jobs have the same ticket. -/
  single : ∀ {j j'}, Issued h j → Issued h j' → j.ticket = j'.ticket → j = j'
  /-- Tickets that were given out are spent. -/
  spent : ∀ {j}, Issued h j → j.ticket < h.now.state.lanes.nextTicket
  /-- A success was paid for: the event of its job is published. -/
  paid : ∀ {t}, h.now.state.lanes.result? t = some (.ok ()) →
    ∃ j, Issued h j ∧ j.ticket = t ∧ h.Covers j

/-- To what a poll may bring a node, if it began with this history: it may have added jobs under
    fresh tickets and taken others out, and recorded successes for jobs of the ledger whose events
    it has published. -/
structure Fairly (h : History Node) (n : Node) : Prop where
  upholds : h.now.state.Upholds n
  count : n.lanes.count = h.now.state.lanes.count
  later : h.now.state.lanes.nextTicket ≤ n.lanes.nextTicket
  spent : n.lanes.Spent
  /-- Jobs in lanes are of the ledger, or are new. -/
  jobs : ∀ i, ∀ j ∈ n.lanes.queue i, Issued h j ∨ h.now.state.lanes.nextTicket ≤ j.ticket
  distinct : ∀ {i j k j'}, j ∈ n.lanes.queue i → j' ∈ n.lanes.queue k →
    h.now.state.lanes.nextTicket ≤ j.ticket → j.ticket = j'.ticket → j = j'
  /-- A success is an old one, or was paid for in this poll. -/
  paid : ∀ {t}, n.lanes.result? t = some (.ok ()) → h.now.state.lanes.result? t = some (.ok ()) ∨
    ∃ j, Issued h j ∧ j.ticket = t ∧ ∀ e, j.event? = some e → h.now.state.Publishes n e

section

variable {h h' : History Node} {n n' : Node} {m : Moment Node} {j : Job}

theorem Issued.now {i : Nat} (hj : j ∈ h.now.state.lanes.queue i) : Issued h j :=
  ⟨h.now, List.mem_cons_self .., i, hj⟩

/-- A job was issued before, or is in a lane now. -/
theorem issued_push : Issued (h.push m) j ↔ Issued h j ∨ ∃ i, j ∈ m.state.lanes.queue i := by
  constructor
  · rintro ⟨m', hm', hj⟩
    rcases List.mem_cons.mp hm' with rfl | hm'
    · exact .inr hj
    · exact .inl ⟨m', hm', hj⟩
  · rintro (⟨m', hm', hj⟩ | hj)
    · exact ⟨m', List.mem_cons_of_mem _ hm', hj⟩
    · exact ⟨m, List.mem_cons_self .., hj⟩

/-- The ledger only grows. -/
theorem Issued.continues {f : Moment Node → Moment Node → Prop} (hj : Issued h j)
    (hc : h.Continues f h') : Issued h' j := by
  obtain ⟨m, hm, hj⟩ := hj
  exact ⟨m, hc.mem hm, hj⟩

/-- A poll that begins. -/
theorem Fairly.refl (hh : Ledger h) : Fairly h h.now.state where
  upholds := .refl _
  count := rfl
  later := Nat.le_refl _
  spent _ _ hj := hh.spent (.now hj)
  jobs _ _ hj := .inl (.now hj)
  distinct hj hj' _ heq := hh.single (.now hj) (.now hj') heq
  paid ht := .inl ht

namespace Ledger

/-- **A poll keeps the ledger in order.** -/
theorem poll (hh : Ledger h) (hn : Fairly h n) (t : Nat) : Ledger (h.push ⟨t, n⟩) where
  lanes := by
    show 0 < n.lanes.count
    rw [hn.count]
    exact hh.lanes
  single {j j'} hj hj' heq := by
    rcases issued_push.mp hj with hj | ⟨i, hj⟩ <;> rcases issued_push.mp hj' with hj' | ⟨k, hj'⟩
    · exact hh.single hj hj' heq
    · -- a job in the ledger, and one that waits now
      rcases hn.jobs k j' hj' with hj' | hnew
      · exact hh.single hj hj' heq
      · have hold := hh.spent hj
        omega
    · rcases hn.jobs i j hj with hj | hnew
      · exact hh.single hj hj' heq
      · have hold := hh.spent hj'
        omega
    · rcases hn.jobs i j hj with hi | hnew
      · rcases hn.jobs k j' hj' with hk | hnew
        · exact hh.single hi hk heq
        · have hold := hh.spent hi
          omega
      · exact hn.distinct hj hj' hnew heq
  spent {j} hj := by
    rcases issued_push.mp hj with hj | ⟨i, hj⟩
    · exact Nat.lt_of_lt_of_le (hh.spent hj) hn.later
    · exact hn.spent i j hj
  paid {t} ht := by
    rcases hn.paid ht with hold | ⟨j, hj, hticket, hpublished⟩
    · obtain ⟨j, hj, hticket, hcovers⟩ := hh.paid hold
      exact ⟨j, issued_push.mpr (.inl hj), hticket, hcovers.later (List.suffix_cons _ _)⟩
    · exact ⟨j, issued_push.mpr (.inl hj), hticket,
        fun e he => History.hasPublished_push (hpublished e he)⟩

/-- What happens from outside keeps the ledger in order. -/
theorem suffered (hh : Ledger h) (hn : h.now.state.Suffered n) (t : Nat) :
    Ledger (h.push ⟨t, n⟩) := by
  have hissued : ∀ {j}, Issued (h.push ⟨t, n⟩) j → Issued h j := by
    intro j hj
    rcases issued_push.mp hj with hj | ⟨i, hj⟩
    · exact hj
    · obtain ⟨k, hk⟩ := hn.jobs i j hj
      exact .now hk
  refine ⟨?_, fun hj hj' => hh.single (hissued hj) (hissued hj'), fun hj => ?_, fun ht => ?_⟩
  · show 0 < n.lanes.count
    rw [hn.count]
    exact hh.lanes
  · exact Nat.lt_of_lt_of_le (hh.spent (hissued hj)) hn.later
  · obtain ⟨j, hj, hticket, hcovers⟩ := hh.paid (hn.successes _ ht)
    exact ⟨j, issued_push.mpr (.inl hj), hticket, hcovers.later (List.suffix_cons _ _)⟩

/-- Time passes. -/
theorem pass (hh : Ledger h) (t : Nat) : Ledger (h.push ⟨t, h.now.state⟩) :=
  hh.poll (.refl hh) t

/-- The ledger of lanes that were just made is empty. -/
theorem start {c : LaneSettings} (hn : n.lanes = .make c) : Ledger ⟨⟨0, n⟩, []⟩ := by
  have hnone : ∀ j, ¬ Issued ⟨⟨0, n⟩, []⟩ j := by
    rintro j ⟨m, hm, i, hj⟩
    rw [List.mem_singleton.mp hm] at hj
    show False
    have hempty : n.lanes.queue i = [] := by rw [hn, Lanes.queue_make]
    rw [hempty] at hj
    cases hj
  refine ⟨?_, fun {j _} hj => absurd hj (hnone j), fun {j} hj => absurd hj (hnone j), ?_⟩
  · show 0 < n.lanes.count
    rw [hn]
    show 0 < (Array.replicate (max 1 c.partitions) ([] : List Job)).size
    rw [Array.size_replicate]
    omega
  · intro t ht
    have hempty : n.lanes.results = [] := by rw [hn]; rfl
    have hlookup : n.lanes.results.lookup t = some (.ok ()) := ht
    rw [hempty] at hlookup
    cases hlookup

end Ledger

end

/-! ## The pact -/

/-- The pact that keeps the ledger in order. -/
def Node.ledgerPact : Pact Node Work Unit where
  inv := Ledger
  allows _ g := Fairly g.history g.state
  meanwhile _ m m' := m.state.Upholds m'.state

open Node

/-- The ledger was in order when the poll began, all has been allowed so far, and no success was
    recorded. -/
structure InOrderSoFar (g : Turn Node Work) : Prop where
  ledger : Ledger g.history
  fairly : Fairly g.history g.state
  unpaid : ∀ {t}, g.state.lanes.result? t = some (.ok ()) →
    g.history.now.state.lanes.result? t = some (.ok ())

theorem inOrder_fresh {h : History Node} (hh : Ledger h) : InOrderSoFar (.fresh h) :=
  ⟨hh, .refl hh, id⟩

section

variable {g : Turn Node Work} {n : Node}

/-- Jobs are added, and no outcome is recorded. -/
theorem InOrderSoFar.adds (hg : InOrderSoFar g) (ha : g.state.Adds n) :
    InOrderSoFar (g.reach n) := by
  have hn := hg.fairly
  have hold : ∀ {t}, n.lanes.result? t = some (.ok ()) →
      g.history.now.state.lanes.result? t = some (.ok ()) := by
    -- no outcome is recorded, so an outcome that is there was there before
    intro t ht
    refine hg.unpaid ?_
    unfold Lanes.result? at ht ⊢
    rw [← ha.lanes.results]
    exact ht
  refine ⟨hg.ledger, ⟨hn.upholds.trans (.of_adds ha), ha.lanes.count.trans hn.count,
    Nat.le_trans hn.later ha.lanes.later, ha.lanes.spent hn.spent, ?jobs, ?distinct,
    fun ht => .inl (hold ht)⟩, hold⟩
  case jobs =>
    intro i j hj
    rcases ha.lanes.added i j hj with hj | hnew
    · exact hn.jobs i j hj
    · exact .inr (Nat.le_trans hn.later hnew)
  case distinct =>
    -- a ticket from before belongs to a job from before, and a later one to one that is added
    intro i j k j' hj hj' hnew heq
    by_cases hlast : g.state.lanes.nextTicket ≤ j.ticket
    · exact ha.lanes.distinct hn.spent hj hj' hlast heq
    · have hfirst : j ∈ g.state.lanes.queue i := (ha.lanes.added i j hj).resolve_right hlast
      have hfirst' : j' ∈ g.state.lanes.queue k :=
        (ha.lanes.added k j' hj').resolve_right (by omega)
      exact hn.distinct hfirst hfirst' hnew heq

/-- The worker of a lane takes a job out. -/
theorem InOrderSoFar.take (hg : InOrderSoFar g) (i : Nat) :
    InOrderSoFar (g.reach (g.state.onLanes fun l => l.take i).1) := by
  have hn := hg.fairly
  -- what is in a queue after the taking was there before
  have hsub : ∀ k, ∀ j ∈ (g.state.lanes.take i).1.queue k, j ∈ g.state.lanes.queue k := by
    intro k j hj
    cases hq : g.state.lanes.queue i with
    | nil =>
      unfold Lanes.take at hj
      rw [hq] at hj
      exact hj
    | cons j' rest =>
      rw [Lanes.take_cons hq, Lanes.queue_take hq] at hj
      split at hj
      · rename_i hik
        rw [← hik, hq]
        exact List.mem_cons_of_mem _ hj
      · exact hj
  -- the taking touches the queue and nothing else of the lanes
  have hsame : (g.state.lanes.take i).1.count = g.state.lanes.count ∧
      (g.state.lanes.take i).1.nextTicket = g.state.lanes.nextTicket ∧
        (g.state.lanes.take i).1.results = g.state.lanes.results ∧
          (g.state.lanes.take i).1.ackTimeout = g.state.lanes.ackTimeout := by
    refine ⟨(g.state.lanes.take_events i).1, ?_⟩
    unfold Lanes.take
    cases g.state.lanes.queue i <;> exact ⟨rfl, rfl, rfl⟩
  obtain ⟨hcount, hnext, hresults, hpatience⟩ := hsame
  have hold : ∀ {t}, (g.state.lanes.take i).1.result? t = some (.ok ()) →
      g.history.now.state.lanes.result? t = some (.ok ()) := by
    intro t ht
    refine hg.unpaid ?_
    unfold Lanes.result? at ht ⊢
    rw [← hresults]
    exact ht
  refine ⟨hg.ledger, ⟨⟨hn.upholds.settings, hpatience.trans hn.upholds.ackTimeout,
    hn.upholds.broker.trans (.of_same rfl)⟩, hcount.trans hn.count, ?later, ?spent,
    fun k j hj => hn.jobs k j (hsub k j hj),
    fun {a _ b _} hx hy => hn.distinct (hsub a _ hx) (hsub b _ hy),
    fun ht => .inl (hold ht)⟩, hold⟩
  case later =>
    show _ ≤ (g.state.lanes.take i).1.nextTicket
    rw [hnext]
    exact hn.later
  case spent =>
    intro k j hj
    show j.ticket < (g.state.lanes.take i).1.nextTicket
    rw [hnext]
    exact hn.spent k j (hsub k j hj)

/-- The outcome of a job is recorded, a success only if its event was published in this poll. -/
theorem InOrderSoFar.settle (hg : InOrderSoFar g) {j : Job} (hj : Issued g.history j)
    {r : Except BrokerError Unit}
    (hr : r = .ok () → ∀ e, j.event? = some e → g.history.now.state.Publishes g.state e) :
    Fairly g.history (g.state.onLanes fun l => (l.settle j.ticket r, ())).1 := by
  have hn := hg.fairly
  refine ⟨hn.upholds.trans ⟨rfl, rfl, .of_same rfl⟩, hn.count, hn.later, hn.spent, hn.jobs,
    hn.distinct, ?_⟩
  intro t ht
  have hlookup : (((j.ticket, r) :: g.state.lanes.results).lookup t) = some (.ok ()) := ht
  rw [List.lookup_cons] at hlookup
  by_cases hticket : t = j.ticket
  · subst hticket
    rw [beq_self_eq_true] at hlookup
    refine .inr ⟨j, hj, rfl, fun e he => ?_⟩
    cases hr (Option.some.inj hlookup) e he with
    | bus h => exact .bus h
    | streams hs hsent hreply => exact .streams hs hsent hreply
  · rw [beq_false_of_ne hticket] at hlookup
    exact .inl (hg.unpaid hlookup)

end

theorem inOrder_lasting : ledgerPact.Lasting () Adds InOrderSoFar where
  allowed hg := hg.fairly
  act hg hn := hg.adds hn
  launch hg := ⟨hg.ledger, hg.fairly, hg.unpaid⟩
  resume _ hh := inOrder_fresh hh.inv

/-- The events among some that were handed in have their jobs in the ledger, unless they were
    rejected. -/
structure Handed (pending : PendingAcks) (g : Turn Node Work) : Prop where
  soFar : InOrderSoFar g
  jobs : ∀ e ticket, (e, Ack.queued ticket) ∈ pending → Issued g.ended (.publish e ticket)

theorem handed_nil {g : Turn Node Work} (hg : InOrderSoFar g) : Handed [] g :=
  ⟨hg, fun _ _ h => absurd h List.not_mem_nil⟩

/-- **What was handed in stays in the ledger**, whatever jobs are added and however long one waits. -/
theorem handed_lasting (pending : PendingAcks) :
    ledgerPact.Lasting () Adds (Handed pending) where
  allowed hg := hg.soFar.fairly
  act := by
    intro g n hg hn
    refine ⟨hg.soFar.adds hn, fun e ticket hmem => ?_⟩
    rcases issued_push.mp (hg.jobs e ticket hmem) with hold | ⟨i, hwaits⟩
    · exact issued_push.mpr (.inl hold)
    · exact issued_push.mpr (.inr ⟨i, hn.lanes.kept i _ hwaits⟩)
  launch hg := ⟨inOrder_lasting.launch hg.soFar, hg.jobs⟩
  resume := by
    intro g h d hg hh
    refine ⟨inOrder_fresh hh.inv, fun e ticket hmem => ?_⟩
    exact issued_push.mpr (.inl ((hg.jobs e ticket hmem).continues hh.continues))

end SessionCluster
