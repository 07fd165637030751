/-
  Constancy — what no member of a node changes.

  The members of a process change the store, the cache, the lanes and the broker of their node.
  They leave its settings alone, and how long its lanes let callers wait; and a removal from the
  cache that is over stays over.

  * `Activity.Respects` — every act of an activity relates the states before and after it, with a
    rule for each way to build one;
  * `Node.deliver_respects` and its like — calls on the backends leave the lanes alone
    (`Node.Retains`);
  * `Node.answer_respects` — callers add jobs to the lanes, and take none out (`Node.Adds`);
  * `Role.respects` — everything that runs on a node abides (`Node.Abides`).
-/
import SessionCluster.Proofs.LaneJobs
import SessionCluster.Proofs.Processes

namespace SessionCluster

/-! ## Acts -/

namespace Activity

variable {σ τ α β : Type} {R : σ → σ → Prop}

/-- Whether every act of an activity relates the states before and after it. -/
def Respects (R : σ → σ → Prop) : Activity σ τ α → Prop
  | .done _ => True
  | .act u k => ∀ t s, R s (u t s) ∧ Respects R (k t s)
  | .wait _ _ k => Respects R k
  | .never => True
  | .spawn _ k => Respects R k

namespace Respects

theorem done (a : α) : (.done a : Activity σ τ α).Respects R := trivial

/-- An activity that respects a relation respects all that it implies. -/
theorem mono {R' : σ → σ → Prop} (hR : ∀ {s s'}, R s s' → R' s s') {p : Activity σ τ α}
    (hp : p.Respects R) : p.Respects R' := by
  induction p with
  | done a => trivial
  | act u k ih => exact fun t s => ⟨hR (hp t s).1, ih t s (hp t s).2⟩
  | wait r d k ih => exact ih hp
  | never => trivial
  | spawn x k ih => exact ih hp

theorem step {f : σ → σ × α} (h : ∀ s, R s (f s).1) : (.step f : Activity σ τ α).Respects R :=
  fun _ s => ⟨h s, trivial⟩

theorem stepAt {f : Nat → σ → σ × α} (h : ∀ t s, R s (f t s).1) :
    (.stepAt f : Activity σ τ α).Respects R :=
  fun t s => ⟨h t s, trivial⟩

/-- Activities in a row respect what each of them does. -/
theorem bind {p : Activity σ τ α} {f : α → Activity σ τ β} (hp : p.Respects R)
    (hf : ∀ a, (f a).Respects R) : (p.bind f).Respects R := by
  induction p with
  | done a => exact hf a
  | act u k ih => exact fun t s => ⟨(hp t s).1, ih t s (hp t s).2⟩
  | wait r d k ih => exact ih hp
  | never => trivial
  | spawn x k ih => exact ih hp

theorem ofProgram {Q : Type} {A : Q → Type} {answer : (q : Q) → Activity σ τ (A q)}
    (h : ∀ q, (answer q).Respects R) (p : Program A α) : (ofProgram answer p).Respects R := by
  induction p with
  | done a => trivial
  | ask q next ih => exact bind (h q) ih

section

variable (hrefl : ∀ s, R s s)

include hrefl

theorem read (f : σ → α) : (.read f : Activity σ τ α).Respects R := fun _ s => ⟨hrefl s, trivial⟩

theorem tick : (.tick : Activity σ τ Nat).Respects R := fun _ s => ⟨hrefl s, trivial⟩

theorem sleepTicks (n : Nat) : (.sleepTicks n : Activity σ τ Unit).Respects R :=
  bind (tick hrefl) fun _ => trivial

/-- A time limit gives an activity up, and does nothing that it does not. -/
theorem withinTick {p : Activity σ τ α} (t : Nat) (hp : p.Respects R) :
    (p.withinTick t).Respects R := by
  induction p with
  | done a => trivial
  | act u k ih => exact fun n s => ⟨(hp n s).1, ih n s (hp n s).2⟩
  | wait r d k ih =>
    intro n s
    refine ⟨hrefl s, ?_⟩
    dsimp only
    split
    · exact ih hp
    · trivial
  | never => trivial
  | spawn x k ih => exact ih hp

theorem within {p : Activity σ τ α} (limit : Span) (hp : p.Respects R) :
    (p.within limit).Respects R :=
  bind (tick hrefl) fun _ => withinTick hrefl _ hp

/-- A poll relates the states before and after it, and so does what is left. -/
theorem poll (htrans : ∀ {s s' s''}, R s s' → R s' s'' → R s s'') {p : Activity σ τ α}
    (hp : p.Respects R) :
    ∀ e, R e.after (p.poll e).1.after ∧ (p.poll e).2.Respects R := by
  induction p with
  | done a => exact fun e => ⟨hrefl _, trivial⟩
  | act u k ih =>
    intro e
    obtain ⟨hu, hk⟩ := hp e.tick e.after
    obtain ⟨hpoll, hrest⟩ := ih _ _ hk { e with after := u e.tick e.after }
    exact ⟨htrans hu hpoll, hrest⟩
  | wait r d k => exact fun e => ⟨hrefl _, hp⟩
  | never => exact fun e => ⟨hrefl _, trivial⟩
  | spawn x k ih => exact fun e => ih hp { e with started := e.started ++ [x] }

end

end Respects

end Activity

/-! ## Nodes -/

/-- A bus stays a bus. -/
def Node.KeepsBus (n n' : Node) : Prop :=
  ∀ b, n.transport = .bus b → ∃ b', n'.transport = .bus b'

namespace Node.KeepsBus

variable {n n' n'' : Node}

theorem of_same (h : n'.transport = n.transport) : n.KeepsBus n' := fun b hb => ⟨b, h.trans hb⟩

theorem trans (h : n.KeepsBus n') (h' : n'.KeepsBus n'') : n.KeepsBus n'' := by
  intro b hb
  obtain ⟨b', hb'⟩ := h b hb
  exact h' b' hb'

end Node.KeepsBus

/-- What calls on the backends leave as it is: everything but the backends and what is interposed
    before them; and a bus stays a bus. -/
structure Node.Retains (n n' : Node) : Prop where
  settings : n'.settings = n.settings
  lanes : n'.lanes = n.lanes
  eventCount : n'.eventCount = n.eventCount
  forgotten : n'.forgotten = n.forgotten
  /-- A bus stays a bus. -/
  broker : n.KeepsBus n'

namespace Node.Retains

/-- Changes of other backends. -/
theorem of_same {n n' : Node} (hs : n'.settings = n.settings) (hl : n'.lanes = n.lanes)
    (hc : n'.eventCount = n.eventCount) (hf : n'.forgotten = n.forgotten)
    (ht : n'.transport = n.transport) : n.Retains n' :=
  ⟨hs, hl, hc, hf, .of_same ht⟩

theorem refl (n : Node) : n.Retains n := .of_same rfl rfl rfl rfl rfl

theorem onMemoryStore {α : Type} (f : MemoryStore → MemoryStore × α) (n : Node) :
    n.Retains (n.onMemoryStore f).1 := by
  unfold Node.onMemoryStore
  split
  · exact .of_same rfl rfl rfl rfl rfl
  · exact .refl n

theorem onMemoryCache {α : Type} (f : MemoryCache → MemoryCache × α) (n : Node) :
    n.Retains (n.onMemoryCache f).1 := by
  unfold Node.onMemoryCache
  split
  · exact .of_same rfl rfl rfl rfl rfl
  · exact .refl n
  · exact .refl n

theorem onBus {α : Type} (f : RehearsedBus → RehearsedBus × α) (n : Node) :
    n.Retains (n.onBus f).1 := by
  unfold Node.onBus
  split
  · exact ⟨rfl, rfl, rfl, rfl, fun _ _ => ⟨_, rfl⟩⟩
  · exact .refl n

theorem takeInterposition (kind : StoreCallKind) (n : Node) :
    n.Retains (n.takeInterposition kind).1 := by
  unfold Node.takeInterposition
  split
  · exact .refl n
  · exact .of_same rfl rfl rfl rfl rfl

end Node.Retains

/-- What callers and drains do to a node: they add jobs to its lanes, use its backends, and give
    numbers out. -/
structure Node.Adds (n n' : Node) : Prop where
  settings : n'.settings = n.settings
  /-- Lanes get jobs, and lose none. -/
  lanes : n.lanes.Adds n'.lanes
  /-- What was removed from the cache stays marked. -/
  forgotten : ∀ ticket ∈ n.forgotten, ticket ∈ n'.forgotten
  broker : n.KeepsBus n'

namespace Node.Adds

variable {n n' n'' : Node}

theorem of_retains (h : n.Retains n') : n.Adds n' :=
  ⟨h.settings, .of_eq h.lanes, fun _ hx => h.forgotten ▸ hx, h.broker⟩

theorem refl (n : Node) : n.Adds n := .of_retains (.refl n)

theorem trans (h : n.Adds n') (h' : n'.Adds n'') : n.Adds n'' :=
  ⟨h'.settings.trans h.settings, h.lanes.trans h'.lanes,
    fun x hx => h'.forgotten x (h.forgotten x hx), h.broker.trans h'.broker⟩

/-- Changes of what is neither of the settings, the lanes and the broker. -/
theorem of_same (hs : n'.settings = n.settings) (hl : n'.lanes = n.lanes)
    (hf : ∀ ticket ∈ n.forgotten, ticket ∈ n'.forgotten) (ht : n'.transport = n.transport) :
    n.Adds n' :=
  ⟨hs, .of_eq hl, hf, .of_same ht⟩

theorem onLanes {α : Type} {f : Lanes → Lanes × α} (h : ∀ l : Lanes, l.Adds (f l).1) (n : Node) :
    n.Adds (n.onLanes f).1 :=
  ⟨rfl, h _, fun _ hx => hx, .of_same rfl⟩

theorem identify (c : Change) (n : Node) : n.Adds (n.identify c).1 :=
  .of_same rfl rfl (fun _ hx => hx) rfl

/-- The mark of a removal that is over. -/
theorem markForgotten (ticket : Nat) (n : Node) : n.Adds (n.markForgotten ticket).1 :=
  .of_same rfl rfl (fun _ hx => List.mem_cons_of_mem _ hx) rfl

theorem offer (e : Event) (n : Node) : n.Adds (n.onLanes fun l => l.offer e).1 :=
  .onLanes (fun l => .offer l e) n

end Node.Adds

/-- What no member of a node changes: its settings, and how long its lanes let callers wait; and a
    removal that is over stays over. -/
structure Node.Abides (n n' : Node) : Prop where
  settings : n'.settings = n.settings
  ackTimeout : n'.lanes.ackTimeout = n.lanes.ackTimeout
  forgotten : ∀ ticket ∈ n.forgotten, ticket ∈ n'.forgotten

namespace Node.Abides

variable {n n' n'' : Node}

theorem refl (n : Node) : n.Abides n := ⟨rfl, rfl, fun _ h => h⟩

theorem trans (h : n.Abides n') (h' : n'.Abides n'') : n.Abides n'' :=
  ⟨h'.settings.trans h.settings, h'.ackTimeout.trans h.ackTimeout,
    fun x hx => h'.forgotten x (h.forgotten x hx)⟩

/-- Changes of everything but the settings, the lanes and the list of removals. -/
theorem of_same (hs : n'.settings = n.settings) (hl : n'.lanes = n.lanes)
    (hf : n'.forgotten = n.forgotten) : n.Abides n' :=
  ⟨hs, by rw [hl], fun _ hx => hf ▸ hx⟩

/-- Whoever leaves all of that alone abides. -/
theorem of_retains (h : n.Retains n') : n.Abides n' := .of_same h.settings h.lanes h.forgotten

/-- Whoever adds jobs abides. -/
theorem of_adds (h : n.Adds n') : n.Abides n' :=
  ⟨h.settings, h.lanes.ackTimeout, h.forgotten⟩

/-- A change of the lanes that leaves the patience of callers alone. -/
theorem onLanes {α : Type} {f : Lanes → Lanes × α}
    (h : ∀ l, (f l).1.ackTimeout = l.ackTimeout) (n : Node) : n.Abides (n.onLanes f).1 :=
  ⟨rfl, h _, fun _ hx => hx⟩

end Node.Abides

namespace Node

open Activity

/-! ## Calls on the backends -/

theorem delay_respects {R : Node → Node → Prop} (hrefl : ∀ n, R n n) (millis : Nat) :
    (delay millis).Respects R := by
  unfold delay
  split
  · exact .done ()
  · exact .sleepTicks hrefl _

theorem query_respects {α : Type} (q : Table.Query α) : (query q).Respects Retains := by
  refine .ofProgram (fun s => .step fun n => ?_) q
  cases n.store with
  | table t => exact .of_same rfl rfl rfl rfl rfl
  | memory m => exact .refl n

theorem callStore_respects (c : StoreCall) : (callStore c).Respects Retains := by
  refine .bind (.read .refl _) fun store => ?_
  cases store with
  | table t => exact query_respects _
  | memory m => exact .bind (delay_respects .refl _) fun _ => .step (.onMemoryStore _)

/-- Writes in between, one after another, keep what is kept. -/
theorem churnFrom_respects (key : SessionKey) (left : Nat) :
    ∀ (i : Nat) (r : Record), (churnFrom key left i r).Respects Retains := by
  induction left with
  | zero => exact fun i r => .done _
  | succ left ih =>
    intro i r
    refine .bind (callStore_respects _) fun o => ?_
    split
    · exact ih _ _
    · exact .done _

theorem churn_respects (key : SessionKey) (k : Nat) : (churn key k).Respects Retains := by
  refine .bind (callStore_respects _) fun o => ?_
  split
  · exact churnFrom_respects _ _ _ _
  · exact .done _

theorem storeStep_respects (s : StoreStep) : (storeStep s).Respects Retains := by
  cases s with
  | call c => exact .bind (callStore_respects c) fun _ => .done _
  | setUnavailable b => exact .step (.onMemoryStore _)
  | setLatency millis => exact .step (.onMemoryStore _)
  | churn key k => exact .bind (churn_respects key k) fun _ => .done _

theorem storeSteps_respects (ss : List StoreStep) : (storeSteps ss).Respects Retains := by
  induction ss with
  | nil => exact .done ()
  | cons s ss ih => exact .bind (storeStep_respects s) fun _ => ih

/-- A call that others come before keeps what they and it keep. -/
theorem interposed_respects (c : StoreCall) : (interposed c).Respects Retains := by
  refine .bind (.step (.takeInterposition _)) fun h => ?_
  cases h with
  | none => exact callStore_respects c
  | some h =>
    refine .bind (storeSteps_respects _) fun _ => .bind (delay_respects .refl _) fun _ => ?_
    cases h.failure with
    | none => exact callStore_respects c
    | some f => exact .done _

theorem exchange_respects {α : Type} (e : KeyValue.Exchange α) : (exchange e).Respects Retains :=
  .ofProgram (fun _ => .step fun _ => .of_same rfl rfl rfl rfl rfl) e

theorem callCache_respects (q : CacheCall) : (callCache q).Respects Retains := by
  refine .bind (.read .refl _) fun cache => ?_
  cases cache with
  | absent => exact .done _
  | server space => exact exchange_respects _
  | memory c => exact .bind (delay_respects .refl _) fun _ => .stepAt fun _ => .onMemoryCache _

/-- Sending an envelope changes the transport and nothing that is kept. -/
theorem transmit_respects (e : Envelope) : (transmit e).Respects Retains := by
  refine .bind (.read .refl _) fun transport => ?_
  cases transport with
  | streams s => exact exchange_respects _
  | bus b =>
    refine .bind (.stepAt fun _ => .onBus _) fun how => ?_
    refine .bind (delay_respects .refl _) fun _ => ?_
    dsimp only
    split
    · trivial
    · split
      · exact .done _
      · exact .step (.onBus _)

/-- So do all attempts to deliver it. -/
theorem deliver_respects (e : Envelope) : (deliver e).Respects Retains := by
  refine .bind (.read .refl _) fun backoff => ?_
  cases backoff with
  | none => exact transmit_respects e
  | some b =>
    refine .ofProgram (fun q => ?_) _
    cases q with
    | attempt => exact .within .refl _ (transmit_respects e)
    | pause d => exact .sleepTicks .refl _

/-! ## Answers -/

theorem identifyAll_respects (cs : List Change) : (identifyAll cs).Respects Adds := by
  induction cs with
  | nil => exact .done _
  | cons c cs ih =>
    exact .bind (.step (.identify c)) fun _ => .bind ih fun _ => .done _

theorem enqueue_respects (es : List Event) : (enqueue es).Respects Adds := by
  induction es with
  | nil => exact .done _
  | cons e es ih =>
    exact .bind (.step (.offer e)) fun _ => .bind ih fun _ => .done _

/-- Handing in events is one poll. -/
theorem poll_enqueue (es : List Event) : ∀ e : Poll Node Work,
    (enqueue es).poll e =
      ({ e with after := { e.after with lanes := (e.after.lanes.offerAll es).1 } },
        .done (e.after.lanes.offerAll es).2) := by
  induction es with
  | nil => exact fun e => rfl
  | cons ev es ih => exact fun e => poll_bind (ih _)

theorem warningsBy_respects (deadline : Nat) (pending : PendingAcks) :
    (warningsBy deadline pending).Respects Retains := by
  induction pending with
  | nil => exact .done _
  | cons x rest ih => exact .bind (.read .refl _) fun _ => .bind ih fun _ => .done _

theorem warnings_respects (pending : PendingAcks) : (warnings pending).Respects Retains :=
  .bind (.read .refl _) fun _ => .bind (.tick .refl) fun _ => warningsBy_respects _ _

theorem forgetWithin_respects (limit : Span) (key : SessionKey) :
    (forgetWithin limit key).Respects Retains :=
  .bind (.within .refl _ (callCache_respects _)) fun _ => .done _

/-- No answer of a node takes anything away from its lanes. -/
theorem answer_respects (storeLimit cacheLimit : Span) (q : Request) :
    (answer storeLimit cacheLimit q).Respects Adds := by
  cases q with
  | now => exact .stepAt fun _ => .refl
  | store c => exact .within .refl _ ((interposed_respects c).mono .of_retains)
  | cached key =>
    refine .bind (.within .refl _ ((callCache_respects _).mono .of_retains)) fun x => ?_
    split <;> exact .done _
  | cache r freshFor =>
    exact .bind (.within .refl _ ((callCache_respects _).mono .of_retains)) fun _ => .done _
  | announce earlier own =>
    refine .bind (identifyAll_respects _) fun _ => ?_
    refine .bind (.step (.identify own)) fun _ => ?_
    exact .bind (enqueue_respects _) fun _ => .done _
  | beginForget key =>
    exact .bind (.step fun _ => .of_same rfl rfl (fun _ hx => hx) rfl) fun _ => trivial
  | forgotten ticket => trivial
  | forget key => exact (forgetWithin_respects _ _).mono .of_retains
  | warnings pending => exact (warnings_respects pending).mono .of_retains

/-! ## Tasks -/

theorem Abides.take (i : Nat) (n : Node) : n.Abides (n.onLanes fun l => l.take i).1 := by
  refine .onLanes (fun l => ?_) n
  unfold Lanes.take
  split <;> rfl

theorem doJob_respects (j : Job) : (doJob deliver j).Respects Abides := by
  cases j with
  | publish e ticket =>
    refine .bind (.read .refl _) fun _ => .bind ((deliver_respects _).mono .of_retains) fun _ => ?_
    exact .step (.onLanes fun _ => rfl)
  | flush ticket => exact .step (.onLanes fun _ => rfl)

theorem laneTurn_respects (i : Nat) : (laneTurn deliver i).Respects Abides := by
  refine .bind (.step (.take i)) fun j => ?_
  cases j with
  | none => exact .done _
  | some j => exact .bind (doJob_respects j) fun _ => .done _

theorem operation_respects {α : Type} (storeLimit cacheLimit : Span) (p : Operation α) :
    (ofProgram (answer storeLimit cacheLimit) p).Respects Adds :=
  .ofProgram (answer_respects _ _) p

theorem sweep_respects : sweep.Respects Adds :=
  .bind (.read .refl _) fun _ => operation_respects _ _ _

/-- Neither does a turn of the sweeper. -/
theorem sweeperTurn_respects (s : RunningSweeper) : (sweeperTurn s).Respects Adds := by
  refine .bind (.stepAt fun _ => .refl) fun deadline => ?_
  refine .bind (.stepAt fun _ => .refl) fun (wake, s) => ?_
  cases wake with
  | none => exact .done _
  | some w =>
    dsimp only
    split
    · exact .done _
    · exact .bind (.bind sweep_respects fun _ => .done _) fun _ => .done _
    · exact .bind (.step fun _ => .of_same rfl rfl (fun _ hx => hx) rfl) fun _ => .done _

theorem sweeperBegin_respects : sweeperBegin.Respects Adds := by
  refine .stepAt fun t n => ?_
  split
  · exact .of_same rfl rfl (fun _ hx => hx) rfl
  · exact .refl n

theorem forgetTurn_respects (key : SessionKey) (ticket : Nat) :
    (forgetTurn key ticket).Respects Adds := by
  refine .bind (.read .refl _) fun _ => ?_
  refine .bind ((forgetWithin_respects _ _).mono .of_retains) fun _ => ?_
  exact .bind (.step (.markForgotten ticket)) fun _ => .done _

end Node

/-- **Everything that runs on a node abides by it.** -/
theorem Role.respects (r : Role) : r.activity.Respects Node.Abides := by
  cases r with
  | call c => exact (Node.operation_respects _ _ _).mono .of_adds
  | task w =>
    cases w with
    | lane i => exact Node.laneTurn_respects i
    | forget key ticket => exact (Node.forgetTurn_respects key ticket).mono .of_adds
    | sweeperStart => exact Node.sweeperBegin_respects.mono .of_adds
    | sweeper s => exact (Node.sweeperTurn_respects s).mono .of_adds

end SessionCluster
