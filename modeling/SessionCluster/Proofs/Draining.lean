/-
  Draining — lanes that are drained lose nothing.

  A drain closes the lanes, puts a flush into every one of them, first where there is room, and
  waits until all flushes have come through.  Meanwhile workers work, other drains put their own
  flushes into the lanes, and whoever hands events in is refused.

  * `Node.Ends` — what holds when a drain has finished, which relies on what happens to lanes in the
    course of time;
  * `Node.drain_ends` — when a drain answers that all went well, every lane is through;
  * `Dispatcher.Orderly` — the invariant, kept by every step (`Orderly.step`);
  * `drain_loses_nothing` — **from the call of a drain on nothing is accepted, and when it answers
    well, the publisher was called for everything that was accepted, and each event is answered as
    the publisher answered** (`Dispatcher.DrainsWell`).
-/
import SessionCluster.Proofs.Dispatching

namespace SessionCluster

namespace Node

open Activity

variable {α β : Type}

/-! ## Drains -/

/-- What the workers of the lanes have in hand. -/
abbrev Hands := Nat → Option Job

/-- What has to hold of an activity, with a node and what the workers have in hand, for each of its
    acts to be something that happens in the course of time, and for it to finish in `Q`. -/
def Ends (Q : α → Node → Hands → Prop) : Act α → Node → Hands → Prop
  | .done a, n, hands => Q a n hands
  | .act u k, n, hands =>
    ∀ t, Stock.Later ⟨n.lanes, hands⟩ ⟨(u t n).lanes, hands⟩ ∧ Ends Q (k t n) (u t n) hands
  | .wait r d k, n, hands =>
    ∀ t n' hands', Stock.Later ⟨n.lanes, hands⟩ ⟨n'.lanes, hands'⟩ →
      (r n' || reached d t) = true → Ends Q k n' hands'
  | .never, _, _ => True
  | .spawn _ k, n, hands => Ends Q k n hands

namespace Ends

/-- What holds at the end may be weakened. -/
theorem mono {Q Q' : α → Node → Hands → Prop} (hQ : ∀ a n hands, Q a n hands → Q' a n hands)
    {p : Act α} : ∀ {n hands}, Ends Q p n hands → Ends Q' p n hands := by
  induction p with
  | done a => exact fun {n hands} h => hQ a n hands h
  | act u k ih => exact fun h t => ⟨(h t).1, ih t _ (h t).2⟩
  | wait r d k ih => exact fun h t n' hands' hl hgo => ih (h t n' hands' hl hgo)
  | never => exact fun h => h
  | spawn x k ih => exact fun h => ih h

/-- Activities in a row: the end of the first is the beginning of the second. -/
theorem bind {Q : β → Node → Hands → Prop} {p : Act α} {f : α → Act β} :
    ∀ {n hands}, Ends (fun a => Ends Q (f a)) p n hands → Ends Q (p.bind f) n hands := by
  induction p with
  | done a => exact fun h => h
  | act u k ih => exact fun h t => ⟨(h t).1, ih t _ (h t).2⟩
  | wait r d k ih => exact fun h t n' hands' hl hgo => ih (h t n' hands' hl hgo)
  | never => exact fun h => h
  | spawn x k ih => exact fun h => ih h

theorem read {Q : α → Node → Hands → Prop} {f : Node → α} {n : Node} {hands : Hands}
    (h : Q (f n) n hands) : Ends Q (.read f) n hands := fun _ => ⟨.refl _, h⟩

/-- A time limit ends in giving up, or as without it. -/
theorem withinTick {Q : Option α → Node → Hands → Prop} (hnone : ∀ n hands, Q none n hands)
    (t : Nat) {p : Act α} :
    ∀ {n hands}, Ends (fun a => Q (some a)) p n hands → Ends Q (p.withinTick t) n hands := by
  induction p with
  | done a => exact fun h => h
  | act u k ih => exact fun h t' => ⟨(h t').1, ih t' _ (h t').2⟩
  | wait r d k ih =>
    intro n hands h _ n' hands' hl _ t'
    refine ⟨.refl _, ?_⟩
    show Ends Q (if r n' || reached d t' then k.withinTick t else .done none) n' hands'
    split
    · rename_i hgo
      exact ih (h t' n' hands' hl hgo)
    · exact hnone n' hands'
  | never => exact fun _ _ n' hands' _ _ => hnone n' hands'
  | spawn x k ih => exact fun h => ih h

theorem within {Q : Option α → Node → Hands → Prop} (hnone : ∀ n hands, Q none n hands)
    (limit : Span) {p : Act α} {n : Node} {hands : Hands}
    (h : Ends (fun a => Q (some a)) p n hands) : Ends Q (p.within limit) n hands :=
  fun _ => ⟨.refl _, withinTick hnone _ h⟩

/-- A poll is something that happens in the course of time. -/
theorem poll {Q : α → Node → Hands → Prop} {hands : Hands} {p : Act α} :
    ∀ e : Poll Node Work, Ends Q p e.after hands →
      Stock.Later ⟨e.after.lanes, hands⟩ ⟨(p.poll e).1.after.lanes, hands⟩ ∧
        Ends Q (p.poll e).2 (p.poll e).1.after hands := by
  induction p with
  | done a => exact fun e h => ⟨.refl _, h⟩
  | act u k ih =>
    intro e h
    obtain ⟨hact, hk⟩ := h e.tick
    obtain ⟨hpoll, hrest⟩ := ih _ _ { e with after := u e.tick e.after } hk
    exact ⟨hact.trans hpoll, hrest⟩
  | wait r d k => exact fun e h => ⟨.refl _, h⟩
  | never => exact fun e h => ⟨.refl _, h⟩
  | spawn x k ih => exact fun e h => ih { e with started := e.started ++ [x] } h

/-- An activity at rest may have to wait longer. -/
theorem later {Q : α → Node → Hands → Prop} {p : Act α} {n n' : Node} {hands hands' : Hands}
    (hp : p.atRest = true) (h : Ends Q p n hands)
    (hl : Stock.Later ⟨n.lanes, hands⟩ ⟨n'.lanes, hands'⟩)
    (hkept : ∀ a, Q a n hands → Q a n' hands') : Ends Q p n' hands' := by
  cases p with
  | done a => exact hkept a h
  | wait r d k => exact fun t n'' hands'' hl' => h t n'' hands'' (hl.trans hl')
  | never => trivial
  | act u k => cases hp
  | spawn x k => cases hp

end Ends

end Node

/-- Closed lanes, some of them with marks. -/
structure Stock.Marked (marks : List (Nat × Nat)) (count : Nat) (k : Stock) : Prop where
  numbered : k.Numbered
  /-- So nothing more is accepted. -/
  closed : k.lanes.closed = true
  count : k.lanes.count = count
  /-- Each mark stands behind what was accepted, or its lane is through. -/
  marks : ∀ x ∈ marks, k.Marks x.1 x.2

theorem Stock.Marked.later {marks : List (Nat × Nat)} {count : Nat} {k k' : Stock}
    (h : k.Marked marks count) (hl : k.Later k') : k'.Marked marks count where
  numbered := hl.numbered h.numbered
  closed := hl.closed h.closed
  count := hl.count.trans h.count
  marks x hx := hl.marks h.closed h.numbered x.1 x.2 (h.marks x hx)

/-- Every lane is through, and accepts nothing. -/
structure Stock.Through (k : Stock) : Prop where
  closed : k.lanes.closed = true
  nothing : ∀ i, i < k.lanes.count → k.pending i = []

theorem Stock.Through.later {k k' : Stock} (h : k.Through) (hl : k.Later k') : k'.Through where
  closed := hl.closed h.closed
  nothing i hi := hl.through h.closed i (h.nothing i (hl.count ▸ hi))

namespace Node

open Activity

/-- Putting flushes into closed lanes leaves a mark on each of them. -/
theorem flushLanes_ends {count : Nat} (is : List Nat) :
    ∀ {n : Node} {hands : Hands} {marks : List (Nat × Nat)},
      Stock.Marked marks count ⟨n.lanes, hands⟩ → (∀ i ∈ is, i < count) →
        Ends (fun ts n hands => ∃ new : List (Nat × Nat), new.map Prod.fst = is ∧
          new.map Prod.snd = ts ∧ Stock.Marked (marks ++ new) count ⟨n.lanes, hands⟩)
          (flushLanes is) n hands := by
  induction is with
  | nil =>
    intro n hands marks h _
    refine ⟨[], rfl, rfl, ?_⟩
    rw [List.append_nil]
    exact h
  | cons i is ih =>
    intro n hands marks h hlt _ n' hands' hl _
    have h' := h.later hl
    -- this lane's flush is the last in its queue, and its ticket is the mark
    have hpush := Stock.Later.pushFlush ⟨n'.lanes, hands'⟩ i
    have hi : i < n'.lanes.count := by
      rw [h'.count]
      exact hlt i (List.mem_cons_self ..)
    have hmarked : Stock.Marked (marks ++ [(i, (n'.lanes.pushFlush i).2)]) count
        ⟨(n'.lanes.pushFlush i).1, hands'⟩ := by
      -- marks of the other lanes outlast a push into this one
      refine { h'.later hpush with marks := fun x hx => ?_ }
      rcases List.mem_append.mp hx with hx | hx
      · exact (h'.later hpush).marks x hx
      · rw [List.mem_singleton.mp hx]
        exact Stock.Later.marks_pushFlush h'.numbered hi
    -- the rest of the lanes, with this mark kept among the new ones
    refine Ends.bind fun _ => ⟨hpush, ?_⟩
    refine Ends.bind (Ends.mono ?_ (ih hmarked fun i hi => hlt i (List.mem_cons_of_mem _ hi)))
    rintro ts n'' hands'' ⟨new, rfl, rfl, hall⟩
    refine ⟨(i, (n'.lanes.pushFlush i).2) :: new, rfl, rfl, ?_⟩
    rw [List.append_cons]
    exact hall

theorem mem_lanesByRoom {n : Node} {i : Nat} :
    i ∈ (lanesByRoom n).1 ∨ i ∈ (lanesByRoom n).2 ↔ i < n.lanes.count :=
  List.mem_partition.symm.trans List.mem_range

/-- When flushes have come through all closed lanes, every lane is through. -/
theorem flush_ends {n : Node} {hands : Hands}
    (h : Stock.Marked [] n.lanes.count ⟨n.lanes, hands⟩) :
    Ends (fun _ n hands => Stock.Through ⟨n.lanes, hands⟩) flush n hands := by
  refine Ends.bind (Ends.read ?_)
  -- first the lanes with room, and then the others
  refine Ends.bind (Ends.mono ?_ (flushLanes_ends _ h fun i hi => mem_lanesByRoom.mp (.inl hi)))
  rintro first n₁ hands₁ ⟨new, hnew, rfl, h₁⟩
  refine Ends.bind (Ends.mono ?_ (flushLanes_ends _ h₁ fun i hi => mem_lanesByRoom.mp (.inr hi)))
  rintro rest n₂ hands₂ ⟨new', hnew', rfl, h₂⟩
  intro t n₃ hands₃ hl hgo
  have h₃ := h₂.later hl
  have hall : ∀ x ∈ new ++ new', (n₃.lanes.result? x.2).isSome = true := by
    intro x hx
    rw [Bool.or_eq_true] at hgo
    rcases hgo with hgo | hlate
    · rw [← List.map_append, List.all_eq_true] at hgo
      exact hgo x.2 (List.mem_map_of_mem hx)
    · cases hlate
  refine ⟨h₃.closed, fun i hi => ?_⟩
  have hmem : i ∈ (new ++ new').map Prod.fst := by
    rw [List.map_append, hnew, hnew', List.mem_append]
    exact mem_lanesByRoom.mpr (h₃.count ▸ hi)
  obtain ⟨x, hx, rfl⟩ := List.mem_map.mp hmem
  exact (h₃.marks x hx).through_of_result (hall x hx)

/-- **When a drain answers that all went well, every lane is through**, whatever others do. -/
theorem drain_ends (d : Span) {n : Node} {hands : Hands} (hn : Stock.Numbered ⟨n.lanes, hands⟩) :
    Ends (fun r n hands => r = .ok () → Stock.Through ⟨n.lanes, hands⟩) (drain d) n hands := by
  have hclose := Stock.Later.close ⟨n.lanes, hands⟩
  have hclosed : Stock.Marked [] n.lanes.count ⟨n.lanes.close, hands⟩ :=
    ⟨hclose.numbered hn, rfl, rfl, fun _ hx => absurd hx List.not_mem_nil⟩
  refine Ends.bind fun _ => ⟨hclose, ?_⟩
  refine Ends.bind (Ends.within (fun _ _ hr => by cases hr) d ?_)
  exact Ends.mono (fun _ _ _ h _ => h) (flush_ends hclosed)

end Node

namespace Node

open Activity

/-! ## Closed lanes -/

/-- Closed lanes reject whatever is handed in, in a poll that changes nothing. -/
theorem poll_enqueue_closed {n : Node} (hc : n.lanes.closed = true) (es : List Event) (t : Nat) :
    (enqueue es).poll (.fresh t n) =
      (.fresh t n, .done (es.map fun e => (e, .rejected .closed))) := by
  rw [poll_enqueue]
  show ({ Poll.fresh t n with after := { n with lanes := (n.lanes.offerAll es).1 } },
    Activity.done (n.lanes.offerAll es).2) = _
  rw [Lanes.offerAll_closed hc]
  rfl

section

variable (body : Work → Task Node Work)

/-- A machine goes on at once with what comes after an activity that finishes in a poll. -/
theorem advance_poll {p : Act α} {a : α} {e' : Poll Node Work} :
    ∀ {e : Poll Node Work} {m : Machine Node Work}, e.tick = m.now → e.after = m.world →
      p.poll e = (e', .done a) →
        ∃ m' : Machine Node Work, m'.world = e'.after ∧
          ∀ f : α → Act β, Machine.advance body (p.bind f) m = Machine.advance body (f a) m' := by
  induction p with
  | done x =>
    rintro e m _ hw ⟨⟩
    exact ⟨m, hw.symm, fun _ => rfl⟩
  -- an act changes the world of the machine as it changes the node of the poll
  | act u k ih =>
    rintro ⟨t, before, s, xs⟩ m rfl rfl hpoll
    have hnow := Machine.wake_now { m with world := u m.now m.world }
    have hworld := Machine.wake_world { m with world := u m.now m.world }
    obtain ⟨m', hm', hgo⟩ := ih m.now m.world (e := ⟨m.now, before, u m.now m.world, xs⟩)
      hnow.symm hworld.symm hpoll
    exact ⟨m', hm', hgo⟩
  | wait r d k =>
    -- a wait does not finish in the poll
    intro e m _ _ hpoll
    cases hpoll
  | never =>
    intro e m _ _ hpoll
    cases hpoll
  | spawn x k ih =>
    -- what is spawned is ready in the machine, and does not run before the next wait
    intro e m ht hw hpoll
    obtain ⟨m', hm', hgo⟩ := ih (e := { e with started := e.started ++ [x] })
      (m := { m with ready := m.ready ++ [body x] }) ht hw hpoll
    exact ⟨m', hm', hgo⟩

/-- Nothing is waited for about events that were rejected. -/
theorem advance_warningsBy (deadline : Nat) (why : Rejection) (es : List Event) :
    ∀ (f : List Warning → Act β) (m : Machine Node Work), ∃ m' : Machine Node Work,
      Machine.advance body
        ((warningsBy deadline (es.map fun e => (e, .rejected why))).bind f) m =
          Machine.advance body (f (es.map fun e => ⟨e, why.reason⟩)) m' := by
  induction es with
  | nil => exact fun f m => ⟨m, rfl⟩
  | cons e es ih =>
    intro f m
    obtain ⟨m', hm'⟩ := ih (fun ws => f (⟨e, why.reason⟩ :: ws)) (Machine.wake m)
    refine ⟨m', ?_⟩
    rw [List.map_cons, List.map_cons, ← hm']
    show Machine.advance body (((warningsBy deadline _).bind fun ws =>
      .done (((m.world.lanes.warning? e (.rejected why)).toList ++ ws))).bind f) (Machine.wake m) = _
    rw [Activity.bind_assoc]
    rfl

/-- **Whoever hands events in to closed lanes is warned about each of them**, without a wait. -/
theorem advance_dispatch_closed {m : Machine Node Work} (hc : m.world.lanes.closed = true)
    (es : List Event) :
    (Machine.advance body ((enqueue es).bind warnings) m).1 =
      .done (es.map fun e => ⟨e, Rejection.closed.reason⟩) := by
  obtain ⟨m', -, henqueue⟩ := advance_poll (β := List Warning) body (m := m) rfl rfl
    (poll_enqueue_closed hc es m.now)
  rw [henqueue]
  have hwait := advance_warningsBy body
    ((Machine.wake m').now + m'.world.lanes.ackTimeout.ticks) .closed es (fun ws => .done ws)
    (Machine.wake (Machine.wake m'))
  obtain ⟨m'', hm''⟩ := hwait
  rw [Activity.bind_done] at hm''
  exact congrArg Prod.fst hm''

end

end Node

/-! ## Dispatchers -/

namespace Dispatcher

open Note

/-- What the workers have in hand. -/
def hands (s : Dispatcher) : Node.Hands := fun i => (s.workers i).job?

/-- The lanes, and what the workers have in hand. -/
def stock (s : Dispatcher) : Stock := ⟨s.node.lanes, s.hands⟩

/-- What the answer of a drain tells. -/
def Tells (r : Except BrokerError Unit) (n : Node) (hands : Node.Hands) : Prop :=
  r = .ok () → Stock.Through ⟨n.lanes, hands⟩

/-- What holds of a dispatcher at every moment, whether it drains or not. -/
structure Orderly (s : Dispatcher) : Prop where
  numbered : s.stock.Numbered
  /-- What was tried is recorded, and for good. -/
  answered : ∀ i, ∀ x ∈ s.tried i, s.stock.Past x.1.ticket ∧
    s.node.lanes.result? x.1.ticket = some x.2
  drains : ∀ p ∈ s.drains, p.atRest = true ∧ Node.Ends Tells p s.node s.hands

section

variable {publish : Node.Publisher Work} {c : LaneSettings} {o : NodeName} {s s' : Dispatcher}
  {n : Node} {i : Nat} {j : Job}

/-- What was orderly stays orderly in the course of time, if what is new is orderly. -/
theorem Orderly.later (h : s.Orderly) (hl : s.stock.Later s'.stock)
    (htried : ∀ i, ∀ x ∈ s'.tried i, x ∈ s.tried i ∨
      s'.stock.Past x.1.ticket ∧ s'.node.lanes.result? x.1.ticket = some x.2)
    (hdrains : ∀ p ∈ s'.drains,
      p ∈ s.drains ∨ p.atRest = true ∧ Node.Ends Tells p s'.node s'.hands) : s'.Orderly where
  numbered := hl.numbered h.numbered
  answered i x hx := by
    rcases htried i x hx with hold | hnew
    · obtain ⟨hpast, hresult⟩ := h.answered i x hold
      obtain ⟨hpast', hsame⟩ := hl.past _ hpast
      exact ⟨hpast', hsame.trans hresult⟩
    · exact hnew
  drains p hp := by
    rcases hdrains p hp with hold | hnew
    · obtain ⟨hrest, hends⟩ := h.drains p hold
      exact ⟨hrest, hends.later hrest hl fun r htells hr => (htells hr).later hl⟩
    · exact hnew

/-! ### Workers -/

/-- The worker of a lane has polled, with a job in hand. -/
theorem Orderly.polled (h : s.Orderly) {l : Lanes} {hands : Node.Hands}
    (hpolled : Polled s s' i j l) (hdrains : s'.drains = s.drains)
    (htaken : s.stock.Later ⟨l, hands⟩) (hhand : hands i = some j)
    (hothers : ∀ k, k ≠ i → hands k = s.hands k) :
    s.stock.Later s'.stock ∧ s'.Orderly := by
  have hothers' (k : Nat) (hk : k ≠ i) : s'.hands k = hands k :=
    (congrArg Worker.job? (hpolled.others k hk).2).trans (hothers k hk).symm
  have hself : s'.hands i = none ∨ s'.hands i = some j := by
    cases hpolled.own with
    | done _ hw _ _ => exact .inl hw
    | going hw _ => exact .inr hw
  have hlater : s.stock.Later s'.stock :=
    htaken.trans (.worked (k := ⟨l, hands⟩) hhand hpolled.records hself hothers')
  refine ⟨hlater, h.later hlater (fun k x hx => ?_) fun p hp => .inl (hdrains ▸ hp)⟩
  by_cases hk : k = i
  · subst hk
    cases hpolled.own with
    | done r hnone hresult htried =>
      rw [htried] at hx
      rcases List.mem_append.mp hx with hold | hnew
      · exact .inl hold
      · -- the worker was done with its job in this poll
        obtain ⟨p, hp, rfl⟩ := List.mem_map.mp hnew
        have hticket : p.ticket = j.ticket := Job.ticket_of_parcel (Option.mem_toList.mp hp)
        have hnumbered : Stock.Numbered ⟨s'.node.lanes, hands⟩ :=
          (Stock.Later.records (k := ⟨l, hands⟩) hhand hpolled.records).numbered
            (htaken.numbered h.numbered)
        have hpast : s'.stock.Past j.ticket := Stock.Later.past_released
          (k := ⟨s'.node.lanes, hands⟩) hhand hnone hothers' hnumbered
        rw [hticket]
        exact .inr ⟨hpast, hresult⟩
    | going _ htried => exact .inl (htried ▸ hx)
  · exact .inl ((hpolled.others k hk).1 ▸ hx)

/-- A worker takes its first job. -/
theorem Orderly.begin (h : s.Orderly) {rest : List Job} (hw : s.workers i = .waiting)
    (hq : s.node.lanes.queue i = j :: rest)
    (hpolled : Polled s s' i j
      { s.node.lanes with queues := s.node.lanes.queues.modify i List.tail })
    (hdrains : s'.drains = s.drains) : s.stock.Later s'.stock ∧ s'.Orderly := by
  have hnone : s.hands i = none := congrArg Worker.job? hw
  have hhand : Function.update s.hands i (some j) i = some j := Function.update_self ..
  have hothers (k : Nat) (hk : k ≠ i) : Function.update s.hands i (some j) k = s.hands k :=
    Function.update_of_ne hk ..
  exact h.polled hpolled hdrains (.take (k := s.stock) hnone hq hhand hothers) hhand hothers

/-- A worker goes on. -/
theorem Orderly.resume (h : s.Orderly) {r d k} (hw : s.workers i = .busy j (.wait r d k))
    (hpolled : Polled s s' i j s.node.lanes) (hdrains : s'.drains = s.drains) :
    s.stock.Later s'.stock ∧ s'.Orderly :=
  h.polled hpolled hdrains (.refl s.stock) (congrArg Worker.job? hw) fun _ _ => rfl

/-- A worker that was done with its job waits for the next. -/
theorem hands_renew {x : Option Work} (hw : s.workers i = .busy j (.done x)) :
    hands { s with workers := set s.workers i .waiting } = s.hands := by
  funext k
  show (set s.workers i .waiting k).job? = (s.workers k).job?
  by_cases hk : k = i
  · subst hk
    rw [set_same, hw]
    rfl
  · rw [set_other _ _ hk]

/-! ### The invariant -/

/-- Drains that go on. -/
theorem Orderly.poll (h : s.Orderly) {p q : Node.Act (Except BrokerError Unit)}
    {e : Poll Node Work} (hp : Node.Ends Tells p s.node s.hands)
    (hpoll : p.poll (.fresh s.tick s.node) = (e, q))
    {ds : List (Node.Act (Except BrokerError Unit))} (hds : ∀ p' ∈ ds, p' ∈ s.drains ∨ p' = q) :
    let s' : Dispatcher := { s with node := e.after, drains := ds }
    s.stock.Later s'.stock ∧ s'.Orderly := by
  intro s'
  obtain ⟨hlater, hends⟩ := Node.Ends.poll (.fresh s.tick s.node) hp
  have hrest := Activity.poll_atRest p (.fresh s.tick s.node)
  rw [hpoll] at hlater hends hrest
  refine ⟨hlater, h.later hlater (fun k x hx => .inl ?_) ?_⟩
  · have haccepted : s'.accepted k = s.accepted k := accepted_congr rfl hlater.count
    have htried : s'.tried k = s.tried k := tried_congr haccepted rfl
    exact htried ▸ hx
  · intro p' hp'
    rcases hds p' hp' with hold | rfl
    · exact .inl hold
    · exact .inr ⟨hrest, hends⟩

/-- **Every step keeps the invariant**, and is something that happens in the course of time. -/
theorem Orderly.step (hp : publish.Apart) (hsound : s.Sound c o) (h : s.Orderly)
    (hs : Step publish s s') : s.stock.Later s'.stock ∧ s'.Orderly := by
  cases hs with
  -- what is handed in makes accounts longer, and takes nothing away from what was tried
  | @enqueue e acks es hpoll =>
    rw [Node.poll_enqueue] at hpoll
    obtain ⟨rfl, hacks⟩ := Prod.mk.inj hpoll
    cases hacks
    have hlater := Stock.Later.offerAll es s.stock
    refine ⟨hlater, h.later hlater (fun k x hx => .inl ?_) fun p hp => .inl hp⟩
    have htried : (s.offered es).tried k = s.tried k := (hsound.account_offered es k).tried_eq
    exact htried ▸ hx
  | begin hw hq hturn _ hpoll => exact h.begin hw hq (hsound.begin hp hw hq hturn hpoll).2 rfl
  | resume hw _ hpoll => exact h.resume hw (hsound.resume hw hpoll).2 rfl
  -- a worker that takes up waiting again holds nothing: the stock is the same
  | @renew i j hw =>
    have hstock : stock { s with workers := set s.workers i .waiting } = s.stock :=
      congrArg (Stock.mk s.node.lanes) (hands_renew hw)
    have hlater : s.stock.Later (stock { s with workers := set s.workers i .waiting }) :=
      hstock ▸ .refl _
    exact ⟨hlater, h.later hlater (fun _ _ hx => .inl hx) fun _ hp => .inl hp⟩
  | drain d hpoll =>
    -- a new drain has closed the lanes and put its marks down
    refine h.poll (Node.drain_ends d h.numbered) hpoll fun p' hp' => ?_
    exact (List.mem_append.mp hp').imp_right List.mem_singleton.mp
  | @proceed xs r d k ys e q hd hgo hpoll =>
    -- a drain that goes on: its own invariant tells what holds at the end of this poll
    have hmem : .wait r d k ∈ s.drains := by
      rw [hd]
      exact List.mem_append_right _ (List.mem_cons_self ..)
    have hk := (h.drains _ hmem).2 s.tick s.node s.hands (.refl _) hgo
    refine h.poll hk hpoll ?_
    rw [hd]
    exact forall_mem_replaced (fun _ hp => .inl hp) (.inr rfl)
  | @leave xs q ys hd =>
    -- who leaves takes a drain away, and the others keep theirs
    refine ⟨.refl _, h.later (.refl _) (fun _ _ hx => .inl hx) ?_⟩
    rw [hd]
    exact forall_mem_without fun _ hp => .inl hp
  | pass _ => exact ⟨.refl _, h.later (.refl _) (fun _ _ hx => .inl hx) fun _ hp => .inl hp⟩
  | @change n hn _ =>
    -- a change from outside leaves the lanes as they are
    have hlater : s.stock.Later { s with node := n }.stock := by
      show s.stock.Later ⟨n.lanes, s.hands⟩
      rw [hn]
      exact .refl _
    refine ⟨hlater, h.later hlater (fun k x hx => .inl ?_) fun p hp => .inl hp⟩
    have haccepted : accepted { s with node := n } k = s.accepted k :=
      accepted_congr rfl hlater.count
    exact (tried_congr haccepted rfl : tried { s with node := n } k = s.tried k) ▸ hx

/-- The invariant holds when all begins. -/
theorem orderly_start (hn : n.lanes = .make c) : (start n).Orderly where
  numbered := by
    have hnothing (i : Nat) : (start n).stock.jobs i = [] := by
      show [] ++ n.lanes.queue i = []
      rw [hn, Lanes.queue_make]
      rfl
    refine ⟨fun i j hj => ?_, fun i => ?_, fun i _ _ j hj => ?_, fun t ht => ?_⟩
    · rw [hnothing i] at hj
      cases hj
    · rw [hnothing i]
      exact List.nodup_nil
    · rw [hnothing i] at hj
      cases hj
    · have hresult : n.lanes.result? t = none := by
        rw [hn]
        rfl
      have ht' : (n.lanes.result? t).isSome = true := ht
      rw [hresult] at ht'
      cases ht'
  answered _ _ hx := absurd hx List.not_mem_nil
  drains _ hp := absurd hp List.not_mem_nil

/-- **The invariant holds at every moment**, and every moment is later than those before. -/
theorem Orderly.runs (hp : publish.Apart) (hsound : s.Sound c o) (h : s.Orderly)
    (hr : Runs publish s s') : s.stock.Later s'.stock ∧ s'.Orderly := by
  induction hr with
  | refl => exact ⟨.refl _, h⟩
  | tail hr hs ih =>
    obtain ⟨hlater, hs'⟩ := ih.2.step hp (hsound.runs hp hr) hs
    exact ⟨ih.1.trans hlater, hs'⟩

/-! ## Closed lanes -/

/-- What a lane has accepted was tried, or it is pending. -/
theorem Sound.accepted (h : s.Sound c o) (i : Nat) :
    s.accepted i = (s.tried i).map Prod.fst ++ s.stock.pending i := by
  have hpending : s.stock.pending i = (s.trying i).toList ++ s.node.lanes.parcels i := by
    show ((s.workers i).job?.toList ++ s.node.lanes.queue i).filterMap Job.parcel? = _
    rw [List.filterMap_append]
    refine congrArg (· ++ _) ?_
    unfold trying
    cases (s.workers i).job? with
    | none => rfl
    | some j =>
      show [j].filterMap Job.parcel? = j.parcel?.toList
      cases hj : j.parcel? with
      | none => exact List.filterMap_cons_none hj
      | some p => exact List.filterMap_cons_some hj
  rw [hpending]
  exact (h.account i).accepted

/-- Without a lane nothing is accepted. -/
theorem Sound.accepted_outside (h : s.Sound c o) (hi : ¬ i < s.node.lanes.count) :
    s.accepted i = [] := by
  refine List.filter_eq_nil_iff.mpr fun p _ hp => hi ?_
  have hlane : p.event.partition s.node.lanes.count = i := of_decide_eq_true hp
  rw [← hlane]
  exact partitionFor_lt _ h.kept.pos

/-- When a lane is through, everything that it has accepted was tried, and no call goes on. -/
theorem Sound.through (h : s.Sound c o) (hthrough : s.stock.Through) (i : Nat) :
    (s.tried i).map Prod.fst = s.accepted i ∧ s.trying i = none := by
  have hparts := h.accepted i
  have haccount := (h.account i).accepted
  by_cases hi : i < s.node.lanes.count
  · have hnothing : s.stock.pending i = [] := hthrough.nothing i hi
    rw [hnothing, List.append_nil] at hparts
    rw [← hparts] at haccount
    have hrest := List.append_right_eq_self.mp haccount.symm
    exact ⟨hparts.symm, Option.toList_eq_nil_iff.mp (List.append_eq_nil_iff.mp hrest).1⟩
  · rw [h.accepted_outside hi] at haccount ⊢
    obtain ⟨htried, hrest⟩ := List.append_eq_nil_iff.mp haccount.symm
    exact ⟨htried, Option.toList_eq_nil_iff.mp (List.append_eq_nil_iff.mp hrest).1⟩

/-- Closed lanes accept nothing. -/
theorem Step.accepted (hs : Step publish s s') (hcount : s'.node.lanes.count = s.node.lanes.count)
    (hc : s.node.lanes.closed = true) (i : Nat) : s'.accepted i = s.accepted i := by
  cases hs with
  | @enqueue e acks es hpoll =>
    rw [Node.poll_enqueue_closed hc] at hpoll
    obtain ⟨-, hacks⟩ := Prod.mk.inj hpoll
    cases hacks
    have hnone : PendingAcks.parcels (es.map fun e => (e, Ack.rejected .closed)) = [] := by
      unfold PendingAcks.parcels
      rw [List.filterMap_map]
      exact List.filterMap_eq_nil_iff.mpr fun _ _ => rfl
    unfold Dispatcher.accepted outcomes
    rw [hcount, batches_append]
    show (PendingAcks.parcels ((batches s.notes ++ [_]).flatMap Prod.snd)).filter _ = _
    rw [Kept.parcels_offered, hnone, List.append_nil]
  | begin => exact accepted_congr (batches_reported ..) hcount
  | resume => exact accepted_congr (batches_reported ..) hcount
  | _ => exact accepted_congr rfl hcount

/-- What closed lanes have accepted they have accepted for good. -/
theorem Orderly.accepted (hp : publish.Apart) (hsound : s.Sound c o) (h : s.Orderly)
    (hc : s.node.lanes.closed = true) (hr : Runs publish s s') (i : Nat) :
    s'.accepted i = s.accepted i := by
  induction hr with
  | refl => rfl
  | tail hr hs ih =>
    obtain ⟨hlater, hmid⟩ := h.runs hp hsound hr
    obtain ⟨hlast, -⟩ := hmid.step hp (hsound.runs hp hr) hs
    exact (hs.accepted hlast.count (hlater.closed hc) i).trans ih

end

/-! ## Drains -/

/-- The dispatcher after a drain has begun. -/
def draining (s : Dispatcher) (d : Span) : Dispatcher :=
  { s with
    node := ((Node.drain d).poll (.fresh s.tick s.node)).1.after
    drains := s.drains ++ [((Node.drain d).poll (.fresh s.tick s.node)).2] }

/-- What becomes of events that are handed in to a dispatcher that refuses them. -/
structure Refuses (s : Dispatcher) : Prop where
  /-- Each of them is rejected, and nothing changes. -/
  rejected : ∀ es, (Node.enqueue es).poll (.fresh s.tick s.node) =
    (.fresh s.tick s.node, .done (es.map fun e => (e, .rejected .closed)))
  /-- Whoever hands them in and waits for warnings gets one about each of them, at once. -/
  warned : ∀ es body (m : Machine Node Work), m.world = s.node →
    (Machine.advance body ((Node.enqueue es).bind Node.warnings) m).1 =
      .done (es.map fun e => ⟨e, Rejection.closed.reason⟩)

/-- What can be said of drains at any moment. -/
structure DrainsWell (publish : Node.Publisher Work) (s : Dispatcher) : Prop where
  /-- From the moment at which a drain is called, all events are refused. -/
  refuses : ∀ d s', Runs publish (s.draining d) s' → s'.Refuses
  /-- None of them reaches the publisher: it is called only for what was accepted before, in
      order. -/
  shut : ∀ d s', Runs publish (s.draining d) s' → ∀ i,
    s'.accepted i = s.accepted i ∧
      begunBy i s'.notes <+: (s.accepted i).map (·.envelope s.node.name)
  /-- When a drain has answered that all went well, everything that was accepted was tried, in
      calls of the publisher that have ended; and each event is answered as the publisher did. -/
  through : .done (.ok ()) ∈ s.drains → ∀ i,
    (s.tried i).map Prod.fst = s.accepted i ∧
      (reportsBy i s.notes = (s.tried i).flatMap fun x => x.1.call s.node.name x.2) ∧
      ∀ x ∈ s.tried i, s.node.lanes.result? x.1.ticket = some x.2

section

variable {publish : Node.Publisher Work} {c : LaneSettings} {s s' : Dispatcher} {n : Node}

theorem Refuses.of_closed (hc : s.node.lanes.closed = true) : s.Refuses where
  rejected es := Node.poll_enqueue_closed hc es s.tick
  warned es body _ hm := Node.advance_dispatch_closed body (hm ▸ hc) es

/-- A drain closes the lanes as soon as it is called. -/
theorem Orderly.closed_draining (h : s.Orderly) (d : Span) :
    (s.draining d).node.lanes.closed = true := by
  -- after its first act, what a drain does is no more than what happens in the course of time
  obtain ⟨hlater, -⟩ := Node.Ends.poll
    { Poll.fresh s.tick s.node with after := { s.node with lanes := s.node.lanes.close } }
    (Node.drain_ends d h.numbered s.tick).2
  exact hlater.closed rfl

/-- **A drain loses nothing.**  For all settings of the lanes, and every publisher that leaves them
    alone, in every run, with any number of drains: from the call of a drain on, whatever is handed
    in is rejected with a warning and does not reach the publisher; and when a drain answers that
    all went well, the publisher was called for all that was accepted, and has answered, and each
    event is answered as it did. -/
theorem drain_loses_nothing (hp : publish.Apart) (hn : n.lanes = .make c)
    (hr : Runs publish (start n) s) : s.DrainsWell publish := by
  have hsound := (sound_start hn).runs hp hr
  obtain ⟨-, horderly⟩ := (orderly_start hn).runs hp (sound_start hn) hr
  have hbegin (d : Span) : Step publish s (s.draining d) := .drain d rfl
  have hclosed (d : Span) := horderly.closed_draining d
  refine ⟨fun d s' hr' => ?refuses, fun d s' hr' i => ?shut, fun hd i => ?through⟩
  case refuses =>
    -- a closed lane stays closed, and a closed lane refuses
    have hafter := (horderly.step hp hsound (hbegin d)).2
    obtain ⟨hlater, -⟩ := hafter.runs hp (hsound.step hp (hbegin d)) hr'
    exact .of_closed (hlater.closed (hclosed d))
  case shut =>
    obtain ⟨hlater, hafter⟩ := horderly.step hp hsound (hbegin d)
    have hsound' := hsound.step hp (hbegin d)
    -- nothing is accepted after the drain's call, so the publisher is called for a part of that
    have hsame : (s.draining d).accepted i = s.accepted i := accepted_congr rfl hlater.count
    have haccepted := (hafter.accepted hp hsound' (hclosed d) hr' i).trans hsame
    refine ⟨haccepted, ?_⟩
    have hlast := hsound'.runs hp hr'
    rw [← haccepted, hlast.conserved i, List.map_append, hsound.name]
    have hcalled : begunBy i s'.notes = (s'.given i).map (·.envelope n.name) :=
      hlast.called i
    rw [hcalled]
    exact List.prefix_append _ _
  case through =>
    -- a drain that went well has seen every mark given back, and a mark stands behind the rest
    have hthrough : s.stock.Through := (horderly.drains _ hd).2 rfl
    obtain ⟨htried, hidle⟩ := hsound.through hthrough i
    have hreported := (hsound.account i).reported
    rw [hidle, ← hsound.name] at hreported
    exact ⟨htried, hreported.trans (List.append_nil _), fun x hx => (horderly.answered i x hx).2⟩

end

end Dispatcher

open Note Sample in
/-- A drain begins while the only lane is full; it puts its flush behind the event that waits, and
    answers when both have come through.  What is handed in meanwhile is rejected. -/
theorem sample_drain_loses_nothing :
    Node.Publisher.Apart Node.deliver ∧ slimNode.lanes = .make slim ∧
      ∃ s : Dispatcher, Dispatcher.Runs Node.deliver (.start slimNode) s ∧
        .done (.ok ()) ∈ s.drains ∧
        outcomes s.notes =
          [(update 1, .queued 0), (update 2, .rejected .full), (update 3, .rejected .closed)] ∧
        s.tried 0 = [(⟨update 1, 0⟩, .ok ())] ∧ s.DrainsWell Node.deliver := by
  have hr : Dispatcher.Runs Node.deliver (.start slimNode) _ :=
    .tail (.tail (.tail (.tail (.tail (.tail (.tail (.tail (.tail .refl
      (.enqueue [update 1, update 2] (Node.poll_enqueue _ _)))
      (.drain (.ofMillis 1000) rfl))
      (.enqueue [update 3] (Node.poll_enqueue _ _)))
      (.begin (i := 0) rfl rfl rfl rfl rfl))
      (.renew (i := 0) rfl))
      (.proceed (show _ = [] ++ _ :: [] from rfl) rfl rfl))
      (.begin (i := 0) rfl rfl rfl rfl rfl))
      (.renew (i := 0) rfl))
      (.proceed (show _ = [] ++ _ :: [] from rfl) rfl rfl)
  exact ⟨Node.deliver_apart, rfl, _, hr, List.mem_singleton.mpr rfl, rfl, rfl,
    Dispatcher.drain_loses_nothing Node.deliver_apart rfl hr⟩

end SessionCluster
