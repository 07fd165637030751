/-
  Dispatching — what becomes of the events of a set of lanes.

  A `Dispatcher` is a node with the workers of its lanes and the drains that go on.  Batches of
  events are handed in, each at once; the worker of a lane is `Node.laneTurn`, polled whenever its
  lane holds a job or what it waits for has come; drains close the lanes and put flushes into them.
  All this happens in any order, and time and the rest of the node go on as they like.  The
  publisher is any activity that leaves the lanes alone: it may take its time, fail, or never answer.
  A running node has `Node.deliver` for it.

  Two things are noted, as they happen: what became of a batch, and what the publisher has reported
  of its calls.  Nobody else makes reports: with a worker that calls the publisher twice for an
  event, or not at all, nothing of the following holds.

  * `Activity.Heeds` — like `Activity.Respects`, for acts that rely on what they have waited for;
  * `Dispatcher.Account` — what a lane has accepted, and the reports that there are of it;
  * `Dispatcher.Sound` — the invariant, kept by every step (`Sound.step`) and so by every run;
  * `lanes_conserve` — **what a lane has accepted was given to the publisher or waits**, in order,
    each event once and one at a time (`Dispatcher.Conserves`).
-/
import SessionCluster.Proofs.Reporting
import SessionCluster.Proofs.Schedules

namespace SessionCluster

/-! ## Acts after a wait -/

namespace Activity

variable {σ τ α β : Type} {R : σ → σ → Prop}

/-- Whether every act of an activity relates the states before and after it, when it goes on in a
    state; after a wait, it goes on in a state in which the wait is over. -/
def Heeds (R : σ → σ → Prop) : Activity σ τ α → σ → Prop
  | .done _, _ => True
  | .act u k, s => ∀ t, R s (u t s) ∧ Heeds R (k t s) (u t s)
  | .wait r d k, _ => ∀ t s, (r s || reached d t) = true → Heeds R k s
  | .never, _ => True
  | .spawn _ k, s => Heeds R k s

namespace Heeds

theorem of_respects {p : Activity σ τ α} (hp : p.Respects R) : ∀ s, p.Heeds R s := by
  induction p with
  | done a => exact fun _ => trivial
  | act u k ih => exact fun s t => ⟨(hp t s).1, ih t s (hp t s).2 _⟩
  | wait r d k ih => exact fun _ _ s _ => ih hp s
  | never => exact fun _ => trivial
  | spawn x k ih => exact ih hp

/-- Activities in a row heed what each of them does. -/
theorem bind {p : Activity σ τ α} {f : α → Activity σ τ β} (hf : ∀ a s, (f a).Heeds R s) :
    ∀ {s}, p.Heeds R s → (p.bind f).Heeds R s := by
  induction p with
  | done a => exact fun {s} _ => hf a s
  | act u k ih => exact fun h t => ⟨(h t).1, ih t _ (h t).2⟩
  | wait r d k ih => exact fun h t s hgo => ih (h t s hgo)
  | never => exact fun h => h
  | spawn x k ih => exact fun h => ih h

section

variable (hrefl : ∀ s, R s s)

include hrefl

/-- A time limit gives an activity up, and does nothing that it does not. -/
theorem withinTick {p : Activity σ τ α} (t : Nat) :
    ∀ {s}, p.Heeds R s → (p.withinTick t).Heeds R s := by
  induction p with
  | done a => exact fun h => h
  | act u k ih => exact fun h n => ⟨(h n).1, ih n _ (h n).2⟩
  | wait r d k ih =>
    intro _ h _ s _ n
    refine ⟨hrefl s, ?_⟩
    -- the limit may have ended the wait, so what was waited for is looked at again
    show Heeds R (if r s || reached d n then k.withinTick t else .done none) s
    split
    · rename_i hgo
      exact ih (h n s hgo)
    · trivial
  | never => exact fun _ _ _ _ => trivial
  | spawn x k ih => exact fun h => ih h

theorem within {p : Activity σ τ α} (limit : Span) {s : σ} (hp : p.Heeds R s) :
    (p.within limit).Heeds R s :=
  fun _ => ⟨hrefl s, withinTick hrefl _ hp⟩

/-- A poll relates the states before and after it, and what is left heeds whatever it waits for. -/
theorem poll (htrans : ∀ {s s' s''}, R s s' → R s' s'' → R s s'') {p : Activity σ τ α} :
    ∀ e : Poll σ τ, p.Heeds R e.after →
      R e.after (p.poll e).1.after ∧ ∀ s, (p.poll e).2.Heeds R s := by
  induction p with
  | done a => exact fun e _ => ⟨hrefl _, fun _ => trivial⟩
  | act u k ih =>
    intro e h
    obtain ⟨hu, hk⟩ := h e.tick
    obtain ⟨hpoll, hrest⟩ := ih _ _ { e with after := u e.tick e.after } hk
    exact ⟨htrans hu hpoll, hrest⟩
  | wait r d k => exact fun e h => ⟨hrefl _, fun _ => h⟩
  | never => exact fun e _ => ⟨hrefl _, fun _ => trivial⟩
  | spawn x k ih => exact fun e h => ih { e with started := e.started ++ [x] } h

end

end Heeds

end Activity

namespace Node

open Activity

/-! ## What members do to the lanes -/

/-- The parcels stay where they are, and the node keeps its name. -/
structure Steady (n n' : Node) : Prop where
  lanes : n.lanes.Steady n'.lanes
  name : n'.name = n.name

theorem Steady.refl (n : Node) : n.Steady n := ⟨.refl _, rfl⟩

theorem Steady.trans {n n' n'' : Node} (h : n.Steady n') (h' : n'.Steady n'') : n.Steady n'' :=
  ⟨h.lanes.trans h'.lanes, h'.name.trans h.name⟩

/-- So does a poll of whoever heeds this, and what is left heeds it too. -/
theorem Steady.poll {α : Type} {p q : Act α} {t : Nat} {n : Node} {e : Poll Node Work}
    (h : p.Heeds Steady n) (hpoll : p.poll (.fresh t n) = (e, q)) :
    n.Steady e.after ∧ ∀ n, q.Heeds Steady n := by
  have hkept := Heeds.poll Steady.refl Steady.trans (.fresh t n) h
  rw [hpoll] at hkept
  exact hkept

/-- Flushes are put where there is room. -/
theorem flushLanes_heeds (is : List Nat) : ∀ n, (flushLanes is).Heeds Steady n := by
  induction is with
  | nil => exact fun _ => trivial
  | cons i is ih =>
    intro n t n' hgo
    have hroom : n'.lanes.hasRoom i = true := by
      rw [Bool.or_eq_true] at hgo
      rcases hgo with hroom | hlate
      · exact hroom
      · cases hlate
    refine Heeds.bind (fun ticket n => ?_) fun _ => ⟨⟨.pushFlush hroom, rfl⟩, trivial⟩
    refine Heeds.bind (fun tickets _ => ?_) (ih n)
    trivial

/-- A drain leaves accounts steady: its flushes carry no events. -/
theorem drain_heeds (d : Span) (n : Node) : (drain d).Heeds Steady n := by
  have hflush : ∀ n, flush.Heeds Steady n := by
    intro n
    refine Heeds.bind (fun parts n => ?_) (.of_respects (.read .refl _) n)
    refine Heeds.bind (fun first n => ?_) (flushLanes_heeds _ n)
    refine Heeds.bind (fun rest n => ?_) (flushLanes_heeds _ n)
    exact fun _ _ _ => trivial
  refine Heeds.bind (fun _ n => ?_) (.of_respects (.step fun n => ⟨.close n.lanes, rfl⟩) n)
  refine Heeds.bind (fun r n => ?_) (.within .refl d (hflush n))
  cases r <;> trivial

end Node

/-! ## Dispatchers -/

/-- The worker of a lane: it waits for a job, or goes on with one until it is done. -/
inductive Worker where
  | waiting
  | busy (j : Job) (rest : Activity Node (Work ⊕ PublisherReport) (Option Work))

/-- The job that a worker has in hand, until it is done with it. -/
def Worker.job? : Worker → Option Job
  | .waiting => none
  | .busy j rest => if rest.isDone then none else some j

namespace Worker

variable {j : Job} {rest : Activity Node (Work ⊕ PublisherReport) (Option Work)}

theorem job?_done (h : rest.isDone = true) : (busy j rest).job? = none := if_pos h

theorem job?_busy (h : rest.isDone = false) : (busy j rest).job? = some j :=
  if_neg (ne_true_of_eq_false h)

end Worker

/-- What is noted of a dispatcher. -/
inductive Note where
  /-- A batch was handed in, to lanes as they were then, and this became of its events. -/
  | handedIn (lanes : Lanes) (acks : PendingAcks)
  /-- The publisher has reported to the worker of a lane. -/
  | reported (lane : Nat) (c : PublisherReport)

namespace Note

/-- The batches that were handed in, with the lanes before each and what became of its events. -/
def batches (notes : List Note) : List (Lanes × PendingAcks) :=
  notes.filterMap fun
    | .handedIn l acks => some (l, acks)
    | .reported .. => none

/-- What became of the events that were handed in, in order. -/
def outcomes (notes : List Note) : PendingAcks := (batches notes).flatMap Prod.snd

/-- What the publisher has reported to the worker of a lane, in order. -/
def reportsBy (i : Nat) (notes : List Note) : List PublisherReport :=
  notes.filterMap fun
    | .reported k c => if k = i then some c else none
    | .handedIn .. => none

/-- The envelopes for which the worker of a lane has called the publisher, in order. -/
def begunBy (i : Nat) (notes : List Note) : List Envelope :=
  (reportsBy i notes).filterMap PublisherReport.envelope?

/-- What the publisher has answered to the worker of a lane, in order. -/
def answersBy (i : Nat) (notes : List Note) : List (Except BrokerError Unit) :=
  (reportsBy i notes).filterMap PublisherReport.outcome?

section

variable (notes : List Note) (i k : Nat) (cs : List PublisherReport)

theorem batches_append (notes' : List Note) :
    batches (notes ++ notes') = batches notes ++ batches notes' := List.filterMap_append

theorem reportsBy_append (notes' : List Note) :
    reportsBy i (notes ++ notes') = reportsBy i notes ++ reportsBy i notes' :=
  List.filterMap_append

/-- Reports are no batches. -/
theorem batches_reported : batches (notes ++ cs.map (.reported i)) = batches notes := by
  have hnone : batches (cs.map (.reported i)) = [] :=
    List.filterMap_eq_nil_iff.mpr fun x hx => by
      obtain ⟨c, -, rfl⟩ := List.mem_map.mp hx
      rfl
  rw [batches_append, hnone, List.append_nil]

/-- Reports to one worker are none to another. -/
theorem reportsBy_reported :
    reportsBy k (notes ++ cs.map (.reported i)) =
      reportsBy k notes ++ if k = i then cs else [] := by
  rw [reportsBy_append]
  congr 1
  unfold reportsBy
  rw [List.filterMap_map]
  by_cases hk : k = i
  · subst hk
    rw [if_pos rfl]
    refine Eq.trans (List.filterMap_congr fun c _ => ?_) List.filterMap_some
    exact if_pos rfl
  · rw [if_neg hk]
    exact List.filterMap_eq_nil_iff.mpr fun c _ => if_neg (Ne.symm hk)

/-- A batch brings no reports. -/
theorem reportsBy_handedIn (l : Lanes) (acks : PendingAcks) :
    reportsBy i (notes ++ [.handedIn l acks]) = reportsBy i notes :=
  (reportsBy_append ..).trans (List.append_nil _)

end

end Note

/-- A node with the workers of its lanes and the drains that go on, and what was noted so far. -/
structure Dispatcher where
  tick : Nat
  node : Node
  workers : Nat → Worker
  drains : List (Node.Act (Except BrokerError Unit))
  notes : List Note

namespace Dispatcher

open Note

/-- A dispatcher whose workers wait. -/
def start (n : Node) : Dispatcher := ⟨0, n, fun _ => .waiting, [], []⟩

/-- The worker of a lane in another state. -/
def set (ws : Nat → Worker) (i : Nat) (w : Worker) : Nat → Worker :=
  fun k => if k = i then w else ws k

theorem set_same (ws : Nat → Worker) (i : Nat) (w : Worker) : set ws i w i = w := if_pos rfl

theorem set_other (ws : Nat → Worker) {i k : Nat} (w : Worker) (h : k ≠ i) :
    set ws i w k = ws k := if_neg h

/-- The dispatcher after events were handed in. -/
def offered (s : Dispatcher) (es : List Event) : Dispatcher :=
  { s with
    node := { s.node with lanes := (s.node.lanes.offerAll es).1 }
    notes := s.notes ++ [.handedIn s.node.lanes (s.node.lanes.offerAll es).2] }

/-- The dispatcher after a poll of the worker of a lane that has a job in hand. -/
def worked (s : Dispatcher) (i : Nat) (j : Job) (e : Poll Node (Work ⊕ PublisherReport))
    (rest : Activity Node (Work ⊕ PublisherReport) (Option Work)) : Dispatcher :=
  { s with
    node := e.after
    workers := set s.workers i (.busy j rest)
    notes := s.notes ++ (Activity.reportsIn e.started).map (.reported i) }

section

variable (s : Dispatcher) (i : Nat)

/-- The parcels that a lane has accepted, in order of acceptance. -/
def accepted : List Parcel :=
  (PendingAcks.parcels (outcomes s.notes)).filter (·.event.partition s.node.lanes.count = i)

/-- As many of them as the publisher was called for by the worker of the lane. -/
def given : List Parcel := (s.accepted i).take (begunBy i s.notes).length

/-- As many of them as the publisher has answered to, with its answers. -/
def tried : List (Parcel × Except BrokerError Unit) := (s.accepted i).zip (answersBy i s.notes)

/-- The parcel that the worker of a lane has in hand. -/
def trying : Option Parcel := (s.workers i).job?.bind Job.parcel?

end

/-- What may happen to a dispatcher with a publisher. -/
inductive Step (publish : Node.Publisher Work) : Dispatcher → Dispatcher → Prop where
  /-- A batch is handed in. -/
  | enqueue {s e acks} (es : List Event)
      (h : (Node.enqueue es).poll (.fresh s.tick s.node) = (e, .done acks)) :
      Step publish s
        { s with node := e.after, notes := s.notes ++ [.handedIn s.node.lanes acks] }
  /-- A worker whose lane holds a job takes it, and goes as far as it comes. -/
  | begin {s i j rest r d k e p} (hw : s.workers i = .waiting)
      (hq : s.node.lanes.queue i = j :: rest)
      (hturn : Node.laneTurn (Node.reporting publish) i = .wait r d k)
      (hgo : (r s.node || Activity.reached d s.tick) = true)
      (h : k.poll (.fresh s.tick s.node) = (e, p)) :
      Step publish s (s.worked i j e p)
  /-- A worker goes on that has waited for the publisher. -/
  | resume {s i j r d k e p} (hw : s.workers i = .busy j (.wait r d k))
      (hgo : (r s.node || Activity.reached d s.tick) = true)
      (h : k.poll (.fresh s.tick s.node) = (e, p)) :
      Step publish s (s.worked i j e p)
  /-- A worker that was done with a job waits for the next. -/
  | renew {s i j} (hw : s.workers i = .busy j (.done (some (.lane i)))) :
      Step publish s { s with workers := set s.workers i .waiting }
  /-- A drain begins. -/
  | drain {s e p} (d : Span) (h : (Node.drain d).poll (.fresh s.tick s.node) = (e, p)) :
      Step publish s { s with node := e.after, drains := s.drains ++ [p] }
  /-- A drain goes on that has waited. -/
  | proceed {s xs r d k ys e p} (hd : s.drains = xs ++ .wait r d k :: ys)
      (hgo : (r s.node || Activity.reached d s.tick) = true)
      (h : k.poll (.fresh s.tick s.node) = (e, p)) :
      Step publish s { s with node := e.after, drains := xs ++ p :: ys }
  /-- A drain is over, or dropped. -/
  | leave {s xs p ys} (hd : s.drains = xs ++ p :: ys) :
      Step publish s { s with drains := xs ++ ys }
  /-- Time passes. -/
  | pass {s t} (ht : s.tick ≤ t) : Step publish s { s with tick := t }
  /-- Anything else of the node changes, except for its name. -/
  | change {s n} (hn : n.lanes = s.node.lanes) (hname : n.name = s.node.name) :
      Step publish s { s with node := n }

/-- Any number of steps. -/
abbrev Runs (publish : Node.Publisher Work) : Dispatcher → Dispatcher → Prop :=
  Relation.ReflTransGen (Step publish)

/-! ## Accounts of lanes -/

/-- An account of a lane: what it has accepted was tried, is being tried, or waits, and these are
    the reports of the publisher about it. -/
structure Account (origin : NodeName) (accepted : List Parcel) (trying : Option Parcel)
    (waiting : List Parcel) (cs : List PublisherReport)
    (tried : List (Parcel × Except BrokerError Unit)) : Prop where
  accepted : accepted = tried.map Prod.fst ++ (trying.toList ++ waiting)
  reported : cs = (tried.flatMap fun x => x.1.call origin x.2) ++
    trying.toList.map fun p => .begins (p.envelope origin)

namespace Account

variable {o : NodeName} {acc w : List Parcel} {q : Option Parcel} {cs new : List PublisherReport}
  {t : List (Parcel × Except BrokerError Unit)} {j : Job}

/-- What was tried can be read off what was accepted and the reports. -/
theorem tried_eq (h : Account o acc q w cs t) :
    acc.zip (cs.filterMap PublisherReport.outcome?) = t := by
  have hanswers : cs.filterMap PublisherReport.outcome? = t.map Prod.snd := by
    rw [h.reported, List.filterMap_append, List.filterMap_flatMap, List.filterMap_map]
    have hopen : q.toList.filterMap (PublisherReport.outcome? ∘ fun p =>
        .begins (p.envelope o)) = [] := List.filterMap_eq_nil_iff.mpr fun _ _ => rfl
    rw [hopen, List.append_nil]
    exact List.flatMap_pure_eq_map ..
  rw [h.accepted, hanswers]
  clear h hanswers
  induction t with
  | nil => exact List.zip_nil_right
  | cons x t ih => exact congrArg (x :: ·) ih

/-- The calls are for what was tried or is being tried. -/
theorem envelopes (h : Account o acc q w cs t) :
    cs.filterMap PublisherReport.envelope? =
      (t.map Prod.fst ++ q.toList).map (·.envelope o) := by
  rw [h.reported, List.filterMap_append, List.filterMap_flatMap, List.filterMap_map, List.map_append,
    List.map_map]
  congr 1
  · exact List.flatMap_pure_eq_map ..
  · cases q <;> rfl

/-- These are the first that were accepted. -/
theorem given_eq (h : Account o acc q w cs t) :
    acc.take (cs.filterMap PublisherReport.envelope?).length = t.map Prod.fst ++ q.toList := by
  rw [h.envelopes, List.length_map, h.accepted, ← List.append_assoc]
  exact List.take_left' rfl

/-- More is accepted. -/
theorem offer (h : Account o acc q w cs t) (more : List Parcel) :
    Account o (acc ++ more) q (w ++ more) cs t where
  accepted := by rw [h.accepted, List.append_assoc, List.append_assoc]
  reported := h.reported

/-- The publisher is at work for a job. -/
theorem start (h : Account o acc none (j.parcel?.toList ++ w) cs t) (hj : j.AtWork o new) :
    Account o acc j.parcel? w (cs ++ new) t := by
  obtain ⟨p, hp, rfl⟩ := hj
  have hcs := h.reported
  rw [Option.toList_none, List.map_nil, List.append_nil] at hcs
  refine ⟨h.accepted, ?_⟩
  rw [hp, hcs]
  rfl

/-- A worker is done with a job. -/
theorem finish {l : Lanes} (h : Account o acc none (j.parcel?.toList ++ w) cs t)
    (hj : j.Finished o new l) :
    ∃ r, l.result? j.ticket = some r ∧
      Account o acc none w (cs ++ new) (t ++ j.parcel?.toList.map fun p => (p, r)) := by
  obtain ⟨r, hr, rfl⟩ := hj
  have hcs := h.reported
  rw [Option.toList_none, List.map_nil, List.append_nil] at hcs
  refine ⟨r, hr, ?accepted, ?reported⟩
  case accepted =>
    rw [h.accepted, List.map_append, List.map_map, List.append_assoc]
    cases j.parcel? <;> rfl
  case reported =>
    rw [hcs, List.flatMap_append, List.flatMap_map]
    exact (List.append_nil _).symm

/-- Before the call that goes on, the parcel waited. -/
theorem before_call {p : Parcel} (h : Account o acc (some p) w cs t) :
    ∃ cs', cs = cs' ++ [.begins (p.envelope o)] ∧ Account o acc none (p :: w) cs' t :=
  ⟨_, h.reported, h.accepted, (List.append_nil _).symm⟩

end Account

/-! ## The invariant -/

/-- What holds of lanes of some settings, and of the batches that were handed in to them. -/
structure Kept (c : LaneSettings) (l : Lanes) (bs : List (Lanes × PendingAcks)) : Prop where
  count : l.count = max 1 c.partitions
  capacity : l.capacity = max 1 c.capacity
  /-- No lane holds more than it may. -/
  bounded : l.Bounded
  /-- Tickets that were given out are spent. -/
  spent : ∀ p ∈ PendingAcks.parcels (bs.flatMap Prod.snd), p.ticket < l.nextTicket
  /-- No ticket was given out twice. -/
  distinct : ((PendingAcks.parcels (bs.flatMap Prod.snd)).map Parcel.ticket).Nodup
  /-- What was refused as too much was too much. -/
  full : ∀ b ∈ bs, ∀ xs e ys, b.2 = xs ++ (e, .rejected .full) :: ys →
    ((b.1.offerAll (xs.map Prod.fst)).1.queue (e.partition b.1.count)).length = max 1 c.capacity

/-- What holds of a dispatcher at every moment, with lanes of some settings, on a node of some
    name. -/
structure Sound (c : LaneSettings) (origin : NodeName) (s : Dispatcher) : Prop where
  name : s.node.name = origin
  /-- The lanes are as their settings have them. -/
  kept : Kept c s.node.lanes (batches s.notes)
  /-- The books of each lane balance, with the reports that its worker has made. -/
  account : ∀ i, Account origin (s.accepted i) (s.trying i) (s.node.lanes.parcels i)
    (reportsBy i s.notes) (s.tried i)
  /-- Whoever is busy has called the publisher. -/
  workers : ∀ i j p, s.workers i = .busy j p → p.isDone = false →
    ∃ parcel, j.parcel? = some parcel ∧
      Node.Employed origin j [.begins (parcel.envelope origin)] p
  /-- A drain never takes an event out. -/
  drains : ∀ p ∈ s.drains, ∀ n, p.Heeds Node.Steady n

/-- What was tried before and after a poll of a worker with a job: if it was done with the job, what
    the publisher has answered is recorded. -/
inductive Progress (j : Job) (l : Lanes) (w : Worker)
    (t t' : List (Parcel × Except BrokerError Unit)) : Prop where
  | done (r : Except BrokerError Unit) (hw : w.job? = none) (hr : l.result? j.ticket = some r)
      (ht : t' = t ++ j.parcel?.toList.map fun p => (p, r))
  | going (hw : w.job? = some j) (ht : t' = t)

/-- What has come of a poll of the worker of a lane with a job, which began with these lanes. -/
structure Polled (s s' : Dispatcher) (i : Nat) (j : Job) (l : Lanes) : Prop where
  records : l.Records j.ticket s'.node.lanes
  others : ∀ k, k ≠ i → s'.tried k = s.tried k ∧ s'.workers k = s.workers k
  own : Progress j s'.node.lanes (s'.workers i) (s.tried i) (s'.tried i)

/-- The worker of a lane goes on with a job, from lanes in which the job waits no longer.  It has
    made some reports about the job already. -/
structure Ready (c : LaneSettings) (origin : NodeName) (s : Dispatcher) (i : Nat) (j : Job)
    (l : Lanes) (sofar : List PublisherReport) : Prop where
  kept : Kept c l (batches s.notes)
  others : ∀ k, k ≠ i → l.parcels k = s.node.lanes.parcels k
  account : ∃ cs, reportsBy i s.notes = cs ++ sofar ∧
    Account origin (s.accepted i) none (j.parcel?.toList ++ l.parcels i) cs (s.tried i)

section

variable {publish : Node.Publisher Work} {c : LaneSettings} {o : NodeName} {s s' : Dispatcher}
  {n : Node} {i : Nat} {j : Job}

/-! ### Lanes -/

namespace Kept

variable {l l' : Lanes} {bs : List (Lanes × PendingAcks)}

theorem pos (h : Kept c l bs) : 0 < l.count := by
  rw [h.count]
  omega

theorem steady (h : Kept c l bs) (hl : l.Steady l') : Kept c l' bs where
  count := hl.count.trans h.count
  capacity := hl.capacity.trans h.capacity
  bounded := hl.bounded h.bounded
  spent p hp := Nat.lt_of_lt_of_le (h.spent p hp) hl.later
  distinct := h.distinct
  full := h.full

/-- A job is taken. -/
theorem take {rest : List Job} (h : Kept c l bs) (hq : l.queue i = j :: rest) :
    Kept c { l with queues := l.queues.modify i List.tail } bs where
  count := (Lanes.count_modify ..).trans h.count
  capacity := h.capacity
  bounded k := by
    have hk := h.bounded k
    show (Lanes.queue _ k).length ≤ l.capacity
    rw [Lanes.queue_take hq k]
    split
    · rename_i hik
      subst hik
      rw [hq, List.length_cons] at hk
      omega
    · exact hk
  spent := h.spent
  distinct := h.distinct
  full := h.full

theorem parcels_offered (bs : List (Lanes × PendingAcks)) (l : Lanes) (acks : PendingAcks) :
    PendingAcks.parcels ((bs ++ [(l, acks)]).flatMap Prod.snd) =
      PendingAcks.parcels (bs.flatMap Prod.snd) ++ PendingAcks.parcels acks := by
  unfold PendingAcks.parcels
  rw [List.flatMap_append, List.flatMap_singleton, List.filterMap_append]

/-- Events are handed in. -/
theorem offered (h : Kept c l bs) (es : List Event) :
    Kept c (l.offerAll es).1 (bs ++ [(l, (l.offerAll es).2)]) := by
  have hoff := Lanes.offerAll_offered es h.pos
  refine ⟨hoff.count.trans h.count, hoff.capacity.trans h.capacity, hoff.bounded h.bounded,
    ?spent, ?distinct, ?full⟩
  case spent =>
    intro p hp
    rw [parcels_offered] at hp
    rcases List.mem_append.mp hp with hp | hp
    · exact Nat.lt_of_lt_of_le (h.spent p hp) hoff.later
    · exact (hoff.fresh p hp).2
  case distinct =>
    rw [parcels_offered, List.map_append]
    refine List.nodup_append.mpr ⟨h.distinct, hoff.distinct, ?_⟩
    -- tickets that were given out before are smaller
    intro t ht t' ht' heq
    obtain ⟨p, hp, rfl⟩ := List.mem_map.mp ht
    obtain ⟨p', hp', rfl⟩ := List.mem_map.mp ht'
    have hbefore := h.spent p hp
    have hafter := (hoff.fresh p' hp').1
    omega
  case full =>
    intro b hb xs e ys heq
    rcases List.mem_append.mp hb with hb | hb
    · exact h.full b hb xs e ys heq
    · rw [List.mem_singleton.mp hb] at heq ⊢
      rw [← h.capacity]
      exact Lanes.offerAll_full h.bounded h.pos heq

end Kept

/-! ### What the steps keep -/

/-- There is only one account of a lane. -/
theorem Account.unique {q : Option Parcel} {w : List Parcel}
    {t : List (Parcel × Except BrokerError Unit)}
    (h : Account o (s.accepted i) q w (reportsBy i s.notes) t) :
    Account o (s.accepted i) q w (reportsBy i s.notes) (s.tried i) := by
  rw [show s.tried i = t from h.tried_eq]
  exact h

/-- What was accepted depends on the batches alone, and on how many lanes there are. -/
theorem accepted_congr (hbatches : batches s'.notes = batches s.notes)
    (hcount : s'.node.lanes.count = s.node.lanes.count) : s'.accepted i = s.accepted i := by
  unfold accepted outcomes
  rw [hbatches, hcount]

/-- What was tried depends on what was accepted, and on the reports. -/
theorem tried_congr (haccepted : s'.accepted i = s.accepted i)
    (hreports : reportsBy i s'.notes = reportsBy i s.notes) : s'.tried i = s.tried i := by
  unfold tried answersBy
  rw [haccepted, hreports]

/-- The node changes, but the parcels stay where they are. -/
theorem Sound.steady (h : s.Sound c o) (hn : s.node.Steady n) :
    Sound c o { s with node := n } where
  name := hn.name.trans h.name
  kept := h.kept.steady hn.lanes
  account i := by
    have haccepted : accepted { s with node := n } i = s.accepted i :=
      accepted_congr rfl hn.lanes.count
    rw [haccepted, tried_congr haccepted rfl, hn.lanes.parcels i]
    exact h.account i
  workers := h.workers
  drains := h.drains

/-- Drains come and go. -/
theorem Sound.draining {ds : List (Node.Act (Except BrokerError Unit))} (h : s.Sound c o)
    (hds : ∀ p ∈ ds, ∀ n, p.Heeds Node.Steady n) : Sound c o { s with drains := ds } :=
  { h with drains := hds }

/-- What was offered and accepted waits. -/
theorem Sound.account_offered (h : s.Sound c o) (es : List Event) (i : Nat) :
    Account o ((s.offered es).accepted i) (s.trying i) ((s.offered es).node.lanes.parcels i)
      (reportsBy i (s.offered es).notes) (s.tried i) := by
  have hoff := Lanes.offerAll_offered es h.kept.pos
  have haccepted : (s.offered es).accepted i =
      s.accepted i ++ (PendingAcks.parcels (s.node.lanes.offerAll es).2).filter
        (·.event.partition s.node.lanes.count = i) := by
    show (PendingAcks.parcels (outcomes (s.notes ++ [_]))).filter
      (fun p => p.event.partition (s.node.lanes.offerAll es).1.count = i) = _
    unfold accepted outcomes
    rw [batches_append, hoff.count]
    show (PendingAcks.parcels ((batches s.notes ++ [_]).flatMap Prod.snd)).filter _ = _
    rw [Kept.parcels_offered, List.filter_append]
  have hreports : reportsBy i (s.offered es).notes = reportsBy i s.notes := reportsBy_handedIn ..
  have hparcels : (s.offered es).node.lanes.parcels i = _ := hoff.parcels i
  rw [haccepted, hreports, hparcels]
  exact (h.account i).offer _

/-- Events are handed in. -/
theorem Sound.offered (h : s.Sound c o) (es : List Event) : (s.offered es).Sound c o where
  name := h.name
  kept := by
    have hbatches : batches (s.offered es).notes =
        batches s.notes ++ [(s.node.lanes, (s.node.lanes.offerAll es).2)] := batches_append ..
    rw [hbatches]
    exact h.kept.offered es
  account i := (h.account_offered es i).unique
  workers := h.workers
  drains := h.drains

/-! ### Workers -/

section

variable {e : Poll Node (Work ⊕ PublisherReport)}
  {q : Activity Node (Work ⊕ PublisherReport) (Option Work)} {l : Lanes}
  {sofar : List PublisherReport} {k : Nat}

theorem workers_worked : (s.worked i j e q).workers i = .busy j q := set_same ..

theorem workers_worked_other (hk : k ≠ i) : (s.worked i j e q).workers k = s.workers k :=
  set_other _ _ hk

theorem batches_worked : batches (s.worked i j e q).notes = batches s.notes := batches_reported ..

theorem reportsBy_worked :
    reportsBy i (s.worked i j e q).notes =
      reportsBy i s.notes ++ Activity.reportsIn e.started := by
  show reportsBy i (s.notes ++ _) = _
  rw [reportsBy_reported, if_pos rfl]

theorem reportsBy_worked_other (hk : k ≠ i) :
    reportsBy k (s.worked i j e q).notes = reportsBy k s.notes := by
  show reportsBy k (s.notes ++ _) = _
  rw [reportsBy_reported, if_neg hk, List.append_nil]

/-- The poll of a worker with a job leaves an account of its lane. -/
theorem Account.came {acc w : List Parcel} {cs new : List PublisherReport}
    {t : List (Parcel × Except BrokerError Unit)}
    (h : Account o acc none (j.parcel?.toList ++ w) cs t) (hcame : Node.Came o j new l q) :
    ∃ t', Account o acc ((Worker.busy j q).job?.bind Job.parcel?) w (cs ++ new) t' ∧
      Progress j l (.busy j q) t t' := by
  cases hcame with
  | finished hdone hfinished =>
    obtain ⟨r, hr, hfinish⟩ := h.finish hfinished
    have hw : (Worker.busy j q).job? = none := Worker.job?_done hdone
    rw [hw]
    exact ⟨_, hfinish, .done r hw hr rfl⟩
  | working hdone hwork _ =>
    have hw : (Worker.busy j q).job? = some j := Worker.job?_busy hdone
    rw [hw]
    exact ⟨t, h.start hwork, .going hw rfl⟩

/-- Polls of workers hand nothing in. -/
theorem Ready.accepted (hready : s.Ready c o i j l sofar) (h : s.Sound c o)
    (hl : l.Steady e.after.lanes) : (s.worked i j e q).accepted k = s.accepted k :=
  accepted_congr batches_worked (hl.count.trans (hready.kept.count.trans h.kept.count.symm))

/-- What was tried in the lane of the worker, and in the others. -/
theorem Ready.own (hready : s.Ready c o i j l sofar) (h : s.Sound c o)
    (hl : l.Steady e.after.lanes)
    (hcame : Node.Came o j (sofar ++ Activity.reportsIn e.started) e.after.lanes q) :
    Account o ((s.worked i j e q).accepted i) ((s.worked i j e q).trying i)
        (e.after.lanes.parcels i) (reportsBy i (s.worked i j e q).notes)
        ((s.worked i j e q).tried i) ∧
      Progress j e.after.lanes (.busy j q) (s.tried i) ((s.worked i j e q).tried i) := by
  obtain ⟨cs, hcs, haccount⟩ := hready.account
  obtain ⟨t, ht, hprogress⟩ := haccount.came hcame
  have htrying : (s.worked i j e q).trying i = (Worker.busy j q).job?.bind Job.parcel? := by
    unfold trying
    rw [workers_worked]
  have hreports : reportsBy i (s.worked i j e q).notes =
      cs ++ (sofar ++ Activity.reportsIn e.started) := by
    rw [reportsBy_worked, hcs, List.append_assoc]
  rw [← hready.accepted (q := q) h hl, ← hreports, ← hl.parcels i, ← htrying] at ht
  have htried : (s.worked i j e q).tried i = t := ht.tried_eq
  rw [htried]
  exact ⟨ht, hprogress⟩

/-- The account of a lane does not move in a poll of another lane's worker. -/
theorem Ready.other (hready : s.Ready c o i j l sofar) (h : s.Sound c o)
    (hl : l.Steady e.after.lanes) (hk : k ≠ i) :
    Account o ((s.worked i j e q).accepted k) ((s.worked i j e q).trying k)
      (e.after.lanes.parcels k) (reportsBy k (s.worked i j e q).notes)
      ((s.worked i j e q).tried k) := by
  have htrying : (s.worked i j e q).trying k = s.trying k := by
    unfold trying
    rw [workers_worked_other hk]
  refine Account.unique (t := s.tried k) ?_
  rw [hready.accepted h hl, htrying, reportsBy_worked_other hk, hl.parcels k, hready.others k hk]
  exact h.account k

/-- **A poll of the worker of a lane** keeps the invariant. -/
theorem Sound.worked (h : s.Sound c o) (hready : s.Ready c o i j l sofar)
    (hrecords : l.Records j.ticket e.after.lanes) (hname : e.after.name = o)
    (hcame : Node.Came o j (sofar ++ Activity.reportsIn e.started) e.after.lanes q) :
    (s.worked i j e q).Sound c o ∧ Polled s (s.worked i j e q) i j l := by
  have hl := hrecords.steady
  obtain ⟨haccount, hprogress⟩ := hready.own h hl hcame
  refine ⟨⟨hname, ?kept, fun k => ?account, fun k j' p hp hdone => ?workers, h.drains⟩, hrecords,
    fun k hk => ⟨?tried, workers_worked_other hk⟩, ?own⟩
  case kept =>
    -- no batch changes hands in the poll of a worker
    rw [batches_worked]
    exact hready.kept.steady hl
  case account =>
    -- the worker's own account moves by what the poll reported, the others stand still
    by_cases hk : k = i
    · exact hk ▸ haccount
    · exact hready.other h hl hk
  case workers =>
    -- a worker that is done holds no parcel, and one that works on holds that of its job
    by_cases hk : k = i
    · subst hk
      rw [workers_worked] at hp
      cases hp
      cases hcame with
      | finished hover _ =>
        rw [hover] at hdone
        cases hdone
      | working _ hwork hemployed =>
        obtain ⟨parcel, hparcel, hcs⟩ := hwork
        exact ⟨parcel, hparcel, hcs ▸ hemployed⟩
    · rw [workers_worked_other hk] at hp
      exact h.workers k j' p hp hdone
  case tried => exact tried_congr (hready.accepted h hl) (reportsBy_worked_other hk)
  case own =>
    rw [workers_worked]
    exact hprogress

/-- A worker takes its first job. -/
theorem Sound.ready_begin (h : s.Sound c o) {rest : List Job} (hw : s.workers i = .waiting)
    (hq : s.node.lanes.queue i = j :: rest) :
    s.Ready c o i j { s.node.lanes with queues := s.node.lanes.queues.modify i List.tail } [] := by
  refine ⟨h.kept.take hq, fun k hk => ?others, _, (List.append_nil _).symm, ?account⟩
  case others =>
    unfold Lanes.parcels
    rw [Lanes.queue_take hq k, if_neg (Ne.symm hk)]
  case account =>
    have hidle : s.trying i = none := by
      unfold trying
      rw [hw]
      rfl
    have hhead : s.node.lanes.parcels i = j.parcel?.toList ++
        Lanes.parcels { s.node.lanes with queues := s.node.lanes.queues.modify i List.tail } i := by
      unfold Lanes.parcels
      rw [Lanes.queue_take hq i, if_pos rfl, hq]
      cases hj : j.parcel? with
      | none => exact List.filterMap_cons_none hj
      | some p => exact List.filterMap_cons_some hj
    have haccount := h.account i
    rw [hidle, hhead] at haccount
    exact haccount

/-- **A worker takes its first job**, and goes as far as it comes. -/
theorem Sound.begin (hp : publish.Apart) (h : s.Sound c o) {rest : List Job} {r d x}
    (hw : s.workers i = .waiting) (hq : s.node.lanes.queue i = j :: rest)
    (hturn : Node.laneTurn (Node.reporting publish) i = .wait r d x)
    (hpoll : x.poll (.fresh s.tick s.node) = (e, q)) :
    (s.worked i j e q).Sound c o ∧ Polled s (s.worked i j e q) i j
      { s.node.lanes with queues := s.node.lanes.queues.modify i List.tail } := by
  rw [Node.poll_laneTurn hq hturn] at hpoll
  obtain ⟨⟨hrecords, hname⟩, hcame⟩ := (Node.employed_doJob hp o j).poll h.name rfl hpoll
  exact h.worked (h.ready_begin hw hq) hrecords (hname.trans h.name) hcame

/-- **A worker goes on** that has waited for the publisher. -/
theorem Sound.resume (h : s.Sound c o) {r d x} (hw : s.workers i = .busy j (.wait r d x))
    (hpoll : x.poll (.fresh s.tick s.node) = (e, q)) :
    (s.worked i j e q).Sound c o ∧ Polled s (s.worked i j e q) i j s.node.lanes := by
  obtain ⟨p, hparcel, hemployed⟩ := h.workers i j _ hw rfl
  have hx : Node.Employed o j [.begins (p.envelope o)] x :=
    ⟨hemployed.settles, fun n hn => (hemployed.reports n hn).2 n⟩
  obtain ⟨⟨hrecords, hname⟩, hcame⟩ := hx.poll h.name rfl hpoll
  have hbusy : s.trying i = some p := by
    unfold trying
    rw [hw]
    exact hparcel
  have haccount := h.account i
  rw [hbusy] at haccount
  obtain ⟨cs, hcs, hbefore⟩ := haccount.before_call
  have hready : s.Ready c o i j s.node.lanes [.begins (p.envelope o)] :=
    ⟨h.kept, fun _ _ => rfl, cs, hcs, hparcel ▸ hbefore⟩
  exact h.worked hready hrecords (hname.trans h.name) hcame

end

/-- A worker that was done with its job waits for the next. -/
theorem Sound.renew (h : s.Sound c o) {x : Option Work} (hw : s.workers i = .busy j (.done x)) :
    Sound c o { s with workers := set s.workers i .waiting } where
  name := h.name
  kept := h.kept
  account k := by
    have haccount := h.account k
    -- a worker that is done tries nothing any more, and neither does one that waits
    have htrying : trying { s with workers := set s.workers i .waiting } k = s.trying k := by
      show (set s.workers i .waiting k).job?.bind _ = _
      unfold trying
      by_cases hk : k = i
      · subst hk
        rw [set_same, hw]
        rfl
      · rw [set_other _ _ hk]
    rw [htrying]
    exact haccount
  workers k j' p (hp : set s.workers i .waiting k = .busy j' p) hdone := by
    by_cases hk : k = i
    · subst hk
      rw [set_same] at hp
      cases hp
    · rw [set_other _ _ hk] at hp
      exact h.workers k j' p hp hdone
  drains := h.drains

/-- **Every step keeps the invariant.** -/
theorem Sound.step (hp : publish.Apart) (h : s.Sound c o) (hs : Step publish s s') :
    s'.Sound c o := by
  cases hs with
  -- what is handed in changes accounts and nothing else
  | enqueue es hpoll =>
    rw [Node.poll_enqueue] at hpoll
    obtain ⟨rfl, hacks⟩ := Prod.mk.inj hpoll
    cases hacks
    exact h.offered es
  | begin hw hq hturn _ hpoll => exact (h.begin hp hw hq hturn hpoll).1
  | resume hw _ hpoll => exact (h.resume hw hpoll).1
  | renew hw => exact h.renew hw
  -- a drain leaves all accounts alone, whatever it waits for
  | @drain e q d hpoll =>
    obtain ⟨hsteady, hrest⟩ := Node.Steady.poll (Node.drain_heeds d s.node) hpoll
    have hdrains : Sound c o { s with drains := s.drains ++ [q] } :=
      h.draining (List.forall_mem_append.mpr ⟨h.drains, List.forall_mem_singleton.mpr hrest⟩)
    exact hdrains.steady hsteady
  -- so does a drain that goes on
  | @proceed xs r d k ys e q hd hgo hpoll =>
    have hold := h.drains
    rw [hd] at hold
    have hk : k.Heeds Node.Steady s.node :=
      hold _ (List.mem_append_right _ (List.mem_cons_self ..)) s.node s.tick s.node hgo
    obtain ⟨hsteady, hrest⟩ := Node.Steady.poll hk hpoll
    have hdrains : Sound c o { s with drains := xs ++ q :: ys } :=
      h.draining (forall_mem_replaced hold hrest)
    exact hdrains.steady hsteady
  -- and one that is given up
  | leave hd =>
    have hold := h.drains
    rw [hd] at hold
    exact h.draining (forall_mem_without hold)
  | pass _ => exact { h with }
  | change hn hname => exact h.steady ⟨.of_eq hn, hname⟩

/-- The invariant holds when all begins. -/
theorem sound_start (hn : n.lanes = .make c) : (start n).Sound c n.name where
  name := rfl
  kept := by
    -- no batch, no job and no event, in as many lanes as there are to be
    refine ⟨?count, ?capacity, fun i => ?bounded, fun p hp => absurd hp List.not_mem_nil,
      List.nodup_nil, fun b hb => absurd hb List.not_mem_nil⟩
    case count =>
      show n.lanes.count = _
      rw [hn]
      exact Array.size_replicate
    case capacity =>
      show n.lanes.capacity = _
      rw [hn]
      rfl
    case bounded =>
      show (n.lanes.queue i).length ≤ _
      rw [hn, Lanes.queue_make]
      exact Nat.zero_le _
  account i := by
    refine ⟨?_, rfl⟩
    -- all queues are empty, so both sides of the account are
    show [] = [] ++ ([] ++ n.lanes.parcels i)
    unfold Lanes.parcels
    rw [hn, Lanes.queue_make]
    rfl
  workers _ _ _ hw := by cases hw
  drains _ hp := absurd hp List.not_mem_nil

/-- **The invariant holds at every moment.** -/
theorem Sound.runs (hp : publish.Apart) (h : s.Sound c o) (hr : Runs publish s s') :
    s'.Sound c o := by
  induction hr with
  | refl => exact h
  | tail _ hs ih => exact ih.step hp hs

/-- An account tells what the publisher was called for. -/
theorem Sound.given (h : s.Sound c o) (i : Nat) :
    s.given i = (s.tried i).map Prod.fst ++ (s.trying i).toList :=
  (h.account i).given_eq

end

/-! ## Conservation -/

/-- What can be said of lanes of some settings at any moment. -/
structure Conserves (c : LaneSettings) (s : Dispatcher) : Prop where
  /-- There is at least one lane. -/
  count : s.node.lanes.count = max 1 c.partitions
  /-- Every event has one of the lanes. -/
  inRange : ∀ e : Event, e.partition s.node.lanes.count < s.node.lanes.count
  /-- What a lane has accepted, in order of acceptance, was given to the publisher, and then comes
      what waits. -/
  conserved : ∀ i, s.accepted i = s.given i ++ s.node.lanes.parcels i
  /-- The publisher was called for the envelopes of just these events, in this order. -/
  called : ∀ i, begunBy i s.notes = (s.given i).map (·.envelope s.node.name)
  /-- No two events were accepted under one ticket, so none was given to the publisher twice. -/
  once : ((PendingAcks.parcels (outcomes s.notes)).map Parcel.ticket).Nodup
  /-- The calls of a worker come one after another: each has ended before the next one begins, and
      at most the last one goes on. -/
  single : ∀ i, reportsBy i s.notes =
    ((s.tried i).flatMap fun x => x.1.call s.node.name x.2) ++
      (s.trying i).toList.map fun p => .begins (p.envelope s.node.name)
  /-- An event that was rejected, and was not accepted another time, was never given to the
      publisher. -/
  rejected : ∀ e why, (e, Ack.rejected why) ∈ outcomes s.notes →
    (∀ ticket, (e, Ack.queued ticket) ∉ outcomes s.notes) →
      ∀ i, ∀ p ∈ s.given i, p.event ≠ e
  /-- No lane holds more than it may. -/
  bounded : ∀ i, (s.node.lanes.queue i).length ≤ max 1 c.capacity
  /-- Where an event was rejected because its lane was full, that lane held as much as it may after
      the events before it in the batch. -/
  full : ∀ b ∈ batches s.notes, ∀ xs e ys, b.2 = xs ++ (e, .rejected .full) :: ys →
    ((b.1.offerAll (xs.map Prod.fst)).1.queue (e.partition b.1.count)).length = max 1 c.capacity
  /-- An event is only ever in the lane of its session. -/
  routed : ∀ i, ∀ p ∈ s.accepted i, i = partitionFor p.event.key.text (max 1 c.partitions)
  /-- The same number is in the name of the stream to which its envelope is appended. -/
  stream : ∀ b : KeyValue.StreamSettings, b.partitions = c.partitions →
    ∀ i, ∀ p ∈ s.accepted i,
      b.streamFor (p.envelope s.node.name).aggregateId = b.space ++ ":" ++ Text.decimal i

variable {publish : Node.Publisher Work} {c : LaneSettings} {o : NodeName} {s : Dispatcher}
  {n : Node}

theorem Sound.conserved (h : s.Sound c o) (i : Nat) :
    s.accepted i = s.given i ++ s.node.lanes.parcels i := by
  rw [(h.account i).accepted, h.given i, List.append_assoc]

theorem Sound.called (h : s.Sound c o) (i : Nat) :
    begunBy i s.notes = (s.given i).map (·.envelope o) := by
  rw [h.given i]
  exact (h.account i).envelopes

/-- What a lane has accepted belongs there. -/
theorem Sound.routed (h : s.Sound c o) {i : Nat} {p : Parcel} (hp : p ∈ s.accepted i) :
    i = partitionFor p.event.key.text (max 1 c.partitions) := by
  have hlane := of_decide_eq_true (List.mem_filter.mp hp).2
  rw [h.kept.count] at hlane
  exact hlane.symm

/-- **Lanes conserve what they accept.**  For all settings of the lanes, and every publisher that
    leaves them alone, the workers do what they would do if the publisher made no reports; and by
    its reports, in every run and at any moment, the events that a lane has accepted are those for
    which its worker called the publisher, in order, each once and one at a time, and then those
    that wait; nothing that was rejected reaches the publisher; lanes are never overfull, and shed
    events only when they are full; and a session has one lane, the one that its stream is named
    after. -/
theorem lanes_conserve (hp : publish.Apart) (hn : n.lanes = .make c)
    (hr : Runs publish (start n) s) :
    (∀ i, (Node.laneTurn (Node.reporting publish) i).unreported = Node.laneTurn publish i) ∧
      s.Conserves c := by
  have hsound := (sound_start hn).runs hp hr
  have h : s.Sound c s.node.name := hsound.name ▸ hsound
  refine ⟨Node.laneTurn_unreported publish, h.kept.count, fun e => partitionFor_lt _ h.kept.pos,
    h.conserved, h.called, h.kept.distinct, fun i => (h.account i).reported, ?rejected,
    fun i => h.kept.capacity ▸ h.kept.bounded i, h.kept.full, fun i p hp => h.routed hp, ?stream⟩
  case rejected =>
    rintro e why _ hnever i p hp rfl
    have hmem : p ∈ s.accepted i := List.mem_of_mem_take hp
    exact hnever p.ticket (PendingAcks.mem_parcels.mp (List.mem_filter.mp hmem).1)
  case stream =>
    intro b hb i p hp
    unfold KeyValue.StreamSettings.streamFor
    rw [hb, h.routed hp]
    rfl

end Dispatcher

namespace Sample

/-- Lanes for which nothing is set aside get one lane, with room for one job. -/
def slim : LaneSettings := { partitions := 0, capacity := 0 }

def slimNode : Node := { clock := .running .epoch, lanes := .make slim, settings }

def update (n : Nat) : Event := ⟨eventIdOf n, ⟨key, version n, .updated, .epoch⟩⟩

end Sample

open Note Sample in
/-- Of two events the first is accepted and published, and the second is shed; a third one waits
    while the lanes are drained. -/
theorem sample_lanes_conserve :
    Node.Publisher.Apart Node.deliver ∧ slimNode.lanes = .make slim ∧
      ∃ s : Dispatcher, Dispatcher.Runs Node.deliver (.start slimNode) s ∧
        outcomes s.notes =
          [(update 1, .queued 0), (update 2, .rejected .full), (update 3, .queued 1)] ∧
        reportsBy 0 s.notes = Parcel.call slimNode.name ⟨update 1, 0⟩ (.ok ()) ∧
        s.node.lanes.parcels 0 = [⟨update 3, 1⟩] ∧ s.Conserves slim := by
  have hr : Dispatcher.Runs Node.deliver (.start slimNode) _ :=
    .tail (.tail (.tail (.tail (.tail .refl
      (.enqueue [update 1, update 2] (Node.poll_enqueue _ _)))
      (.begin (i := 0) rfl rfl rfl rfl rfl))
      (.renew (i := 0) rfl))
      (.enqueue [update 3] (Node.poll_enqueue _ _)))
      (.drain .zero rfl)
  exact ⟨Node.deliver_apart, rfl, _, hr, rfl, rfl, rfl,
    (Dispatcher.lanes_conserve Node.deliver_apart rfl hr).2⟩

end SessionCluster
