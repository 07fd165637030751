/-
  The jobs of lanes — which events a lane holds, under which tickets, and how many.

  An event that is handed in gets the last place of its session's lane and a ticket of its own; or
  it is rejected, because the lanes are closed or because its lane is full.  An accepted event with
  its ticket is a `Parcel`: two events may look alike, but no two parcels have one ticket.

  * `Lanes.offer_cases` — all that handing in one event can do;
  * `Lanes.Offered`, `Lanes.offerAll_offered` — what handing in any number of events does: the
    parcels of a lane are continued by those that were accepted for it, their tickets are fresh, and
    no lane comes to hold more than it may;
  * `Lanes.offerAll_full` — an event is shed only when its lane holds as much as it may;
  * `Lanes.take_cons` — the worker of a lane takes its first job;
  * `Lanes.Steady` — what all others do: the parcels stay where they are;
  * `Lanes.Adds` — what callers and drains do: they add jobs, each under a fresh ticket.
-/
import SessionCluster.Proofs.Pipelines

namespace SessionCluster

/-! ## Parcels -/

/-- An event that was accepted, with its ticket. -/
structure Parcel where
  event : Event
  ticket : Nat
deriving DecidableEq

/-- The parcel that a job is to publish, if it is not a flush. -/
def Job.parcel? : Job → Option Parcel
  | .publish e ticket => some ⟨e, ticket⟩
  | .flush _ => none

/-- The ticket of a job. -/
def Job.ticket : Job → Nat
  | .publish _ ticket => ticket
  | .flush ticket => ticket

theorem Job.ticket_of_parcel {j : Job} {p : Parcel} (h : j.parcel? = some p) :
    p.ticket = j.ticket := by
  cases j with
  | publish e ticket =>
    cases h
    rfl
  | flush ticket => cases h

/-- The parcel that has come of an event, unless it was rejected. -/
def Ack.parcel? (e : Event) : Ack → Option Parcel
  | .queued ticket => some ⟨e, ticket⟩
  | .rejected _ => none

/-- The parcels among events that were handed in. -/
def PendingAcks.parcels (acks : PendingAcks) : List Parcel := acks.filterMap fun x => x.2.parcel? x.1

/-- The parcels are the events that were queued, under their tickets. -/
theorem PendingAcks.mem_parcels {acks : PendingAcks} {p : Parcel} :
    p ∈ PendingAcks.parcels acks ↔ (p.event, Ack.queued p.ticket) ∈ acks := by
  unfold PendingAcks.parcels
  rw [List.mem_filterMap]
  constructor
  · rintro ⟨⟨e, ack⟩, hmem, hack⟩
    cases ack with
    | queued ticket =>
      cases hack
      exact hmem
    | rejected why => cases hack
  · exact fun hmem => ⟨_, hmem, rfl⟩

namespace Lanes

variable {l l' l'' : Lanes} {i k : Nat} {j : Job} {e : Event} {acks acks' : PendingAcks}

/-- The parcels that wait in a lane. -/
def parcels (l : Lanes) (i : Nat) : List Parcel := (l.queue i).filterMap Job.parcel?

/-- Lanes that are made are empty. -/
theorem queue_make (s : LaneSettings) (i : Nat) : (make s).queue i = [] := by
  unfold queue make
  rw [Array.getD_eq_getD_getElem?, Array.getElem?_replicate]
  split <;> rfl

/-- No lane holds more than it may. -/
def Bounded (l : Lanes) : Prop := ∀ i, (l.queue i).length ≤ l.capacity

/-! ## Adding a job -/

theorem count_push (l : Lanes) (i : Nat) (j : Job) : (l.push i j).count = l.count :=
  count_modify ..

/-- A job gets the last place of its lane. -/
theorem queue_push (hi : i < l.count) (j : Job) (k : Nat) :
    (l.push i j).queue k = if i = k then l.queue k ++ [j] else l.queue k := by
  unfold push
  rw [queue_modify]
  by_cases hk : i = k
  · rw [if_pos ⟨hk, hk ▸ hi⟩, if_pos hk]
  · rw [if_neg fun h => hk h.1, if_neg hk]

/-- Without a lane there is no place. -/
theorem queue_push_outside (hi : ¬ i < l.count) (j : Job) (k : Nat) :
    (l.push i j).queue k = l.queue k := by
  unfold push
  rw [queue_modify, if_neg]
  rintro ⟨rfl, hk⟩
  exact hi hk

theorem hasRoom_iff : l.hasRoom i = true ↔ (l.queue i).length < l.capacity := decide_eq_true_iff

/-- A job that there is room for leaves every lane within its bound. -/
theorem Bounded.push (h : l.Bounded) (hroom : l.hasRoom i = true) (j : Job) :
    (l.push i j).Bounded := by
  intro k
  have hk := h k
  have hi := hasRoom_iff.mp hroom
  show ((l.push i j).queue k).length ≤ l.capacity
  by_cases hlane : i < l.count
  · rw [queue_push hlane]
    by_cases hik : i = k
    · subst hik
      rw [if_pos rfl, List.length_append, List.length_singleton]
      omega
    · rw [if_neg hik]
      exact hk
  · rw [queue_push_outside hlane]
    exact hk

/-! ## Handing in -/

/-- **All that handing in an event can do.** -/
theorem offer_cases (l : Lanes) (e : Event) :
    (l.closed = true ∧ l.offer e = (l, .rejected .closed)) ∨
    (l.closed = false ∧ l.hasRoom (e.partition l.count) = true ∧
      l.offer e = ({ l.push (e.partition l.count) (.publish e l.nextTicket) with
        nextTicket := l.nextTicket + 1 }, .queued l.nextTicket)) ∨
    (l.closed = false ∧ l.hasRoom (e.partition l.count) = false ∧
      l.offer e = (l, .rejected .full)) := by
  unfold offer
  cases hclosed : l.closed with
  | true => exact .inl ⟨rfl, if_pos rfl⟩
  | false =>
    rw [if_neg Bool.false_ne_true]
    cases hroom : l.hasRoom (e.partition l.count) with
    | true => exact .inr (.inl ⟨rfl, rfl, by simp [hroom]⟩)
    | false => exact .inr (.inr ⟨rfl, rfl, by simp [hroom]⟩)

/-- What handing in events does to lanes, if this is what became of the events. -/
structure Offered (l l' : Lanes) (acks : PendingAcks) : Prop where
  count : l'.count = l.count
  capacity : l'.capacity = l.capacity
  bounded : l.Bounded → l'.Bounded
  /-- Each lane gets those of the accepted events that belong to it, at its end. -/
  parcels : ∀ i, l'.parcels i =
    l.parcels i ++ (PendingAcks.parcels acks).filter (·.event.partition l.count = i)
  later : l.nextTicket ≤ l'.nextTicket
  /-- Tickets are fresh, -/
  fresh : ∀ p ∈ PendingAcks.parcels acks, l.nextTicket ≤ p.ticket ∧ p.ticket < l'.nextTicket
  /-- and each is given out once. -/
  distinct : ((PendingAcks.parcels acks).map Parcel.ticket).Nodup

namespace Offered

/-- Handing in nothing. -/
theorem nil (l : Lanes) : Offered l l [] where
  count := rfl
  capacity := rfl
  bounded := id
  parcels _ := (List.append_nil _).symm
  later := Nat.le_refl _
  fresh _ hp := absurd hp List.not_mem_nil
  distinct := List.nodup_nil

/-- Handing in some events and then others. -/
theorem append (h : Offered l l' acks) (h' : Offered l' l'' acks') :
    Offered l l'' (acks ++ acks') where
  count := h'.count.trans h.count
  capacity := h'.capacity.trans h.capacity
  bounded hl := h'.bounded (h.bounded hl)
  parcels i := by
    have hlast := h'.parcels i
    rw [h.parcels i, h.count, List.append_assoc, ← List.filter_append] at hlast
    unfold PendingAcks.parcels
    rw [List.filterMap_append]
    exact hlast
  later := Nat.le_trans h.later h'.later
  -- the tickets of the second are fresh after those of the first
  fresh p hp := by
    unfold PendingAcks.parcels at hp
    rw [List.filterMap_append] at hp
    have hlater := h.later
    have hlater' := h'.later
    rcases List.mem_append.mp hp with hp | hp
    · have hfresh := h.fresh p hp
      omega
    · have hfresh := h'.fresh p hp
      omega
  distinct := by
    unfold PendingAcks.parcels
    rw [List.filterMap_append, List.map_append]
    -- a ticket of the first lies below where the second begin
    refine List.nodup_append.mpr ⟨h.distinct, h'.distinct, ?_⟩
    intro t ht t' ht' heq
    obtain ⟨p, hp, rfl⟩ := List.mem_map.mp ht
    obtain ⟨p', hp', rfl⟩ := List.mem_map.mp ht'
    have hbefore := (h.fresh p hp).2
    have hafter := (h'.fresh p' hp').1
    omega

end Offered

/-- An event that is rejected changes nothing. -/
theorem offered_rejected (l : Lanes) (e : Event) (why : Rejection) :
    Offered l l [(e, .rejected why)] where
  count := rfl
  capacity := rfl
  bounded := id
  parcels _ := (List.append_nil _).symm
  later := Nat.le_refl _
  fresh _ hp := absurd hp List.not_mem_nil
  distinct := List.nodup_nil

/-- An event that is accepted gets the last place of its lane, and the next ticket. -/
theorem offered_queued (hcount : 0 < l.count) (hroom : l.hasRoom (e.partition l.count) = true) :
    Offered l { l.push (e.partition l.count) (.publish e l.nextTicket) with
      nextTicket := l.nextTicket + 1 } [(e, .queued l.nextTicket)] where
  count := count_push ..
  capacity := rfl
  bounded hl := hl.push hroom _
  parcels i := by
    have hlane : e.partition l.count < l.count := partitionFor_lt _ hcount
    show ((l.push _ _).queue i).filterMap _ = _
    rw [queue_push hlane]
    by_cases hi : e.partition l.count = i
    · rw [if_pos hi, List.filterMap_append]
      simp [Lanes.parcels, PendingAcks.parcels, Ack.parcel?, Job.parcel?, hi]
    · rw [if_neg hi]
      simp [Lanes.parcels, PendingAcks.parcels, Ack.parcel?, hi]
  later := Nat.le_succ _
  fresh p hp := by
    have hp' : p = ⟨e, l.nextTicket⟩ := List.mem_singleton.mp hp
    subst hp'
    exact ⟨Nat.le_refl _, Nat.lt_succ_self _⟩
  distinct := List.pairwise_singleton ..

/-- One event is handed in: it goes to the end of its lane, or is not taken at all. -/
theorem offer_offered (hcount : 0 < l.count) (e : Event) :
    Offered l (l.offer e).1 [(e, (l.offer e).2)] := by
  rcases l.offer_cases e with ⟨_, heq⟩ | ⟨_, hroom, heq⟩ | ⟨_, _, heq⟩
  · rw [heq]
    exact offered_rejected l e .closed
  · rw [heq]
    exact offered_queued hcount hroom
  · rw [heq]
    exact offered_rejected l e .full

/-- **What handing in events does**, however many there are. -/
theorem offerAll_offered (es : List Event) :
    ∀ {l : Lanes}, 0 < l.count → Offered l (l.offerAll es).1 (l.offerAll es).2 := by
  induction es with
  | nil => exact fun _ => .nil _
  | cons e es ih =>
    intro l hcount
    have hfirst := offer_offered hcount e
    have hrest := ih (hfirst.count ▸ hcount)
    exact hfirst.append hrest

theorem offerAll_cons (l : Lanes) (e : Event) (es : List Event) :
    (l.offerAll (e :: es)).2 = (e, (l.offer e).2) :: ((l.offer e).1.offerAll es).2 := rfl

/-- **An event is shed only when its lane holds as much as it may**, with what was handed in before
    it. -/
theorem offerAll_full {xs ys : PendingAcks} :
    ∀ {es : List Event} {l : Lanes}, l.Bounded → 0 < l.count →
      (l.offerAll es).2 = xs ++ (e, .rejected .full) :: ys →
      ((l.offerAll (xs.map Prod.fst)).1.queue (e.partition l.count)).length = l.capacity := by
  induction xs with
  -- the event is the first: its own offer was refused for want of room
  | nil =>
    intro es l hbounded _ heq
    cases es with
    | nil => cases heq
    | cons e' es =>
      rw [offerAll_cons] at heq
      obtain ⟨hfirst, _⟩ := List.cons.inj heq
      obtain ⟨rfl, hack⟩ := Prod.mk.inj hfirst
      -- the lane may have been closed, or the job may have been put there: not with this answer
      rcases l.offer_cases e' with ⟨_, hoff⟩ | ⟨_, _, hoff⟩ | ⟨_, hroom, _⟩
      · rw [hoff] at hack
        cases hack
      · rw [hoff] at hack
        cases hack
      · -- no room, in a lane that holds no more than it may, is as much as it may
        have hnot : ¬ (l.queue (e'.partition l.count)).length < l.capacity := by
          rw [← hasRoom_iff, hroom]
          exact Bool.false_ne_true
        have hle := hbounded (e'.partition l.count)
        show (l.queue (e'.partition l.count)).length = l.capacity
        omega
  -- the event comes later: the first offer leaves count and capacity alone
  | cons x xs ih =>
    intro es l hbounded hcount heq
    cases es with
    | nil => cases heq
    | cons e' es =>
      rw [offerAll_cons] at heq
      obtain ⟨hfirst, hrest⟩ := List.cons.inj heq
      subst hfirst
      have hoffered := offer_offered hcount e'
      have hlength := ih (hoffered.bounded hbounded) (hoffered.count ▸ hcount) hrest
      rw [hoffered.count, hoffered.capacity] at hlength
      exact hlength

/-! ## Taking -/

/-- The worker of a lane takes its first job, and leaves the others. -/
theorem take_cons {rest : List Job} (hq : l.queue i = j :: rest) :
    l.take i = ({ l with queues := l.queues.modify i List.tail }, some j) := by
  unfold take
  rw [hq]

theorem lt_count_of_queue {rest : List Job} (hq : l.queue i = j :: rest) : i < l.count := by
  by_contra hge
  have hnone : l.queue i = [] := by simp [queue, Array.getD, show ¬ i < l.queues.size from hge]
  rw [hnone] at hq
  cases hq

/-- Taking a job out of a lane leaves the others as they are. -/
theorem queue_take {rest : List Job} (hq : l.queue i = j :: rest) (k : Nat) :
    ({ l with queues := l.queues.modify i List.tail } : Lanes).queue k =
      if i = k then rest else l.queue k := by
  rw [queue_modify]
  by_cases hk : i = k
  · subst hk
    rw [if_pos ⟨rfl, lt_count_of_queue hq⟩, if_pos rfl, hq]
    rfl
  · rw [if_neg fun h => hk h.1, if_neg hk]

/-! ## What leaves the parcels where they are -/

/-- The parcels stay where they are, and no lane comes to hold more than it may. -/
structure Steady (l l' : Lanes) : Prop where
  count : l'.count = l.count
  capacity : l'.capacity = l.capacity
  bounded : l.Bounded → l'.Bounded
  /-- What is in the lanes stays there. -/
  parcels : ∀ i, l'.parcels i = l.parcels i
  later : l.nextTicket ≤ l'.nextTicket

namespace Steady

theorem refl (l : Lanes) : l.Steady l := ⟨rfl, rfl, id, fun _ => rfl, Nat.le_refl _⟩

theorem of_eq (h : l' = l) : l.Steady l' := h ▸ .refl l

theorem trans (h : l.Steady l') (h' : l'.Steady l'') : l.Steady l'' where
  count := h'.count.trans h.count
  capacity := h'.capacity.trans h.capacity
  bounded hl := h'.bounded (h.bounded hl)
  parcels i := (h'.parcels i).trans (h.parcels i)
  later := Nat.le_trans h.later h'.later

/-- The outcome of a ticket. -/
theorem settle (l : Lanes) (ticket : Nat) (r : Except BrokerError Unit) :
    l.Steady (l.settle ticket r) := ⟨rfl, rfl, id, fun _ => rfl, Nat.le_refl _⟩

theorem close (l : Lanes) : l.Steady l.close := ⟨rfl, rfl, id, fun _ => rfl, Nat.le_refl _⟩

/-- A flush where there is room. -/
theorem pushFlush (hroom : l.hasRoom i = true) : l.Steady (l.pushFlush i).1 where
  count := count_push ..
  capacity := rfl
  bounded hl := hl.push hroom _
  parcels k := by
    show ((l.push i (.flush l.nextTicket)).queue k).filterMap _ = _
    by_cases hi : i < l.count
    · rw [queue_push hi]
      split
      · rw [List.filterMap_append]
        exact List.append_nil _
      · rfl
    · rw [queue_push_outside hi]
      rfl
  later := Nat.le_succ _

end Steady

/-! ## What adds jobs -/

/-- All tickets of jobs that wait have been given out. -/
def Spent (l : Lanes) : Prop := ∀ i, ∀ j ∈ l.queue i, j.ticket < l.nextTicket

/-- Jobs are added to lanes, under fresh tickets, and none is taken out; no outcome is recorded. -/
structure Adds (l l' : Lanes) : Prop where
  count : l'.count = l.count
  ackTimeout : l'.ackTimeout = l.ackTimeout
  /-- No outcome is recorded. -/
  results : l'.results = l.results
  later : l.nextTicket ≤ l'.nextTicket
  spent : l.Spent → l'.Spent
  /-- No job is taken out. -/
  kept : ∀ i, ∀ j ∈ l.queue i, j ∈ l'.queue i
  /-- A job is an old one, or has a fresh ticket. -/
  added : ∀ i, ∀ j ∈ l'.queue i, j ∈ l.queue i ∨ l.nextTicket ≤ j.ticket
  distinct : l.Spent → ∀ {i j k j'}, j ∈ l'.queue i → j' ∈ l'.queue k →
    l.nextTicket ≤ j.ticket → j.ticket = j'.ticket → j = j'

namespace Adds

/-- What stays as it is adds nothing. -/
theorem refl (l : Lanes) : l.Adds l where
  count := rfl
  ackTimeout := rfl
  results := rfl
  later := Nat.le_refl _
  spent := id
  kept _ _ hj := hj
  added _ _ hj := .inl hj
  distinct hl i j k j' hj _ hnew _ := by
    have hold := hl i j hj
    omega

theorem of_eq (h : l' = l) : l.Adds l' := h ▸ .refl l

/-- Additions one after another are an addition. -/
theorem trans (h : l.Adds l') (h' : l'.Adds l'') : l.Adds l'' where
  count := h'.count.trans h.count
  ackTimeout := h'.ackTimeout.trans h.ackTimeout
  results := h'.results.trans h.results
  later := Nat.le_trans h.later h'.later
  spent hl := h'.spent (h.spent hl)
  kept i j hj := h'.kept i j (h.kept i j hj)
  added i j hj := by
    rcases h'.added i j hj with hj | hnew
    · exact h.added i j hj
    · exact .inr (Nat.le_trans h.later hnew)
  distinct hl i j k j' hj hj' hnew heq := by
    by_cases hlast : l'.nextTicket ≤ j.ticket
    · exact h'.distinct (h.spent hl) hj hj' hlast heq
    · -- both were added by the first
      have hmid : j ∈ l'.queue i := (h'.added i j hj).resolve_right hlast
      have hmid' : j' ∈ l'.queue k := (h'.added k j' hj').resolve_right (by omega)
      exact h.distinct hl hmid hmid' hnew heq

theorem close (l : Lanes) : l.Adds l.close := { refl l with }

/-- A job under the next ticket. -/
theorem push (i : Nat) (hj : j.ticket = l.nextTicket) :
    l.Adds { l.push i j with nextTicket := l.nextTicket + 1 } := by
  have hqueue : ∀ k, ∀ j' ∈ (l.push i j).queue k, j' ∈ l.queue k ∨ j' = j := by
    intro k j' hj'
    by_cases hi : i < l.count
    · rw [queue_push hi] at hj'
      split at hj'
      · rcases List.mem_append.mp hj' with hold | hnew
        · exact .inl hold
        · exact .inr (List.mem_singleton.mp hnew)
      · exact .inl hj'
    · rw [queue_push_outside hi] at hj'
      exact .inl hj'
  refine ⟨count_push .., rfl, rfl, Nat.le_succ _, ?spent, ?kept, ?added, ?distinct⟩
  case spent =>
    intro hl k j' hj'
    show j'.ticket < l.nextTicket + 1
    rcases hqueue k j' hj' with hold | rfl
    · have hlt := hl k j' hold
      omega
    · omega
  case kept =>
    intro k j' hj'
    show j' ∈ (l.push i j).queue k
    by_cases hi : i < l.count
    · rw [queue_push hi]
      split
      · exact List.mem_append_left _ hj'
      · exact hj'
    · rw [queue_push_outside hi]
      exact hj'
  case added =>
    intro k j' hj'
    rcases hqueue k j' hj' with hold | rfl
    · exact .inl hold
    · exact .inr (Nat.le_of_eq hj.symm)
  case distinct =>
    intro hl a x b y hx hy hnew heq
    -- only one job has the new ticket
    have hfresh : ∀ k, ∀ j' ∈ (l.push i j).queue k, l.nextTicket ≤ j'.ticket → j' = j := by
      intro k j' hj' hle
      rcases hqueue k j' hj' with hold | rfl
      · have hlt := hl k j' hold
        omega
      · rfl
    rw [hfresh a x hx hnew, hfresh b y hy (by omega)]

/-- An event that is offered is added, if anything is. -/
theorem offer (l : Lanes) (e : Event) : l.Adds (l.offer e).1 := by
  rcases l.offer_cases e with ⟨_, heq⟩ | ⟨_, _, heq⟩ | ⟨_, _, heq⟩
  · rw [heq]
    exact .refl l
  · rw [heq]
    exact .push _ rfl
  · rw [heq]
    exact .refl l

theorem offerAll (es : List Event) : ∀ l : Lanes, l.Adds (l.offerAll es).1 := by
  induction es with
  | nil => exact .refl
  | cons e es ih => exact fun l => (offer l e).trans (ih _)

theorem pushFlush (l : Lanes) (i : Nat) : l.Adds (l.pushFlush i).1 := .push i rfl

end Adds

/-- What was accepted waits in its lane. -/
theorem offer_waits (hcount : 0 < l.count) {ticket : Nat} (h : (l.offer e).2 = .queued ticket) :
    Job.publish e ticket ∈ (l.offer e).1.queue (e.partition l.count) := by
  rcases l.offer_cases e with ⟨_, heq⟩ | ⟨_, _, heq⟩ | ⟨_, _, heq⟩
  · rw [heq] at h
    cases h
  · rw [heq] at h ⊢
    cases h
    have hlane : e.partition l.count < l.count := partitionFor_lt _ hcount
    show _ ∈ (l.push _ _).queue _
    rw [queue_push hlane, if_pos rfl]
    exact List.mem_append_right _ (List.mem_singleton.mpr rfl)
  · rw [heq] at h
    cases h

end Lanes

end SessionCluster
