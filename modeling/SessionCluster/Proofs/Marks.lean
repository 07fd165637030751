/-
  Marks — how a flush tells that a lane is through.

  The jobs of a lane are the one that its worker has in hand and those that wait, in order; its
  parcels among them are pending.  Every job has a ticket of its own.  Closed lanes accept nothing,
  so a flush at the end of a closed lane stays behind everything that is pending there, while
  other flushes may come after it.  Only the worker that has the flush in hand records its outcome,
  and then nothing is pending before it.

  * `Stock.Numbered` — no two jobs have one ticket, and no ticket has an outcome before it is given
    out;
  * `Stock.Marks` — a ticket marks a lane: its outcome tells that nothing is pending any more
    (`Marks.through_of_result`);
  * `Stock.Past` — a ticket that no job has any more;
  * `Stock.Later` — what becomes of lanes and their workers in the course of time: marks stay marks,
    what is through stays so, and the outcome of a ticket that is past stays the same; with one lemma
    for each thing that may happen.
-/
import SessionCluster.Proofs.LaneJobs

namespace SessionCluster

/-! ## Outcomes -/

namespace Lanes

/-- Outcomes of one ticket are recorded, and nothing else happens. -/
structure Records (ticket : Nat) (l l' : Lanes) : Prop where
  queues : l'.queues = l.queues
  capacity : l'.capacity = l.capacity
  closed : l'.closed = l.closed
  nextTicket : l'.nextTicket = l.nextTicket
  /-- Other tickets keep their outcomes. -/
  others : ∀ t, t ≠ ticket → l'.result? t = l.result? t

variable {l l' l'' : Lanes} {ticket : Nat}

theorem result?_settle (l : Lanes) (ticket : Nat) (r : Except BrokerError Unit) (t : Nat) :
    (l.settle ticket r).result? t = if t = ticket then some r else l.result? t := by
  unfold result? settle
  rw [List.lookup_cons]
  by_cases h : t = ticket
  · simp [h]
  · simp [h, beq_false_of_ne h]

namespace Records

theorem refl (ticket : Nat) (l : Lanes) : l.Records ticket l :=
  ⟨rfl, rfl, rfl, rfl, fun _ _ => rfl⟩

theorem of_eq (h : l' = l) : l.Records ticket l' := h ▸ .refl ticket l

theorem trans (h : l.Records ticket l') (h' : l'.Records ticket l'') : l.Records ticket l'' where
  queues := h'.queues.trans h.queues
  capacity := h'.capacity.trans h.capacity
  closed := h'.closed.trans h.closed
  nextTicket := h'.nextTicket.trans h.nextTicket
  others t ht := (h'.others t ht).trans (h.others t ht)

theorem settle (l : Lanes) (ticket : Nat) (r : Except BrokerError Unit) :
    l.Records ticket (l.settle ticket r) where
  queues := rfl
  capacity := rfl
  closed := rfl
  nextTicket := rfl
  others t ht := by rw [result?_settle, if_neg ht]

theorem queue (h : l.Records ticket l') (i : Nat) : l'.queue i = l.queue i := by
  unfold Lanes.queue
  rw [h.queues]

/-- No parcel moves meanwhile. -/
theorem steady (h : l.Records ticket l') : l.Steady l' where
  count := congrArg Array.size h.queues
  capacity := h.capacity
  bounded hl i := by
    rw [h.queue i, h.capacity]
    exact hl i
  parcels i := congrArg (List.filterMap Job.parcel?) (h.queue i)
  later := Nat.le_of_eq h.nextTicket.symm

end Records

/-- **Closed lanes reject whatever is handed in**, and stay as they are. -/
theorem offerAll_closed (h : l.closed = true) (es : List Event) :
    l.offerAll es = (l, es.map fun e => (e, .rejected .closed)) := by
  have hoffer (e : Event) : l.offer e = (l, .rejected .closed) := if_pos h
  induction es with
  | nil => rfl
  | cons e es ih =>
    show (((l.offer e).1.offerAll es).1, (e, (l.offer e).2) :: ((l.offer e).1.offerAll es).2) = _
    rw [hoffer e, ih]
    rfl

end Lanes

/-! ## Jobs -/

/-- Lanes, and the jobs that their workers have in hand. -/
structure Stock where
  lanes : Lanes
  hands : Nat → Option Job

namespace Stock

/-- The jobs of a lane: the one in hand, and those that wait. -/
def jobs (k : Stock) (i : Nat) : List Job := (k.hands i).toList ++ k.lanes.queue i

/-- The parcels of a lane that its worker is not done with. -/
def pending (k : Stock) (i : Nat) : List Parcel := (k.jobs i).filterMap Job.parcel?

/-- Every job has a ticket of its own, and outcomes have tickets that were given out. -/
structure Numbered (k : Stock) : Prop where
  /-- Tickets in use were given out. -/
  spent : ∀ i, ∀ j ∈ k.jobs i, j.ticket < k.lanes.nextTicket
  /-- No lane has a ticket twice, -/
  distinct : ∀ i, ((k.jobs i).map Job.ticket).Nodup
  /-- and no two lanes share one. -/
  apart : ∀ i i', i ≠ i' → ∀ j ∈ k.jobs i, ∀ j' ∈ k.jobs i', j.ticket ≠ j'.ticket
  /-- Outcomes are for tickets that were given out. -/
  answered : ∀ t, (k.lanes.result? t).isSome → t < k.lanes.nextTicket

/-- A ticket marks a lane: the lane is through, or the flush under the ticket has no outcome and
    is behind everything that is pending. -/
inductive Marks (k : Stock) (i t : Nat) : Prop where
  | through (h : k.pending i = [])
  | behind (xs ys : List Job) (hnone : k.lanes.result? t = none)
      (hjobs : k.jobs i = xs ++ .flush t :: ys) (hrest : ys.filterMap Job.parcel? = [])

/-- A ticket is past: it was given out, and no job has it any more. -/
structure Past (k : Stock) (t : Nat) : Prop where
  spent : t < k.lanes.nextTicket
  nobody : ∀ i, ∀ j ∈ k.jobs i, j.ticket ≠ t

variable {k k' k'' : Stock} {i t : Nat} {j : Job}

/-- The outcome of a mark tells that its lane is through. -/
theorem Marks.through_of_result (h : k.Marks i t) (ht : (k.lanes.result? t).isSome) :
    k.pending i = [] := by
  cases h with
  | through h => exact h
  | behind xs ys hnone => simp [hnone] at ht

/-! ## Time goes on -/

/-- What becomes of lanes and their workers in the course of time. -/
structure Later (k k' : Stock) : Prop where
  count : k'.lanes.count = k.lanes.count
  /-- Closed lanes stay closed. -/
  closed : k.lanes.closed = true → k'.lanes.closed = true
  /-- What is past stays past, and keeps its outcome. -/
  past : ∀ t, k.Past t → k'.Past t ∧ k'.lanes.result? t = k.lanes.result? t
  numbered : k.Numbered → k'.Numbered
  /-- A closed lane with nothing left to publish stays so. -/
  through : k.lanes.closed = true → ∀ i, k.pending i = [] → k'.pending i = []
  /-- In closed lanes marks stay marks. -/
  marks : k.lanes.closed = true → k.Numbered → ∀ i t, k.Marks i t → k'.Marks i t

namespace Later

theorem refl (k : Stock) : k.Later k :=
  ⟨rfl, id, fun _ ht => ⟨ht, rfl⟩, id, fun _ _ => id, fun _ _ _ _ => id⟩

/-- Later than later is later. -/
theorem trans (h : k.Later k') (h' : k'.Later k'') : k.Later k'' where
  count := h'.count.trans h.count
  closed hc := h'.closed (h.closed hc)
  past t ht := by
    obtain ⟨hmid, hresult⟩ := h.past t ht
    obtain ⟨hlast, hresult'⟩ := h'.past t hmid
    exact ⟨hlast, hresult'.trans hresult⟩
  numbered hn := h'.numbered (h.numbered hn)
  through hc i hi := h'.through (h.closed hc) i (h.through hc i hi)
  marks hc hn i t ht := h'.marks (h.closed hc) (h.numbered hn) i t (h.marks hc hn i t ht)

/-- The jobs and the outcomes stay as they are. -/
theorem of_jobs (hjobs : ∀ i, k'.jobs i = k.jobs i) (hcount : k'.lanes.count = k.lanes.count)
    (hclosed : k.lanes.closed = true → k'.lanes.closed = true)
    (hnext : k'.lanes.nextTicket = k.lanes.nextTicket)
    (hresult : ∀ t, k'.lanes.result? t = k.lanes.result? t) : k.Later k' := by
  -- whatever is asked of a lane is read off its jobs
  have hpending (i : Nat) : k'.pending i = k.pending i := by
    unfold pending
    rw [hjobs i]
  refine ⟨hcount, hclosed, fun t ht => ⟨⟨?_, fun i j hj => ?_⟩, hresult t⟩, ?numbered,
    fun _ i hi => hpending i ▸ hi, ?marks⟩
  · rw [hnext]
    exact ht.spent
  · exact ht.nobody i j (hjobs i ▸ hj)
  -- tickets stay spent, and stay apart
  case numbered =>
    intro hn
    refine ⟨fun i j hj => ?_, fun i => hjobs i ▸ hn.distinct i, fun i i' hne j hj j' hj' => ?_,
      fun t ht => ?_⟩
    · rw [hnext]
      exact hn.spent i j (hjobs i ▸ hj)
    · exact hn.apart i i' hne j (hjobs i ▸ hj) j' (hjobs i' ▸ hj')
    · rw [hnext]
      exact hn.answered t (hresult t ▸ ht)
  -- a mark is given back, or still stands behind what it stood behind
  case marks =>
    intro _ _ i t ht
    cases ht with
    | through h => exact .through (hpending i ▸ h)
    | behind xs ys hnone hj hrest =>
      exact .behind xs ys ((hresult t).trans hnone) ((hjobs i).trans hj) hrest

/-- The lanes are closed. -/
theorem close (k : Stock) : k.Later ⟨k.lanes.close, k.hands⟩ :=
  of_jobs (fun _ => rfl) rfl (fun _ => rfl) rfl fun _ => rfl

/-- A worker takes its first job: it has in hand what has waited. -/
theorem take {rest : List Job} (hnone : k.hands i = none) (hq : k.lanes.queue i = j :: rest)
    {hands : Nat → Option Job} (hhand : hands i = some j)
    (hothers : ∀ i', i' ≠ i → hands i' = k.hands i') :
    k.Later ⟨{ k.lanes with queues := k.lanes.queues.modify i List.tail }, hands⟩ := by
  refine of_jobs (fun i' => ?_) (Lanes.count_modify ..) id rfl fun _ => rfl
  unfold jobs
  show (hands i').toList ++ Lanes.queue _ i' = _
  rw [Lanes.queue_take hq i']
  by_cases hi : i = i'
  · subst hi
    rw [if_pos rfl, hhand, hnone, hq]
    rfl
  · rw [if_neg hi, hothers i' fun h => hi h.symm]

/-! ### A job is added -/

/-- A job gets the last place of its lane, if there is such a lane. -/
theorem jobs_push (i i' : Nat) (j : Job) :
    jobs ⟨{ k.lanes.push i j with nextTicket := k.lanes.nextTicket + 1 }, k.hands⟩ i' =
      if i = i' ∧ i < k.lanes.count then k.jobs i' ++ [j] else k.jobs i' := by
  unfold jobs
  show (k.hands i').toList ++ (k.lanes.push i j).queue i' = _
  by_cases hlane : i < k.lanes.count
  · rw [Lanes.queue_push hlane]
    by_cases hi : i = i'
    · rw [if_pos hi, if_pos ⟨hi, hlane⟩, List.append_assoc]
    · rw [if_neg hi, if_neg fun h => hi h.1]
  · rw [Lanes.queue_push_outside hlane, if_neg fun h => hlane h.2]

/-- A job of a lane was there before, or is the one that is pushed. -/
theorem mem_jobs_push {i' : Nat} {j' : Job}
    (h : j' ∈ jobs ⟨{ k.lanes.push i j with nextTicket := k.lanes.nextTicket + 1 }, k.hands⟩ i') :
    j' ∈ k.jobs i' ∨ i = i' ∧ j' = j := by
  rw [jobs_push] at h
  split at h
  · rename_i hi
    rcases List.mem_append.mp h with h | h
    · exact .inl h
    · exact .inr ⟨hi.1, List.mem_singleton.mp h⟩
  · exact .inl h

/-- A flush leaves what is pending as it is. -/
theorem pending_push (i i' : Nat) (hflush : j.parcel? = none) :
    pending ⟨{ k.lanes.push i j with nextTicket := k.lanes.nextTicket + 1 }, k.hands⟩ i' =
      k.pending i' := by
  unfold pending
  rw [jobs_push]
  split
  · simp [hflush]
  · rfl

/-- The next ticket is nobody's yet, so jobs stay numbered when one is added under it. -/
theorem numbered_push (i : Nat) (hticket : j.ticket = k.lanes.nextTicket) (hn : k.Numbered) :
    Numbered ⟨{ k.lanes.push i j with nextTicket := k.lanes.nextTicket + 1 }, k.hands⟩ := by
  refine ⟨?spent, ?distinct, ?apart, fun t ht => Nat.lt_succ_of_lt (hn.answered t ht)⟩
  case spent =>
    intro i' j' hj'
    show j'.ticket < k.lanes.nextTicket + 1
    rcases mem_jobs_push hj' with hold | ⟨_, rfl⟩
    · exact Nat.lt_succ_of_lt (hn.spent i' j' hold)
    · omega
  -- in its own lane the new job's ticket is above all others
  case distinct =>
    intro i'
    rw [jobs_push]
    split
    · rw [List.map_append]
      refine List.nodup_append.mpr ⟨hn.distinct i', List.pairwise_singleton .., ?_⟩
      intro t ht t' ht' heq
      obtain ⟨j', hj', rfl⟩ := List.mem_map.mp ht
      have hlt := hn.spent i' j' hj'
      have hlast : t' = j.ticket := List.mem_singleton.mp ht'
      omega
    · exact hn.distinct i'
  -- and it is above those of the other lanes
  case apart =>
    intro a b hne x hx y hy
    rcases mem_jobs_push hx with hx | ⟨ha, hx⟩
    · rcases mem_jobs_push hy with hy | ⟨_, hy⟩
      · exact hn.apart a b hne x hx y hy
      · have hlt := hn.spent a x hx
        rw [hy]
        omega
    · rcases mem_jobs_push hy with hy | ⟨hb, _⟩
      · have hlt := hn.spent b y hy
        rw [hx]
        omega
      · exact absurd (ha.symm.trans hb) hne

/-- A flush comes behind the marks of its lane, and takes nothing from them. -/
theorem marks_push (i : Nat) {i' t : Nat} (hflush : j.parcel? = none) (ht : k.Marks i' t) :
    Marks ⟨{ k.lanes.push i j with nextTicket := k.lanes.nextTicket + 1 }, k.hands⟩ i' t := by
  cases ht with
  | through h => exact .through ((pending_push i i' hflush).trans h)
  | behind xs ys hnone hjobs hrest =>
    by_cases hi : i = i' ∧ i < k.lanes.count
    · refine .behind xs (ys ++ [j]) hnone ?_ ?_
      · rw [jobs_push, if_pos hi, hjobs, List.append_assoc, List.cons_append]
      · simp [hrest, hflush]
    · exact .behind xs ys hnone (by rw [jobs_push, if_neg hi, hjobs]) hrest

/-- A job is added under the next ticket; to closed lanes, only a flush. -/
theorem push (i : Nat) (hticket : j.ticket = k.lanes.nextTicket)
    (hflush : k.lanes.closed = true → j.parcel? = none) :
    k.Later ⟨{ k.lanes.push i j with nextTicket := k.lanes.nextTicket + 1 }, k.hands⟩ where
  count := Lanes.count_push ..
  closed := id
  past t ht := by
    -- a ticket that was spent is not the next one
    refine ⟨⟨Nat.lt_succ_of_lt ht.spent, fun i' j' hj' => ?_⟩, rfl⟩
    rcases mem_jobs_push hj' with hold | ⟨_, rfl⟩
    · exact ht.nobody i' j' hold
    · have hlt := ht.spent
      omega
  numbered := numbered_push i hticket
  through hc i' hi := (pending_push i i' (hflush hc)).trans hi
  marks hc _ _ _ ht := marks_push i (hflush hc) ht

/-- An event is handed in. -/
theorem offer (k : Stock) (e : Event) : k.Later ⟨(k.lanes.offer e).1, k.hands⟩ := by
  rcases k.lanes.offer_cases e with ⟨_, heq⟩ | ⟨hopen, _, heq⟩ | ⟨_, _, heq⟩
  · rw [heq]
    exact .refl k
  · rw [heq]
    exact .push _ rfl fun hc => by simp [hopen] at hc
  · rw [heq]
    exact .refl k

theorem offerAll (es : List Event) : ∀ k : Stock, k.Later ⟨(k.lanes.offerAll es).1, k.hands⟩ := by
  induction es with
  | nil => exact .refl
  | cons e es ih => exact fun k => (offer k e).trans (ih ⟨(k.lanes.offer e).1, k.hands⟩)

/-- A drain puts a flush into a lane. -/
theorem pushFlush (k : Stock) (i : Nat) : k.Later ⟨(k.lanes.pushFlush i).1, k.hands⟩ :=
  push i rfl fun _ => rfl

/-- The flush that was put into a closed lane marks it. -/
theorem marks_pushFlush (hn : k.Numbered) (hi : i < k.lanes.count) :
    Marks ⟨(k.lanes.pushFlush i).1, k.hands⟩ i (k.lanes.pushFlush i).2 := by
  refine .behind (k.jobs i) [] ?_ ?_ rfl
  · -- the ticket is fresh
    show k.lanes.result? k.lanes.nextTicket = none
    by_contra hsome
    exact Nat.lt_irrefl _ (hn.answered _ (Option.isSome_iff_ne_none.mpr hsome))
  · exact (jobs_push i i (.flush k.lanes.nextTicket)).trans (if_pos ⟨rfl, hi⟩)

/-! ### A worker works -/

/-- The job in hand is the first of its lane, and no other job has its ticket. -/
theorem ticket_ne (hn : k.Numbered) (hhand : k.hands i = some j) {i' : Nat} {x : Job}
    {xs ys : List Job} (hjobs : k.jobs i' = xs ++ x :: ys) :
    x.ticket ≠ j.ticket ∨ i' = i ∧ xs = [] ∧ x = j := by
  have hfirst : k.jobs i = j :: k.lanes.queue i := by
    unfold jobs
    rw [hhand]
    rfl
  by_cases hi : i' = i
  · subst hi
    rw [hfirst] at hjobs
    cases xs with
    | nil => exact .inr ⟨rfl, rfl, (List.cons.inj hjobs).1.symm⟩
    | cons y xs =>
      obtain ⟨rfl, hrest⟩ := List.cons.inj hjobs
      refine .inl fun heq => ?_
      have hdistinct := hn.distinct i'
      rw [hfirst, hrest, List.map_cons, List.nodup_cons] at hdistinct
      exact hdistinct.1 (heq ▸ List.mem_map_of_mem (List.mem_append_right _ (List.mem_cons_self ..)))
  · refine .inl (hn.apart i' i hi x ?_ j ?_)
    · rw [hjobs]
      exact List.mem_append_right _ (List.mem_cons_self ..)
    · rw [hfirst]
      exact List.mem_cons_self ..

/-- A worker records the outcome of the job that it has in hand. -/
theorem records (hhand : k.hands i = some j) {l : Lanes} (hl : k.lanes.Records j.ticket l) :
    k.Later ⟨l, k.hands⟩ := by
  have hjobs (i' : Nat) : jobs ⟨l, k.hands⟩ i' = k.jobs i' := by
    unfold jobs
    rw [hl.queue i']
  have hpending (i' : Nat) : pending ⟨l, k.hands⟩ i' = k.pending i' := by
    unfold pending
    rw [hjobs i']
  have hmem : j ∈ k.jobs i := by
    unfold jobs
    rw [hhand]
    exact List.mem_cons_self ..
  refine ⟨congrArg Array.size hl.queues, fun hc => hl.closed.trans hc, ?past, ?numbered,
    fun _ i' hi => (hpending i').trans hi, ?marks⟩
  case past =>
    intro t ht
    have hne : t ≠ j.ticket := fun heq => ht.nobody i j hmem heq.symm
    exact ⟨⟨hl.nextTicket ▸ ht.spent, fun i' x hx => ht.nobody i' x (hjobs i' ▸ hx)⟩, hl.others t hne⟩
  case numbered =>
    intro hn
    refine ⟨fun i' x hx => ?_, fun i' => (hjobs i').symm ▸ hn.distinct i',
      fun a b hne x hx y hy => hn.apart a b hne x (hjobs a ▸ hx) y (hjobs b ▸ hy), fun t ht => ?_⟩
    · show x.ticket < l.nextTicket
      rw [hl.nextTicket]
      exact hn.spent i' x (hjobs i' ▸ hx)
    · show t < l.nextTicket
      rw [hl.nextTicket]
      by_cases hticket : t = j.ticket
      · exact hticket ▸ hn.spent i j hmem
      · exact hn.answered t (hl.others t hticket ▸ ht)
  case marks =>
    intro _ hn i' t ht
    cases ht with
    | through h => exact .through ((hpending i').trans h)
    | behind xs ys hnone hj hrest =>
      rcases ticket_ne hn hhand hj with hne | ⟨rfl, rfl, rfl⟩
      · exact .behind xs ys ((hl.others t hne).trans hnone) ((hjobs i').trans hj) hrest
      · -- the flush itself is in hand
        refine .through ((hpending i').trans ?_)
        unfold pending
        rw [hj]
        exact hrest

section

variable (hhand : k.hands i = some j) {hands : Nat → Option Job} (hnone : hands i = none)
  (hothers : ∀ i', i' ≠ i → hands i' = k.hands i')

include hhand hnone in
/-- The job that a worker was done with was the first of its lane. -/
theorem jobs_released : k.jobs i = j :: jobs ⟨k.lanes, hands⟩ i := by
  unfold jobs
  show _ = j :: ((hands i).toList ++ _)
  rw [hhand, hnone]
  rfl

include hothers in
theorem jobs_others {i' : Nat} (hi : i' ≠ i) : jobs ⟨k.lanes, hands⟩ i' = k.jobs i' := by
  unfold jobs
  show (hands i').toList ++ _ = _
  rw [hothers i' hi]

include hhand hnone hothers

/-- Its ticket is past. -/
theorem past_released (hn : k.Numbered) : Past ⟨k.lanes, hands⟩ j.ticket := by
  have hfirst := jobs_released hhand hnone
  have hmem : j ∈ k.jobs i := hfirst ▸ List.mem_cons_self ..
  refine ⟨hn.spent i j hmem, fun i' x hx heq => ?_⟩
  by_cases hi : i' = i
  · subst hi
    have hdistinct := hn.distinct i'
    rw [hfirst, List.map_cons, List.nodup_cons] at hdistinct
    exact hdistinct.1 (heq ▸ List.mem_map_of_mem hx)
  · rw [jobs_others hothers hi] at hx
    exact hn.apart i' i hi x hx j hmem heq

/-- A worker is done with the job that it has in hand. -/
theorem release : k.Later ⟨k.lanes, hands⟩ := by
  have hfirst := jobs_released hhand hnone
  have hjobs {i' : Nat} (hi : i' ≠ i) := jobs_others hothers hi
  have hsub (i' : Nat) : (jobs ⟨k.lanes, hands⟩ i').Sublist (k.jobs i') := by
    by_cases hi : i' = i
    · subst hi
      rw [hfirst]
      exact List.sublist_cons_self ..
    · rw [hjobs hi]
  have hthrough (i' : Nat) (h : k.pending i' = []) : pending ⟨k.lanes, hands⟩ i' = [] :=
    List.sublist_nil.mp (h ▸ (hsub i').filterMap Job.parcel?)
  refine ⟨rfl, id, fun t ht => ⟨⟨ht.spent, fun i' x hx => ht.nobody i' x ((hsub i').subset hx)⟩, rfl⟩,
    ?numbered, fun _ i' => hthrough i', ?marks⟩
  case numbered =>
    exact fun hn => ⟨fun i' x hx => hn.spent i' x ((hsub i').subset hx),
      fun i' => ((hsub i').map Job.ticket).nodup (hn.distinct i'),
      fun a b hne x hx y hy => hn.apart a b hne x ((hsub a).subset hx) y ((hsub b).subset hy),
      hn.answered⟩
  case marks =>
    intro _ _ i' t ht
    cases ht with
    | through h => exact .through (hthrough i' h)
    | behind xs ys hnone' hj hrest =>
      by_cases hi : i' = i
      · subst hi
        rw [hfirst] at hj
        cases xs with
        | nil =>
          -- the flush is what the worker is done with
          refine .through ?_
          unfold pending
          rw [(List.cons.inj hj).2]
          exact hrest
        | cons x xs => exact .behind xs ys hnone' (List.cons.inj hj).2 hrest
      · exact .behind xs ys hnone' ((hjobs hi).trans hj) hrest

end

/-- A worker goes on with the job that it has in hand, and may be done with it then. -/
theorem worked (hhand : k.hands i = some j) {l : Lanes} (hl : k.lanes.Records j.ticket l)
    {hands : Nat → Option Job} (hself : hands i = none ∨ hands i = some j)
    (hothers : ∀ i', i' ≠ i → hands i' = k.hands i') : k.Later ⟨l, hands⟩ := by
  have hrecorded := records hhand hl
  rcases hself with hnone | hsome
  · exact hrecorded.trans (release (k := ⟨l, k.hands⟩) hhand hnone hothers)
  · have hsame : hands = k.hands := by
      funext i'
      by_cases hi : i' = i
      · rw [hi, hsome, hhand]
      · exact hothers i' hi
    rw [hsame]
    exact hrecorded

end Later

end Stock

end SessionCluster
