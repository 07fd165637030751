/-
  Pipelines — the way of an event, from the write that it announces to the broker.

  An event waits in the queue of its session's lane, its publication is begun, perhaps again and
  again, and the broker may accept it each time.  A `Pipeline` is all of this, with the store at
  its beginning.

  What concerns one session is its `line`: all publications begun, in order, and then the events
  that wait.  Two stamps of a line are in order if they tell of one event, or if the version rises
  from the first to the second.

  * `Pipeline.Move` — what may happen to a pipeline: a write, whose events are queued at the end
    unless they are shed; the begin of the first event of a queue; another try with the event that
    was begun last; its acceptance; and the loss of events;
  * `Pipeline.InLine` — every line is in order and does not go beyond the version in the store, and
    the broker has accepted in order;
  * `Pipeline.Move.inLine` — every move keeps this.

  The slots of the store only climb.  Below the last version a version has one slot, for good.
-/
import SessionCluster.Node.Basic
import SessionCluster.Proofs.Announcing
import Mathlib.Data.List.Basic

namespace SessionCluster

/-! ## Slots that climb -/

/-- Slots stay as they are, or rise to another version. -/
def Slots.Climbs (s s' : Slots) : Prop :=
  ∀ key, s'.get? key = s.get? key ∨ Rises (s.versionOf key) (s'.versionOf key)

namespace Slots.Climbs

variable {s s' s'' : Slots}

theorem refl (s : Slots) : s.Climbs s := fun _ => .inl rfl

/-- Climbing twice is climbing. -/
theorem trans (h : s.Climbs s') (h' : s'.Climbs s'') : s.Climbs s'' := by
  intro key
  rcases h key with hk | hk
  · rcases h' key with hk' | hk'
    · exact .inl (hk'.trans hk)
    · exact .inr (by rwa [versionOf_congr hk] at hk')
  · rcases h' key with hk' | hk'
    · exact .inr (by rwa [versionOf_congr hk'])
    · exact .inr (hk'.of_le (hk.le (Slot.numberOf_le _)))

theorem versionOf_le (h : s.Climbs s') (key : SessionKey) :
    s.versionOf key ≤ s'.versionOf key := by
  rcases h key with hk | hk
  · exact Nat.le_of_eq (versionOf_congr hk).symm
  · exact hk.le (Slot.numberOf_le _)

/-- Below the last version, a version has one slot. -/
theorem same_slot (h : s.Climbs s') {key : SessionKey}
    (hv : s'.versionOf key = s.versionOf key) (hlast : s.versionOf key < lastVersion) :
    s'.get? key = s.get? key := by
  rcases h key with hk | hk
  · exact hk
  · rw [hv] at hk
    exact absurd (hk.lt hlast) (Nat.lt_irrefl _)

end Slots.Climbs

/-- Every record is stored under its own key. -/
def Slots.Keyed (s : Slots) : Prop := ∀ key r, s.live? key = some r → r.key = key

/-- A slot is put under its own key. -/
theorem Slots.Keyed.put {s : Slots} (h : s.Keyed) {key : SessionKey} {slot : Slot}
    (hslot : ∀ r, slot = .live r → r.key = key) : (s.put key slot).Keyed := by
  intro k r hr
  rw [live?_put] at hr
  split at hr
  · rename_i hk
    cases slot with
    | live r' =>
      cases hr
      rw [hk]
      exact hslot r rfl
    | tombstone v => cases hr
  · exact h k r hr

/-- Such a store answers plausibly. -/
theorem Slots.Keyed.foreseen {s : Slots} (h : s.Keyed) (c : StoreCall) :
    c.Plausible (s.apply c).1 := by
  cases c with
  | get key =>
    show StoreCall.Plausible (.get key) (s.live? key)
    cases hl : s.live? key with
    | none => trivial
    | some r => exact h key r hl
  -- an insertion that is refused names what stands under the key
  | insert r =>
    cases hl : s.live? r.key with
    | some cur =>
      rw [apply_insert_live hl]
      exact h r.key cur hl
    -- no record stands there: the slot is free, or a tombstone that the version passes or does not
    | none =>
      rcases live?_eq_none.mp hl with hslot | ⟨v, hslot⟩
      · rw [apply_insert_unused hslot]
        trivial
      · by_cases hle : r.version ≤ v
        · rw [apply_insert_below hslot hle]
          trivial
        · rw [apply_insert_above hslot hle]
          trivial
  -- the other calls promise nothing about what is read
  | swap key expected r => trivial
  | remove key expected => trivial
  | scan now limit => trivial
  | ping => trivial

/-! ## Stamps -/

/-- What tells events apart, and their versions. -/
structure Stamp where
  id : String
  version : Nat

/-- One event or two, of which the first has the lower version. -/
def InOrder (a b : Stamp) : Prop := a.id = b.id ∨ Rises a.version b.version

theorem InOrder.refl (a : Stamp) : InOrder a a := .inl rfl

def Event.stamp (e : Event) : Stamp := ⟨e.id, e.version.number⟩

namespace Envelope

/-- The version that an envelope carries. -/
def version (e : Envelope) : Nat :=
  match e.payload.member? "version" with
  | some (.number (.natural n)) => n.toNat
  | _ => 0

def stamp (e : Envelope) : Stamp := ⟨e.eventId, e.version⟩

theorem member?_version (e : Event) : e.toJson.member? "version" = some e.version.toJson := by
  rfl

/-- An envelope carries the version of its event. -/
theorem version_ofEvent (e : Event) : (ofEvent e).version = e.version.number := by
  have hword : (UInt64.ofNat e.version.number).toNat = e.version.number := by
    rw [UInt64.toNat_ofNat']
    exact Nat.mod_eq_of_lt e.version.number_lt
  unfold version
  show (match e.toJson.member? "version" with
    | some (.number (.natural n)) => n.toNat
    | _ => 0) = _
  rw [member?_version]
  exact hword

theorem stamp_ofEvent (e : Event) (node : String) :
    ((ofEvent e).withOrigin node).stamp = e.stamp := by
  show (⟨e.id, (ofEvent e).version⟩ : Stamp) = _
  rw [version_ofEvent]
  rfl

end Envelope

/-! ## Queues -/

/-- The event that a job is about, if it is to publish one. -/
def Job.event? : Job → Option Event
  | .publish e _ => some e
  | .flush _ => none

namespace Lanes

/-- The events that wait in a lane. -/
def events (l : Lanes) (i : Nat) : List Event := (l.queue i).filterMap Job.event?

/-- Only the queue that is changed is another. -/
theorem queue_modify (l : Lanes) (f : List Job → List Job) (i k : Nat) :
    ({ l with queues := l.queues.modify i f } : Lanes).queue k =
      if i = k ∧ k < l.count then f (l.queue k) else l.queue k := by
  unfold queue count
  by_cases hk : k < l.queues.size
  · rw [Array.getD_eq_getD_getElem?, Array.getD_eq_getD_getElem?, Array.getElem?_modify]
    by_cases hik : i = k
    · simp [hik, hk]
    · simp [hik]
  · simp [Array.getD, hk]

theorem count_modify (l : Lanes) (f : List Job → List Job) (i : Nat) :
    ({ l with queues := l.queues.modify i f } : Lanes).count = l.count :=
  Array.size_modify ..

/-- Handing in an event: it is queued in its lane, or it is shed. -/
theorem offer_events (l : Lanes) (e : Event) :
    (l.offer e).1.count = l.count ∧
      ∃ es : List Event, es.Sublist [e] ∧
        ∀ k, (l.offer e).1.events k = l.events k ++ es.filter (·.partition l.count = k) := by
  have hshed : ∃ es : List Event, es.Sublist [e] ∧
      ∀ k, l.events k = l.events k ++ es.filter (·.partition l.count = k) :=
    ⟨[], List.nil_sublist _, fun k => by simp⟩
  unfold offer
  split
  · exact ⟨rfl, hshed⟩
  · simp only
    split
    · refine ⟨count_modify .., ?_⟩
      by_cases hlane : e.partition l.count < l.count
      · refine ⟨[e], .refl _, fun k => ?_⟩
        show (({ l with queues := l.queues.modify _ _ } : Lanes).queue k).filterMap _ = _
        rw [queue_modify]
        by_cases hk : e.partition l.count = k
        · rw [if_pos ⟨hk, hk ▸ hlane⟩, List.filterMap_append]
          simp [events, hk, Job.event?]
        · rw [if_neg (fun h => hk h.1)]
          simp [events, hk]
      · -- without lanes, there is nowhere to put it
        refine ⟨[], List.nil_sublist _, fun k => ?_⟩
        show (({ l with queues := l.queues.modify _ _ } : Lanes).queue k).filterMap _ = _
        have hno : ¬ (e.partition l.count = k ∧ k < l.count) := by
          rintro ⟨rfl, hlt⟩
          exact hlane hlt
        rw [queue_modify, if_neg hno]
        simp [events]
    · exact ⟨rfl, hshed⟩

/-- Handing in events: some of them are queued, in order. -/
theorem offerAll_events (es : List Event) : ∀ l : Lanes,
    (l.offerAll es).1.count = l.count ∧
      ∃ kept : List Event, kept.Sublist es ∧
        ∀ k, (l.offerAll es).1.events k =
          l.events k ++ kept.filter (·.partition l.count = k) := by
  induction es with
  | nil => exact fun l => ⟨rfl, [], .refl _, fun k => (List.append_nil _).symm⟩
  | cons e es ih =>
    intro l
    obtain ⟨hcount, kept, hsub, hevents⟩ := l.offer_events e
    obtain ⟨hcount', kept', hsub', hevents'⟩ := ih (l.offer e).1
    refine ⟨hcount'.trans hcount, kept ++ kept', hsub.append hsub', fun k => ?_⟩
    have hlast := hevents' k
    rw [hevents, hcount, List.append_assoc, ← List.filter_append] at hlast
    exact hlast

/-- Taking a job takes the first one of its lane, and leaves the other lanes alone. -/
theorem take_events (l : Lanes) (i : Nat) :
    (l.take i).1.count = l.count ∧
      (∀ k, k ≠ i → (l.take i).1.events k = l.events k) ∧
      l.events i = ((l.take i).2.bind Job.event?).toList ++ (l.take i).1.events i := by
  unfold take
  cases hq : l.queue i with
  | nil =>
    refine ⟨rfl, fun _ _ => rfl, ?_⟩
    simp [events]
  | cons j rest =>
    have hlt : i < l.count := by
      by_contra hge
      have hnone : l.queue i = [] := by simp [queue, Array.getD, show ¬ i < l.queues.size from hge]
      rw [hnone] at hq
      cases hq
    refine ⟨count_modify .., fun k hk => ?_, ?_⟩
    · show (({ l with queues := l.queues.modify i List.tail } : Lanes).queue k).filterMap _ = _
      rw [queue_modify, if_neg (fun h => hk h.1.symm)]
      rfl
    · show (l.queue i).filterMap _ = _ ++
        (({ l with queues := l.queues.modify i List.tail } : Lanes).queue i).filterMap _
      rw [queue_modify, if_pos ⟨rfl, hlt⟩, hq]
      cases hj : j.event? <;> simp [hj]

end Lanes

/-! ## The bus -/

/-- All that offering an envelope can do: it is accepted, or there is an error. -/
theorem MemoryBus.publish_cases (b : MemoryBus) (e : Envelope) :
    ((b.publish e).2 = .ok () ∧ (b.publish e).1.accepted = e :: b.accepted) ∨
      ∃ err, (b.publish e).2 = .error err ∧ (b.publish e).1.accepted = b.accepted := by
  unfold publish
  simp only
  split
  · exact .inr ⟨_, rfl, rfl⟩
  · split
    · exact .inr ⟨_, rfl, rfl⟩
    · exact .inl ⟨rfl, rfl⟩

/-- The beginning of a publication is recorded, and nothing is accepted by it. -/
theorem RehearsedBus.begin_records (b : RehearsedBus) (env : Envelope) (tick : Nat) :
    (b.begin env tick).1.calls = (env, tick) :: b.calls ∧ (b.begin env tick).1.bus = b.bus := by
  unfold begin
  cases b.script <;> exact ⟨rfl, rfl⟩

theorem Node.bus_of_transport {n : Node} {b : RehearsedBus} (h : n.transport = .bus b) :
    n.bus = b := by
  unfold bus
  rw [h]

/-! ## Pipelines -/

/-- The way of events to the broker: what is in the store, how many lanes there are, the events
    that wait in each, and the publications that were begun and accepted, latest first. -/
@[ext]
structure Pipeline where
  slots : Slots
  lanes : Nat
  queued : Nat → List Event
  begun : List Envelope
  accepted : List Envelope

/-- The pipeline of a node, with its store and its bus in memory. -/
def Node.pipeline (n : Node) : Pipeline where
  slots := n.memoryStore.slots
  lanes := n.lanes.count
  queued := n.lanes.events
  begun := n.bus.calls.map Prod.fst
  accepted := n.bus.bus.accepted

namespace Pipeline

/-- The publications about a session that were begun, the earliest first. -/
def begunAbout (p : Pipeline) (id : String) : List Stamp :=
  ((p.begun.filter (·.aggregateId = id)).map Envelope.stamp).reverse

/-- The events about a session that wait. -/
def waitingAbout (p : Pipeline) (id : String) : List Stamp :=
  ((p.queued (partitionFor id p.lanes)).filter (·.key.text = id)).map Event.stamp

/-- The line of a session. -/
def line (p : Pipeline) (id : String) : List Stamp := p.begunAbout id ++ p.waitingAbout id

/-- The publication about a session that was begun last. -/
def latest? (p : Pipeline) (id : String) : Option Envelope :=
  p.begun.find? (·.aggregateId = id)

/-- What the broker has accepted about a session, the earliest first. -/
def acceptedAbout (p : Pipeline) (id : String) : List Stamp :=
  ((p.accepted.filter (·.aggregateId = id)).map Envelope.stamp).reverse

/-- What may happen to a pipeline.  Only the worker of a lane begins publications. -/
inductive Move : Option Nat → Pipeline → Pipeline → Prop where
  /-- A slot is written, and some of the events that announce it are queued. -/
  | write {seat p key slot cs} {es : List Event} (hw : p.slots.Written key slot cs)
      (hes : (es.map Event.change).Sublist cs) :
      Move seat p { p with
        slots := p.slots.put key slot
        queued := fun i => p.queued i ++ es.filter (·.partition p.lanes = i) }
  /-- The worker of a lane begins the first event that waits. -/
  | start {i p q} {e : Event} {env : Envelope} (hq : p.queued i = e :: q i)
      (hothers : ∀ k, k ≠ i → q k = p.queued k) (hs : env.stamp = e.stamp)
      (hid : env.aggregateId = e.key.text) :
      Move (some i) p { p with queued := q, begun := env :: p.begun }
  /-- It begins again what it has begun last. -/
  | again {i p} {env : Envelope} (hlast : p.latest? env.aggregateId = some env)
      (hlane : partitionFor env.aggregateId p.lanes = i) :
      Move (some i) p { p with begun := env :: p.begun }
  /-- The broker accepts what was begun last of a session. -/
  | accept {seat p} {env : Envelope} (hlast : p.latest? env.aggregateId = some env) :
      Move seat p { p with accepted := env :: p.accepted }
  /-- Events that wait are lost. -/
  | lose {seat p q} (hq : ∀ i, (q i).Sublist (p.queued i)) : Move seat p { p with queued := q }

/-- Everything is in line. -/
structure InLine (p : Pipeline) : Prop where
  /-- Events are queued in the lane of their session. -/
  routed : ∀ i, ∀ e ∈ p.queued i, e.partition p.lanes = i
  /-- About a session, what was sent and then what is queued is in order of versions. -/
  ordered : ∀ id, (p.line id).Pairwise InOrder
  /-- No event is ahead of the store. -/
  below : ∀ key : SessionKey, ∀ s ∈ p.line key.text, s.version ≤ p.slots.versionOf key
  /-- The bus accepts what was sent to it. -/
  sent : ∀ e ∈ p.accepted, e ∈ p.begun
  /-- About a session, what has arrived is in order of versions. -/
  arrived : ∀ id, (p.acceptedAbout id).Pairwise InOrder

/-! ## What was begun last -/

section

variable {p : Pipeline} {id : String} {env : Envelope}

/-- What was begun last ends the publications that were begun. -/
theorem begunAbout_of_latest (h : p.latest? id = some env) :
    ∃ before, p.begunAbout id = before ++ [env.stamp] := by
  obtain ⟨hid, as, bs, heq, hnone⟩ := List.find?_eq_some_iff_append.mp h
  have has : as.filter (·.aggregateId = id) = [] := by
    refine List.filter_eq_nil_iff.mpr fun a ha => ?_
    simpa using hnone a ha
  refine ⟨((bs.filter (·.aggregateId = id)).map Envelope.stamp).reverse, ?_⟩
  unfold begunAbout
  rw [heq, List.filter_append, has, List.nil_append, List.filter_cons_of_pos (by simpa using hid)]
  simp

/-- Nothing that was begun comes after what was begun last. -/
theorem InLine.before_latest (hp : p.InLine) (h : p.latest? id = some env) {e : Envelope}
    (he : e ∈ p.begun) (hid : e.aggregateId = id) : InOrder e.stamp env.stamp := by
  obtain ⟨before, hbegun⟩ := begunAbout_of_latest h
  have hmem : e.stamp ∈ p.begunAbout id := by
    unfold begunAbout
    rw [List.mem_reverse]
    exact List.mem_map_of_mem (List.mem_filter.mpr ⟨he, decide_eq_true hid⟩)
  have hordered := (List.pairwise_append.mp (hp.ordered id)).1
  rw [hbegun] at hmem hordered
  rcases List.mem_append.mp hmem with hmem | hmem
  · exact (List.pairwise_append.mp hordered).2.2 _ hmem _ (List.mem_singleton.mpr rfl)
  · rw [List.mem_singleton.mp hmem]
    exact .refl _

/-- What was sent about a session, when one more envelope is sent. -/
theorem begunAbout_cons (q : Nat → List Event) :
    ({ p with queued := q, begun := env :: p.begun } : Pipeline).begunAbout id =
      p.begunAbout id ++ if env.aggregateId = id then [env.stamp] else [] := by
  unfold begunAbout
  by_cases hid : env.aggregateId = id
  · rw [List.filter_cons_of_pos (by simpa using hid), if_pos hid]
    simp
  · rw [List.filter_cons_of_neg (by simpa using hid), if_neg hid, List.append_nil]

/-- The latest that was sent about a session, when one more envelope is sent. -/
theorem latest?_cons (q : Nat → List Event) :
    ({ p with queued := q, begun := env :: p.begun } : Pipeline).latest? id =
      if env.aggregateId = id then some env else p.latest? id := by
  unfold latest?
  by_cases hid : env.aggregateId = id
  · rw [if_pos hid]
    exact List.find?_cons_of_pos (decide_eq_true hid)
  · rw [if_neg hid]
    exact List.find?_cons_of_neg (by simpa using hid)

end

/-! ## Moves keep everything in line -/

namespace Move

variable {seat : Option Nat} {p p' : Pipeline}

theorem lanes (h : Move seat p p') : p'.lanes = p.lanes := by cases h <;> rfl

/-- Whoever is not the worker of a session's lane begins nothing about it. -/
theorem latest (h : Move seat p p') (hp : p.InLine) {id : String}
    (hseat : seat ≠ some (partitionFor id p.lanes)) : p'.latest? id = p.latest? id := by
  cases h with
  | write => rfl
  | accept => rfl
  | lose => rfl
  | @start i _ q e env hq _ _ hid =>
    have hlane := hp.routed i e (by rw [hq]; exact List.mem_cons_self ..)
    rw [latest?_cons, if_neg]
    intro heq
    apply hseat
    rw [← hlane, ← heq, hid]
    rfl
  | @again i _ env _ hlane =>
    refine (latest?_cons p.queued).trans (if_neg ?_)
    intro heq
    apply hseat
    rw [← hlane, heq]

/-- The line of a session after a write: what was queued of its events is added at the end. -/
theorem line_write {key : SessionKey} {slot : Slot} {cs : List Change} {es : List Event}
    (hw : p.slots.Written key slot cs) (hes : (es.map Event.change).Sublist cs) (id : String) :
    ({ p with
        slots := p.slots.put key slot
        queued := fun i => p.queued i ++ es.filter (·.partition p.lanes = i) } : Pipeline).line id =
      p.line id ++ if key.text = id then es.map Event.stamp else [] := by
  -- all events of the write are about its key, so they go to one lane and one line
  have habout : ∀ e ∈ es, e.key = key := fun e he =>
    hw.about _ (hes.subset (List.mem_map_of_mem he))
  have hnew : ((es.filter (·.partition p.lanes = partitionFor id p.lanes)).filter
      (·.key.text = id)).map Event.stamp = if key.text = id then es.map Event.stamp else [] := by
    by_cases hid : key.text = id
    · -- the line of that very session: nothing is filtered away
      have hlane : es.filter (·.partition p.lanes = partitionFor id p.lanes) = es :=
        List.filter_eq_self.mpr fun e he => by
          rw [Event.partition, habout e he, hid]
          exact decide_eq_true rfl
      have hkey : es.filter (·.key.text = id) = es :=
        List.filter_eq_self.mpr fun e he => by
          rw [habout e he]
          exact decide_eq_true hid
      rw [hlane, hkey, if_pos hid]
    · -- another session's line gets none of them
      have hkey : (es.filter (·.partition p.lanes = partitionFor id p.lanes)).filter
          (·.key.text = id) = [] :=
        List.filter_eq_nil_iff.mpr fun e he => by
          rw [habout e (List.mem_filter.mp he).1]
          simpa using hid
      rw [hkey, if_neg hid]
      rfl
  show p.begunAbout id ++ ((p.queued (partitionFor id p.lanes) ++ _).filter _).map _ = _
  rw [List.filter_append, List.map_append, hnew, ← List.append_assoc]
  rfl

/-- A write adds to a line what is above it. -/
theorem inLine_write {key : SessionKey} {slot : Slot} {cs : List Change} {es : List Event}
    (hp : p.InLine) (hw : p.slots.Written key slot cs)
    (hes : (es.map Event.change).Sublist cs) :
    ({ p with
        slots := p.slots.put key slot
        queued := fun i => p.queued i ++ es.filter (·.partition p.lanes = i) } :
      Pipeline).InLine := by
  -- what is queued is among what the write announced, and that lies above what stood
  have hmem : ∀ e ∈ es, e.change ∈ cs := fun e he => hes.subset (List.mem_map_of_mem he)
  have hup : p.slots.versionOf key ≤ slot.version.number := hw.rises.le (Slot.numberOf_le _)
  refine ⟨?_, ?_, ?_, hp.sent, hp.arrived⟩
  · -- each event is in the lane of its key
    intro i e he
    rcases List.mem_append.mp he with he | he
    · exact hp.routed i e he
    · exact of_decide_eq_true (List.mem_filter.mp he).2
  · -- in a line versions rise: the old ones lie below the store's, the new ones above
    intro id
    rw [line_write hw hes]
    by_cases hid : key.text = id
    · rw [if_pos hid]
      refine List.pairwise_append.mpr ⟨hp.ordered id, ?_, ?_⟩
      · have hrising : (es.map Event.change).Pairwise
            fun c c' => Rises c.version.number c'.version.number := hw.rising.sublist hes
        rw [List.pairwise_map] at hrising ⊢
        exact hrising.imp fun h => .inr h
      · intro a ha b hb
        obtain ⟨e, he, rfl⟩ := List.mem_map.mp hb
        have hle : a.version ≤ p.slots.versionOf key := hp.below key a (hid ▸ ha)
        exact .inr ((hw.above _ (hmem e he)).of_le hle)
    · rw [if_neg hid, List.append_nil]
      exact hp.ordered id
  · -- no line is ahead of the store
    intro key' s hs
    rw [line_write hw hes] at hs
    by_cases hkey : key' = key
    · subst hkey
      rw [if_pos rfl] at hs
      show s.version ≤ (p.slots.put key' slot).versionOf key'
      rw [Slots.versionOf_put]
      rcases List.mem_append.mp hs with hs | hs
      · exact Nat.le_trans (hp.below key' s hs) hup
      · obtain ⟨e, he, rfl⟩ := List.mem_map.mp hs
        exact hw.upTo _ (hmem e he)
    · -- a key is its text, so another key has another text
      have htext : key.text ≠ key'.text := by
        intro h
        apply hkey
        cases key
        cases key'
        cases h
        rfl
      rw [if_neg htext, List.append_nil] at hs
      have hsame : (p.slots.put key slot).versionOf key' = p.slots.versionOf key' :=
        Slots.versionOf_congr (by rw [Slots.get?_put, if_neg hkey])
      show s.version ≤ (p.slots.put key slot).versionOf key'
      rw [hsame]
      exact hp.below key' s hs

/-- The begin of the first event that waits leaves every line as it is. -/
theorem line_start {i : Nat} {q : Nat → List Event} {e : Event} {env : Envelope}
    (hp : p.InLine) (hq : p.queued i = e :: q i) (hothers : ∀ k, k ≠ i → q k = p.queued k)
    (hs : env.stamp = e.stamp) (hid : env.aggregateId = e.key.text) (id : String) :
    ({ p with queued := q, begun := env :: p.begun } : Pipeline).line id = p.line id := by
  have hlane : partitionFor e.key.text p.lanes = i :=
    hp.routed i e (by rw [hq]; exact List.mem_cons_self ..)
  show _ ++ ((q (partitionFor id p.lanes)).filter _).map _ =
    p.begunAbout id ++ ((p.queued (partitionFor id p.lanes)).filter _).map _
  rw [begunAbout_cons, hid]
  by_cases hmine : e.key.text = id
  · -- the event moves from the queue to the end of what was begun
    rw [if_pos hmine, ← hmine, hlane, hq, List.filter_cons_of_pos (by simp),
      List.map_cons, hs, List.append_assoc]
    rfl
  · rw [if_neg hmine, List.append_nil]
    by_cases hk : partitionFor id p.lanes = i
    · rw [hk, hq, List.filter_cons_of_neg (by simpa using hmine)]
    · rw [hothers _ hk]

/-- **Sending the first of a queue** keeps all in line: it moves from the queue to those sent. -/
theorem inLine_start {i : Nat} {q : Nat → List Event} {e : Event} {env : Envelope}
    (hp : p.InLine) (hq : p.queued i = e :: q i) (hothers : ∀ k, k ≠ i → q k = p.queued k)
    (hs : env.stamp = e.stamp) (hid : env.aggregateId = e.key.text) :
    ({ p with queued := q, begun := env :: p.begun } : Pipeline).InLine := by
  have hline := line_start hp hq hothers hs hid
  refine ⟨?_, ?_, ?_, ?_, hp.arrived⟩
  · intro k e' he'
    refine hp.routed k e' ?_
    by_cases hk : k = i
    · subst hk
      rw [hq]
      exact List.mem_cons_of_mem _ he'
    · rw [← hothers k hk]
      exact he'
  · intro id
    rw [hline]
    exact hp.ordered id
  · intro key s hs'
    rw [hline] at hs'
    exact hp.below key s hs'
  · exact fun e' he' => List.mem_cons_of_mem _ (hp.sent e' he')

/-- What is begun again stands in its line twice, one after the other. -/
theorem line_again {env : Envelope} (hlast : p.latest? env.aggregateId = some env) (id : String) :
    ({ p with begun := env :: p.begun } : Pipeline).line id = p.line id ∨
      ∃ before after, p.line id = before ++ env.stamp :: after ∧
        ({ p with begun := env :: p.begun } : Pipeline).line id =
          before ++ env.stamp :: env.stamp :: after := by
  have hline : ({ p with begun := env :: p.begun } : Pipeline).line id =
      p.begunAbout id ++ (if env.aggregateId = id then [env.stamp] else []) ++
        p.waitingAbout id := by
    rw [← begunAbout_cons p.queued]
    rfl
  by_cases hid : env.aggregateId = id
  · subst hid
    obtain ⟨before, hbefore⟩ := begunAbout_of_latest hlast
    refine .inr ⟨before, p.waitingAbout env.aggregateId, ?_, ?_⟩
    · rw [line, hbefore, List.append_assoc]
      rfl
    · rw [hline, if_pos rfl, hbefore, List.append_assoc, List.append_assoc]
      rfl
  · rw [if_neg hid, List.append_nil] at hline
    exact .inl hline

/-- Where the order is reflexive, what stands in it may stand in it twice. -/
theorem pairwise_twice {α : Type} {R : α → α → Prop} {a : α} (hrefl : R a a)
    {before after : List α} (h : (before ++ a :: after).Pairwise R) :
    (before ++ a :: a :: after).Pairwise R := by
  obtain ⟨hbefore, hafter, hcross⟩ := List.pairwise_append.mp h
  refine List.pairwise_append.mpr ⟨hbefore, List.pairwise_cons.mpr ⟨?_, hafter⟩, ?_⟩
  · intro b hb
    rcases List.mem_cons.mp hb with rfl | hb
    · exact hrefl
    · exact (List.pairwise_cons.mp hafter).1 b hb
  · intro b hb c hc
    rcases List.mem_cons.mp hc with rfl | hc
    · exact hcross b hb c (List.mem_cons_self ..)
    · exact hcross b hb c hc

/-- Sending the latest once more keeps all in line. -/
theorem inLine_again {env : Envelope} (hp : p.InLine)
    (hlast : p.latest? env.aggregateId = some env) :
    ({ p with begun := env :: p.begun } : Pipeline).InLine := by
  refine ⟨hp.routed, ?_, ?_, fun e' he' => List.mem_cons_of_mem _ (hp.sent e' he'), hp.arrived⟩
  · intro id
    rcases line_again hlast id with hsame | ⟨before, after, hline, htwice⟩
    · rw [hsame]
      exact hp.ordered id
    · have hordered := hp.ordered id
      rw [hline] at hordered
      rw [htwice]
      exact pairwise_twice (.refl _) hordered
  · intro key s hs
    refine hp.below key s ?_
    rcases line_again hlast key.text with hsame | ⟨before, after, hline, htwice⟩
    · rwa [hsame] at hs
    · rw [htwice] at hs
      rw [hline]
      simpa using hs

/-- What is accepted was begun last of its session, so nothing accepted before comes after it. -/
theorem inLine_accept {env : Envelope} (hp : p.InLine)
    (hlast : p.latest? env.aggregateId = some env) :
    ({ p with accepted := env :: p.accepted } : Pipeline).InLine := by
  refine ⟨hp.routed, hp.ordered, hp.below, ?_, ?_⟩
  · intro e he
    rcases List.mem_cons.mp he with rfl | he
    · exact List.mem_of_find?_eq_some hlast
    · exact hp.sent e he
  · intro id
    show (((env :: p.accepted).filter (·.aggregateId = id)).map _).reverse.Pairwise _
    by_cases hid : env.aggregateId = id
    · rw [List.filter_cons_of_pos (by simpa using hid), List.map_cons, List.reverse_cons]
      refine List.pairwise_append.mpr ⟨hp.arrived id, List.pairwise_singleton _ _, ?_⟩
      intro a ha b hb
      rw [List.mem_reverse] at ha
      obtain ⟨e, he, rfl⟩ := List.mem_map.mp ha
      obtain ⟨he, heid⟩ := List.mem_filter.mp he
      rw [List.mem_singleton.mp hb]
      exact hp.before_latest (hid ▸ hlast) (hp.sent e he) (of_decide_eq_true heid)
    · rw [List.filter_cons_of_neg (by simpa using hid)]
      exact hp.arrived id

/-- **Every move keeps everything in line.** -/
theorem inLine (h : Move seat p p') (hp : p.InLine) : p'.InLine := by
  cases h with
  | write hw hes => exact inLine_write hp hw hes
  | start hq hothers hs hid => exact inLine_start hp hq hothers hs hid
  | again hlast _ => exact inLine_again hp hlast
  | accept hlast => exact inLine_accept hp hlast
  | @lose _ _ q hq =>
    have hsub (id : String) : (({ p with queued := q } : Pipeline).line id).Sublist (p.line id) :=
      .append_left (((hq _).filter _).map _) _
    exact ⟨fun i e he => hp.routed i e ((hq i).subset he),
      fun id => (hp.ordered id).sublist (hsub id),
      fun key s hs => hp.below key s ((hsub key.text).subset hs), hp.sent, hp.arrived⟩

/-- The store climbs in every move. -/
theorem climbs (h : Move seat p p') : p.slots.Climbs p'.slots := by
  cases h with
  | @write _ _ key slot _ _ hw _ =>
    intro k
    by_cases hk : k = key
    · subst hk
      exact .inr (by rw [Slots.versionOf_put]; exact hw.rises)
    · exact .inl (by rw [Slots.get?_put, if_neg hk])
  | start => exact .refl _
  | again => exact .refl _
  | accept => exact .refl _
  | lose => exact .refl _

theorem keyed (h : Move seat p p') (hk : p.slots.Keyed) : p'.slots.Keyed := by
  cases h with
  | write hw _ => exact hk.put hw.keyed
  | start => exact hk
  | again => exact hk
  | accept => exact hk
  | lose => exact hk

end Move

/-- Any number of moves. -/
abbrev Moves (seat : Option Nat) : Pipeline → Pipeline → Prop :=
  Relation.ReflTransGen (Move seat)

namespace Moves

variable {seat : Option Nat} {p p' : Pipeline}

theorem inLine (h : Moves seat p p') (hp : p.InLine) : p'.InLine := by
  induction h with
  | refl => exact hp
  | tail _ hlast ih => exact hlast.inLine ih

theorem keyed (h : Moves seat p p') (hp : p.slots.Keyed) : p'.slots.Keyed := by
  induction h with
  | refl => exact hp
  | tail _ hlast ih => exact hlast.keyed ih

theorem climbs (h : Moves seat p p') : p.slots.Climbs p'.slots := by
  induction h with
  | refl => exact .refl _
  | tail _ hlast ih => exact ih.trans hlast.climbs

theorem lanes (h : Moves seat p p') : p'.lanes = p.lanes := by
  induction h with
  | refl => rfl
  | tail _ hlast ih => exact hlast.lanes.trans ih

/-- Whoever is not the worker of a session's lane begins nothing about it. -/
theorem latest (h : Moves seat p p') (hp : p.InLine) {id : String}
    (hseat : seat ≠ some (partitionFor id p.lanes)) : p'.latest? id = p.latest? id := by
  induction h with
  | refl => rfl
  | tail hbefore hlast ih =>
    have hlanes := lanes hbefore
    exact (hlast.latest (inLine hbefore hp) (hlanes ▸ hseat)).trans ih

end Moves

end Pipeline

end SessionCluster
