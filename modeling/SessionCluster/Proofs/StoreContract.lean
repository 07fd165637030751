/-
  The contract of a store — what a store in memory promises to whoever calls it.

  A raw call need not come from a session operation, so nothing is known of its arguments but that a
  record replaces only an earlier one of its own key, and that versions end below the last one, which
  is its own successor (`StoreCall.Proper`).

  A call either is refused and leaves the store as it is, or it makes one key hold another slot, above
  the one that it held, and sends the notice of that (`Slots.apply_cases`).  All promises follow from
  this.  One call at a time, the outcome says what the key held (`Slots.Justifies`), and whether a
  slot changed (`MemoryStore.Honours`).  Over a run, a subscriber who is never further behind than
  the feed remembers has received the notices of the first changes, and the others wait for it, in
  order (`Subscription.Faithful`, an invariant of calls and receipts).

  `store_keeps_contract` — both, for every store that raw calls have filled.
-/
import SessionCluster.Proofs.Schedules
import SessionCluster.Proofs.SlotOrder

namespace SessionCluster

/-! ## Calls and changes -/

namespace StoreCall

/-- A record that is offered is below the last version; one that is to replace another is of the same
    key and above the version that is expected. -/
def Proper : StoreCall → Prop
  | .insert r => r.version.number < 18446744073709551615
  | .swap key expected r =>
    r.key = key ∧ expected < r.version ∧ r.version.number < 18446744073709551615
  | .get _ | .remove _ _ | .scan _ _ | .ping => True

/-- The key that a call may write. -/
def target? : StoreCall → Option SessionKey
  | .insert r => some r.key
  | .swap key _ _ | .remove key _ => some key
  | .get _ | .scan _ _ | .ping => none

end StoreCall

/-- A key, and what it has come to hold. -/
structure SlotChange where
  key : SessionKey
  slot : Slot

/-- What subscribers are to learn of a change: the version and the expiry of a record, and neither of
    a tombstone. -/
def SlotChange.notice : SlotChange → Notice
  | ⟨key, .live r⟩ => ⟨key, some r.version, some r.expiresAt⟩
  | ⟨key, .tombstone _⟩ => ⟨key, none, none⟩

namespace Slots

/-- The change of a key from one content to another, if it does not hold what it held. -/
def changeAt? (s s' : Slots) (key : SessionKey) : Option SlotChange :=
  if s'.get? key = s.get? key then none else (s'.get? key).map (SlotChange.mk key)

/-- All records are below the last version. -/
def BelowLast (s : Slots) : Prop :=
  ∀ key r, s.get? key = some (.live r) → r.version.number < 18446744073709551615

/-- A call that is applied: its key holds a slot above the one that it held, and the notice of that
    is sent. -/
structure Writes (s : Slots) (c : StoreCall) (key : SessionKey) (slot : Slot) : Prop where
  written : c.written? (s.apply c).1 = some key
  /-- Only the key that the call names is written. -/
  target : c.target? = some key
  effect : (s.apply c).2 = (s.put key slot, some (SlotChange.mk key slot).notice)
  /-- A slot that was there is passed. -/
  rises : ∀ old, s.get? key = some old → old.version < slot.version
  belowLast : ∀ r, slot = .live r → r.version.number < 18446744073709551615

/-- No slot is lost, and each stays as it is or goes up to another version. -/
def Advances (s s' : Slots) : Prop :=
  ∀ key old, s.get? key = some old → ∃ new, s'.get? key = some new ∧
    (new = old ∨ old.version < new.version)

theorem Advances.refl (s : Slots) : s.Advances s := fun _ old h => ⟨old, h, .inl rfl⟩

/-- Advancing twice is advancing. -/
theorem Advances.trans {s s' s'' : Slots} (h : s.Advances s') (h' : s'.Advances s'') : s.Advances s'' := by
  intro key old hold
  obtain ⟨new, hnew, hup⟩ := h key old hold
  obtain ⟨last, hlast, hup'⟩ := h' key new hnew
  refine ⟨last, hlast, ?_⟩
  rcases hup with rfl | hup
  · exact hup'
  · rcases hup' with rfl | hup'
    · exact .inr hup
    · exact .inr (Nat.lt_trans hup hup')

variable {s : Slots} {c : StoreCall}

/-- An insertion that is done is a write. -/
theorem writes_insert {r : Record} (hc : (StoreCall.insert r).Proper)
    (ho : s.insertOutcome r = .inserted) (hfree : ∀ old, s.get? r.key = some old →
      old.version < r.version) : s.Writes (.insert r) r.key (.live r) where
  written := by simp only [apply, ho, StoreCall.written?]
  target := rfl
  effect := by simp only [apply, ho, Notice.ofRecord, SlotChange.notice]
  rises := hfree
  belowLast := by
    rintro _ ⟨⟩
    exact hc

/-- A swap that meets its version is a write. -/
theorem writes_swap {key : SessionKey} {expected : Version} {r cur : Record}
    (hc : (StoreCall.swap key expected r).Proper) (hl : s.live? key = some cur)
    (hv : cur.version = expected) : s.Writes (.swap key expected r) key (.live r) where
  written := by rw [apply_swap_applied hl hv]; rfl
  target := rfl
  effect := by
    obtain ⟨rfl, _⟩ := hc
    rw [apply_swap_applied hl hv]
    rfl
  rises := by
    intro old hold
    rw [live?_eq_some.mp hl] at hold
    cases hold
    subst hv
    exact hc.2.1
  belowLast := by
    rintro _ ⟨⟩
    exact hc.2.2

/-- A removal that meets its version is a write, of the tombstone one version on. -/
theorem writes_remove {key : SessionKey} {expected : Version} {cur : Record} (hs : s.BelowLast)
    (hl : s.live? key = some cur) (hv : cur.version = expected) :
    s.Writes (.remove key expected) key (.tombstone cur.tombstoneVersion) where
  written := by rw [apply_remove_applied hl hv]; rfl
  target := rfl
  effect := by
    rw [apply_remove_applied hl hv]
    rfl
  rises := by
    intro old hold
    rw [live?_eq_some.mp hl] at hold
    cases hold
    exact Record.tombstoneVersion_lt (hs key cur (live?_eq_some.mp hl))
  belowLast := by
    rintro _ ⟨⟩

/-- **What a call can do**: nothing, or one write. -/
theorem apply_cases (hs : s.BelowLast) (hc : c.Proper) :
    c.written? (s.apply c).1 = none ∨ ∃ key slot, s.Writes c key slot := by
  cases c with
  -- calls that only read write nothing
  | get key => exact .inl rfl
  | scan now limit => exact .inl rfl
  | ping => exact .inl rfl
  | insert r =>
    cases hg : s.get? r.key with
    | none =>
      -- the slot is free: there is no version to pass
      have ho : s.insertOutcome r = .inserted := by simp only [insertOutcome, hg]
      exact .inr ⟨_, _, writes_insert hc ho fun old hold => by rw [hg] at hold; cases hold⟩
    | some slot =>
      cases slot with
      -- a record is in the way
      | live existing =>
        left
        rw [apply_insert_live (live?_eq_some.mpr hg)]
        rfl
      | tombstone v =>
        -- over a tombstone the version decides
        by_cases hv : r.version ≤ v
        · left
          rw [apply_insert_below hg hv]
          rfl
        · have ho : s.insertOutcome r = .inserted := by simp only [insertOutcome, hg, if_neg hv]
          refine .inr ⟨_, _, writes_insert hc ho fun old hold => ?_⟩
          rw [hg] at hold
          cases hold
          exact Nat.lt_of_not_le hv
  | swap key expected r =>
    -- a swap is one write if the record it names is the one that is there
    cases hl : s.live? key with
    | none =>
      left
      rw [apply_swap_missing hl]
      rfl
    | some cur =>
      by_cases hv : cur.version = expected
      · exact .inr ⟨_, _, writes_swap hc hl hv⟩
      · left
        rw [apply_swap_conflict hl hv]
        rfl
  | remove key expected =>
    -- and so is a removal, which leaves a tombstone in its place
    cases hl : s.live? key with
    | none =>
      left
      rw [apply_remove_missing hl]
      rfl
    | some cur =>
      by_cases hv : cur.version = expected
      · exact .inr ⟨_, _, writes_remove hs hl hv⟩
      · left
        rw [apply_remove_conflict hl hv]
        rfl

/-! ## Outcomes -/

/-- What the outcome of a conditional write says about the key. -/
def JustifiesWrite (s : Slots) (key : SessionKey) (expected : Version) : WriteOutcome → Prop
  | .applied => ∃ cur, s.get? key = some (.live cur) ∧ cur.version = expected
  | .conflict cur => s.get? key = some (.live cur) ∧ cur.version ≠ expected
  | .missing => ∀ cur, s.get? key ≠ some (.live cur)

/-- What an outcome says about the key, before the call. -/
def Justifies (s : Slots) : (c : StoreCall) → c.Outcome → Prop
  | .get key, found => ∀ r, found = some r ↔ s.get? key = some (.live r)
  | .insert r, .inserted =>
    ∀ slot, s.get? r.key = some slot → ∃ t, slot = .tombstone t ∧ t < r.version
  | .insert r, .occupied existing => s.get? r.key = some (.live existing)
  | .insert r, .tombstoned t => s.get? r.key = some (.tombstone t) ∧ r.version ≤ t
  | .swap key expected _, o | .remove key expected, o => s.JustifiesWrite key expected o
  | .scan _ _, _ | .ping, _ => True

/-- The outcome of a conditional write says what is the case. -/
theorem justifies_write (s : Slots) (key : SessionKey) (expected : Version) :
    s.JustifiesWrite key expected (s.writeOutcome key expected) := by
  cases hl : s.live? key with
  | none =>
    rw [writeOutcome_of_none hl]
    intro cur hcur
    rw [live?_eq_some.mpr hcur] at hl
    cases hl
  | some cur =>
    have hget := live?_eq_some.mp hl
    rw [writeOutcome_of_live hl]
    by_cases hv : cur.version = expected
    · rw [if_pos hv]
      exact ⟨cur, hget, hv⟩
    · rw [if_neg hv]
      exact ⟨hget, hv⟩

/-- Every outcome says what is the case. -/
theorem justifies (s : Slots) (c : StoreCall) : s.Justifies c (s.apply c).1 := by
  cases c with
  | get key => exact fun r => live?_eq_some
  | scan now limit => trivial
  | ping => trivial
  | insert r =>
    cases hg : s.get? r.key with
    -- a free slot holds nothing that could be below the record
    | none =>
      rw [apply_insert_unused hg]
      intro slot hslot
      rw [hg] at hslot
      cases hslot
    | some slot =>
      cases slot with
      | live existing =>
        rw [apply_insert_live (live?_eq_some.mpr hg)]
        exact hg
      | tombstone v =>
        -- over a tombstone the outcome says on which side of it the version lies
        by_cases hv : r.version ≤ v
        · rw [apply_insert_below hg hv]
          exact ⟨hg, hv⟩
        · rw [apply_insert_above hg hv]
          intro slot hslot
          rw [hg] at hslot
          cases hslot
          exact ⟨v, rfl, Nat.lt_of_not_le hv⟩
  | swap key expected r =>
    show s.JustifiesWrite key expected (s.apply (.swap key expected r)).1
    rw [apply_swap_outcome]
    exact s.justifies_write key expected
  | remove key expected =>
    show s.JustifiesWrite key expected (s.apply (.remove key expected)).1
    rw [apply_remove_outcome]
    exact s.justifies_write key expected

/-- A tombstone is the answer exactly when it is not below the record. -/
theorem tombstoned_iff {s : Slots} {r : Record} {t : Version} :
    (s.apply (.insert r)).1 = .tombstoned t ↔
      s.get? r.key = some (.tombstone t) ∧ r.version ≤ t := by
  constructor
  · intro ho
    have hj := s.justifies (.insert r)
    rw [ho] at hj
    exact hj
  · rintro ⟨hg, hv⟩
    rw [apply_insert_below hg hv]

end Slots

/-! ## One call -/

namespace MemoryStore

/-- What is promised of one call: it answers, its outcome says what the key held, it changes the one
    slot that was written by its outcome, and slots stay or go up. -/
structure Honours (s : MemoryStore) (c : StoreCall) (o : c.Outcome) : Prop where
  answers : (s.call c).2 = .ok o
  /-- The outcome says what the key held. -/
  justified : s.slots.Justifies c o
  /-- The slot of a key changes exactly if the outcome says that it was written. -/
  changes : ∀ key, (s.call c).1.slots.get? key ≠ s.slots.get? key ↔ c.written? o = some key
  /-- Versions stay or go up. -/
  advances : s.slots.Advances (s.call c).1.slots

/-- A store that has been filled by raw calls. -/
inductive Filled : MemoryStore → Prop where
  | new : Filled {}
  | call {s : MemoryStore} {c : StoreCall} (h : Filled s) (hc : c.Proper) : Filled (s.call c).1

/-- A store that is there, and has room for more versions. -/
structure Sound (s : MemoryStore) : Prop where
  available : s.unavailable = false
  belowLast : s.slots.BelowLast

variable {s : MemoryStore} {c : StoreCall} {key : SessionKey} {slot : Slot}

/-- The store after a write: its slot, and a notice of it in the feed. -/
theorem call_of_writes (hs : s.unavailable = false) (hw : s.slots.Writes c key slot) :
    (s.call c).1 = { s with
      slots := s.slots.put key slot
      feed := s.feed.send (SlotChange.mk key slot).notice } := by
  have heffect := hw.effect
  have hn : ¬ s.unavailable = true := Bool.eq_false_iff.mp hs
  unfold call
  rw [if_neg hn]
  rcases ha : s.slots.apply c with ⟨o, slots, n⟩
  rw [ha] at heffect
  cases heffect
  rfl

/-- **Every proper call leaves the store sound.** -/
theorem Sound.call (h : s.Sound) (hc : c.Proper) : (s.call c).1.Sound := by
  rcases Slots.apply_cases h.belowLast hc with hnone | ⟨key, slot, hw⟩
  · rw [call_of_unwritten h.available hnone]
    exact h
  · rw [call_of_writes h.available hw]
    refine ⟨h.available, fun k r hr => ?_⟩
    simp only [Slots.get?_put] at hr
    split at hr
    · exact hw.belowLast r (Option.some.inj hr)
    · exact h.belowLast k r hr

theorem Filled.sound (h : s.Filled) : s.Sound := by
  induction h with
  | new =>
    refine ⟨rfl, fun key r hr => ?_⟩
    cases hr
  | call _ hc ih => exact ih.call hc

/-- **Every call is honoured.** -/
theorem Sound.honours (h : s.Sound) (hc : c.Proper) : s.Honours c (s.slots.apply c).1 := by
  refine ⟨call_answer h.available, s.slots.justifies c, ?_, ?_⟩
  · intro key
    -- the slot of a key changes exactly when the call has written it
    rcases Slots.apply_cases h.belowLast hc with hnone | ⟨k, slot, hw⟩
    · rw [call_of_unwritten h.available hnone, hnone]
      simp
    · rw [call_of_writes h.available hw, hw.written, Slots.get?_put]
      -- a write raises the version, so it never leaves its slot as it was
      by_cases hk : key = k
      · subst hk
        rw [if_pos rfl]
        refine ⟨fun _ => rfl, fun _ hsame => ?_⟩
        exact absurd (hw.rises slot hsame.symm) (Nat.lt_irrefl _)
      · rw [if_neg hk]
        simp [Ne.symm hk]
  · -- and no slot falls below what it held
    rcases Slots.apply_cases h.belowLast hc with hnone | ⟨k, slot, hw⟩
    · rw [call_of_unwritten h.available hnone]
      exact .refl _
    · rw [call_of_writes h.available hw]
      intro key old hold
      rw [Slots.get?_put]
      by_cases hk : key = k
      · subst hk
        rw [if_pos rfl]
        exact ⟨slot, rfl, .inr (hw.rises old hold)⟩
      · rw [if_neg hk]
        exact ⟨old, hold, .inl rfl⟩

end MemoryStore

/-! ## The feed -/

namespace Feed

/-- What a feed remembers are the last of these notices. -/
def EndsWith (f : Feed) (ns : List Notice) : Prop :=
  ∀ i, i < feedCapacity → i < ns.length → f.latest[i]? = ns.reverse[i]?

variable {f : Feed} {ns : List Notice}

/-- A notice that is sent comes last. -/
theorem EndsWith.send (h : f.EndsWith ns) (n : Notice) : (f.send n).EndsWith (ns ++ [n]) := by
  intro i hcapacity hlength
  show ((n :: f.latest).take feedCapacity)[i]? = (ns ++ [n]).reverse[i]?
  rw [List.getElem?_take_of_lt hcapacity, List.reverse_append]
  cases i with
  | zero => rfl
  | succ i =>
    rw [List.length_append] at hlength
    exact h i (by omega) (Nat.lt_of_succ_lt_succ hlength)

/-- **A subscriber that is not too far behind receives the next notice.** -/
theorem EndsWith.receive (h : f.EndsWith ns) {position k : Nat} (hmore : position < f.sent)
    (hkeeps : f.sent ≤ position + feedCapacity) (hcount : k + (f.sent - position) = ns.length)
    {n : Notice} (hn : ns[k]? = some n) : f.receive position = (.notice n, position + 1) := by
  have hplace : f.latest[f.sent - 1 - position]? = some n := by
    rw [h _ (by omega) (by omega), List.getElem?_reverse (by omega), ← hn]
    congr 1
    omega
  unfold Feed.receive
  rw [if_neg (by omega), if_pos hmore, hplace]

end Feed

/-- A subscriber of a store: its position in the feed, what it has received, and what has changed in
    the store since it subscribed. -/
structure Subscriber where
  store : MemoryStore
  position : Nat
  received : List Feed.Received := []
  changes : List SlotChange := []

namespace Subscriber

/-- One that subscribes now. -/
def new (s : MemoryStore) : Subscriber := ⟨s, s.feed.sent, [], []⟩

/-- What a raw call changes. -/
def changeBy? (w : Subscriber) (c : StoreCall) : Option SlotChange :=
  c.target?.bind (w.store.slots.changeAt? (w.store.call c).1.slots)

/-- After a raw call. -/
def after (w : Subscriber) (c : StoreCall) : Subscriber :=
  { w with store := (w.store.call c).1, changes := w.changes ++ (w.changeBy? c).toList }

/-- After a receipt. -/
def next (w : Subscriber) : Subscriber :=
  { w with
    position := (w.store.feed.receive w.position).2
    received := w.received ++ [(w.store.feed.receive w.position).1] }

/-- A raw call is made; or the subscriber receives, before it is further behind than the feed
    remembers. -/
inductive Step : Subscriber → Subscriber → Prop where
  | call {w c} (hc : c.Proper) : Step w (w.after c)
  | receive {w} (hmore : w.store.feed.hasMore w.position = true)
      (hkeeps : w.store.feed.sent ≤ w.position + feedCapacity) : Step w w.next

/-- Any number of steps. -/
abbrev Runs : Subscriber → Subscriber → Prop := Relation.ReflTransGen Step

/-- The notices of the changes, in order. -/
def due (w : Subscriber) : List Notice := w.changes.map SlotChange.notice

/-- The subscriber has received the first of the notices that are due, and the others are ahead of
    it in the feed. -/
structure Faithful (w : Subscriber) : Prop where
  store : w.store.Sound
  /-- What the feed remembers are the last of the notices that are due. -/
  feed : w.store.feed.EndsWith w.due
  behind : w.position ≤ w.store.feed.sent
  /-- What was received and what is ahead are all that is due. -/
  count : w.received.length + (w.store.feed.sent - w.position) = w.due.length
  /-- What was received is what was due first, unchanged and in order. -/
  received : w.received = (w.due.take w.received.length).map Feed.Received.notice

variable {w w' : Subscriber}

theorem faithful_new {s : MemoryStore} (h : s.Sound) : (new s).Faithful where
  store := h
  feed := nofun
  behind := Nat.le_refl _
  count := by simp [new, due]
  received := rfl

theorem changeBy_of_unwritten {c : StoreCall} (h : w.store.unavailable = false)
    (hnone : c.written? (w.store.slots.apply c).1 = none) : w.changeBy? c = none := by
  unfold changeBy?
  rw [MemoryStore.call_of_unwritten h hnone]
  cases c.target? with
  | none => rfl
  | some key => exact if_pos rfl

/-- A write is the change of its slot. -/
theorem changeBy_of_writes {c : StoreCall} {key : SessionKey} {slot : Slot}
    (h : w.store.unavailable = false) (hw : w.store.slots.Writes c key slot) :
    w.changeBy? c = some ⟨key, slot⟩ := by
  have hnew : w.store.slots.get? key ≠ some slot :=
    fun hsame => absurd (hw.rises slot hsame) (Nat.lt_irrefl _)
  unfold changeBy?
  rw [hw.target, MemoryStore.call_of_writes h hw]
  show Slots.changeAt? _ (w.store.slots.put key slot) key = _
  unfold Slots.changeAt?
  rw [Slots.get?_put, if_pos rfl, if_neg (Ne.symm hnew)]
  rfl

/-- A raw call leaves the subscriber where it is, and what it changes is due. -/
theorem Faithful.call (h : w.Faithful) {c : StoreCall} (hc : c.Proper) : (w.after c).Faithful := by
  have havailable := h.store.available
  unfold after
  rcases Slots.apply_cases h.store.belowLast hc with hnone | ⟨key, slot, hw⟩
  · -- nothing is written, so nothing is due and nothing is sent
    rw [changeBy_of_unwritten havailable hnone, MemoryStore.call_of_unwritten havailable hnone,
      Option.toList_none, List.append_nil]
    exact h
  · -- one write: its notice is the one that is due next, and the feed has it
    rw [changeBy_of_writes havailable hw]
    have hdue : (w.changes ++ [SlotChange.mk key slot]).map SlotChange.notice =
        w.due ++ [(SlotChange.mk key slot).notice] := List.map_append
    have hbound : w.received.length ≤ w.due.length := Nat.le.intro h.count
    refine ⟨h.store.call hc, ?_, ?_, ?_, ?_⟩
    · rw [MemoryStore.call_of_writes havailable hw]
      show (w.store.feed.send _).EndsWith ((w.changes ++ [_]).map _)
      rw [hdue]
      exact h.feed.send _
    · rw [MemoryStore.call_of_writes havailable hw]
      exact Nat.le_succ_of_le h.behind
    · rw [MemoryStore.call_of_writes havailable hw]
      show w.received.length + (w.store.feed.sent + 1 - w.position) =
        ((w.changes ++ [_]).map SlotChange.notice).length
      rw [hdue, List.length_append]
      have hcount := h.count
      have hbehind := h.behind
      simp only [List.length_singleton]
      omega
    · show w.received = (((w.changes ++ [_]).map SlotChange.notice).take _).map _
      rw [hdue, List.take_append_of_le_length hbound]
      exact h.received

/-- A receipt is that of the next notice that is due. -/
theorem Faithful.receive (h : w.Faithful) (hmore : w.store.feed.hasMore w.position = true)
    (hkeeps : w.store.feed.sent ≤ w.position + feedCapacity) : w.next.Faithful := by
  have hahead : w.position < w.store.feed.sent := of_decide_eq_true hmore
  have hcount := h.count
  have hnext : w.received.length < w.due.length := by omega
  unfold next
  rw [h.feed.receive hahead hkeeps hcount (List.getElem?_eq_getElem hnext)]
  refine ⟨h.store, h.feed, hahead, ?_, ?_⟩
  · rw [List.length_append, List.length_singleton]
    show _ + (w.store.feed.sent - (w.position + 1)) = w.due.length
    omega
  · show w.received ++ [_] = (w.due.take (w.received ++ [_]).length).map _
    rw [List.length_append, List.length_singleton, List.take_add_one,
      List.getElem?_eq_getElem hnext, List.map_append, ← h.received]
    rfl

/-- Over a run, the subscriber stays faithful and the slots rise. -/
theorem Faithful.runs (h : w.Faithful) (hr : Runs w w') :
    w'.Faithful ∧ w.store.slots.Advances w'.store.slots := by
  induction hr with
  | refl => exact ⟨h, .refl _⟩
  | tail _ hs ih =>
    obtain ⟨hfaithful, hadvances⟩ := ih
    cases hs with
    | call hc => exact ⟨hfaithful.call hc, hadvances.trans (hfaithful.store.honours hc).advances⟩
    | receive hmore hkeeps => exact ⟨hfaithful.receive hmore hkeeps, hadvances⟩

/-- **What has been received and what is ahead** are the notices that are due, in order. -/
theorem Faithful.account (h : w.Faithful) :
    ∃ waiting : List Notice,
      w.received ++ waiting.map Feed.Received.notice = w.due.map Feed.Received.notice ∧
      (waiting = [] ↔ w.store.feed.hasMore w.position = false) := by
  refine ⟨w.due.drop w.received.length, ?_, ?_⟩
  · calc w.received ++ (w.due.drop w.received.length).map Feed.Received.notice
        = (w.due.take w.received.length).map Feed.Received.notice ++
            (w.due.drop w.received.length).map Feed.Received.notice :=
          congrArg (· ++ _) h.received
      _ = w.due.map Feed.Received.notice := by rw [← List.map_append, List.take_append_drop]
  · have hcount := h.count
    rw [List.drop_eq_nil_iff]
    unfold Feed.hasMore
    rw [decide_eq_false_iff_not]
    omega

end Subscriber

/-! ## The contract -/

/-- **A store keeps its contract** with raw callers.  Every call on it is honoured: it answers, its
    outcome says what the key held, it changes the slot that it has written by its outcome and no
    other, and slots are never lost and go up with each change.  A tombstone is the answer exactly
    when it is not below the record that is offered.  And from any moment on, however many calls are
    made: slots rise, and a subscriber who keeps up receives one notice for each change, in order,
    and nothing else. -/
theorem store_keeps_contract {s : MemoryStore} (h : s.Filled) :
    (∀ c : StoreCall, c.Proper → ∃ o, s.Honours c o) ∧
    (∀ (r : Record) (t : Version), (s.call (.insert r)).2 = .ok (.tombstoned t) ↔
      s.slots.get? r.key = some (.tombstone t) ∧ r.version ≤ t) ∧
    ∀ w, Subscriber.Runs (.new s) w → s.slots.Advances w.store.slots ∧
      ∃ waiting : List Notice,
        w.received ++ waiting.map Feed.Received.notice = w.due.map Feed.Received.notice ∧
        (waiting = [] ↔ w.store.feed.hasMore w.position = false) := by
  refine ⟨?_, ?_, ?_⟩
  · intro c hc
    exact ⟨_, h.sound.honours hc⟩
  · intro r t
    rw [MemoryStore.call_answer h.sound.available]
    constructor
    · intro ho
      exact Slots.tombstoned_iff.mp (Except.ok.inj ho)
    · intro hholds
      exact congrArg Except.ok (Slots.tombstoned_iff.mpr hholds)
  · intro w hw
    obtain ⟨hfaithful, hadvances⟩ := (Subscriber.faithful_new h.sound).runs hw
    exact ⟨hadvances, hfaithful.account⟩

namespace Sample

/-- A record that lasts until the first minute is over. -/
def minuteRecord (n : Nat) : Record :=
  ⟨key, .null, version n, settings.node, second 0, second 0, second 60⟩

/-- A store after the only life of a session. -/
def abandoned : MemoryStore :=
  ((({} : MemoryStore).call (.insert (minuteRecord 1))).1.call (.remove key (version 1))).1

/-- The session is created again and removed, and the subscriber has heard of the creation. -/
def heard : Subscriber :=
  (((Subscriber.new abandoned).after (.insert (minuteRecord 3))).after
    (.remove key (version 3))).next

theorem abandoned_filled : abandoned.Filled :=
  .call (.call .new (show 1 < 18446744073709551615 by decide)) trivial

/-- The sample's subscriber is told of what happens to the record. -/
theorem runs_heard : Subscriber.Runs (.new abandoned) heard := by
  have hcreation : (StoreCall.insert (minuteRecord 3)).Proper := by
    show 3 < 18446744073709551615
    decide
  have hremoval : (StoreCall.remove key (version 3)).Proper := trivial
  refine .tail (.tail (.single (.call hcreation)) (.call hremoval)) (.receive ?_ ?_)
  · decide +kernel
  · decide +kernel

end Sample

open Sample in
/-- The tombstone of a session refuses a record that is not above it; and who subscribes then hears of
    the next life of the session, first of its creation and then of its end. -/
theorem sample_store_keeps_contract : abandoned.Filled ∧
    (abandoned.call (.insert (minuteRecord 1))).2 = .ok (.tombstoned (version 2)) ∧
    Subscriber.Runs (.new abandoned) heard ∧
    heard.received = [.notice ⟨key, some (version 3), some (second 60)⟩] ∧
    ∃ waiting : List Notice, heard.received ++ waiting.map Feed.Received.notice =
      [.notice ⟨key, some (version 3), some (second 60)⟩, .notice ⟨key, none, none⟩] := by
  obtain ⟨_, hrefused, hheard⟩ := store_keeps_contract abandoned_filled
  obtain ⟨_, waiting, haccount, _⟩ := hheard heard runs_heard
  refine ⟨abandoned_filled, ?_, runs_heard, by rfl, waiting, haccount⟩
  exact (hrefused (minuteRecord 1) (version 2)).mpr ⟨by decide +kernel, by decide +kernel⟩

end SessionCluster
