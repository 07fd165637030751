/-
  The order of contents — how the slots of a store may change.

  `Slots.Grows` says that every slot stays as it is or goes up to another version.  So a version
  that was seen comes back only with the very same slot (`Grows.same_slot`), and a write at an
  expected version that is applied replaces the very record that was seen
  (`Grows.applied_onto`): nobody can mistake a later session for the one that was read.

  The outcomes of conditional writes and insertions are characterised by what a key holds.  A call
  that is no write, or one that is refused, changes nothing (`Slots.apply_of_unwritten`).
-/
import SessionCluster.Store.Memory

namespace SessionCluster

/-! ## Versions of slots -/

/-- The version of what a key holds; of nothing, it is zero. -/
def Slot.numberOf : Option Slot → Nat
  | some slot => slot.version.number
  | none => 0

namespace Slots

/-- The version that a key stands at. -/
def versionOf (s : Slots) (key : SessionKey) : Nat := Slot.numberOf (s.get? key)

/-- Slots stay as they are, or go up to another version. -/
def Grows (s s' : Slots) : Prop :=
  ∀ key, s'.get? key = s.get? key ∨ s.versionOf key < s'.versionOf key

theorem versionOf_congr {s s' : Slots} {key : SessionKey} (h : s'.get? key = s.get? key) :
    s'.versionOf key = s.versionOf key := by
  unfold versionOf
  rw [h]

theorem live?_congr {s s' : Slots} {key : SessionKey} (h : s'.get? key = s.get? key) :
    s'.live? key = s.live? key := by
  unfold live?
  rw [h]

theorem live?_put (s : Slots) (key k : SessionKey) (slot : Slot) :
    (s.put key slot).live? k = if k = key then slot.record? else s.live? k := by
  unfold live?
  rw [get?_put]
  split <;> rfl

theorem versionOf_of_get {s : Slots} {key : SessionKey} {slot : Slot}
    (h : s.get? key = some slot) : s.versionOf key = slot.version.number := by
  unfold versionOf
  rw [h]
  rfl

theorem versionOf_put (s : Slots) (key : SessionKey) (slot : Slot) :
    (s.put key slot).versionOf key = slot.version.number :=
  versionOf_of_get (by rw [get?_put, if_pos rfl])

/-- A key has a live record, if that is what its slot holds. -/
theorem live?_eq_some {s : Slots} {key : SessionKey} {r : Record} :
    s.live? key = some r ↔ s.get? key = some (.live r) := by
  unfold live?
  cases s.get? key with
  | none => simp
  | some slot =>
    cases slot with
    | live r' => simp [Slot.record?]
    | tombstone v => simp [Slot.record?]

/-- A key without a live record has no slot, or a tombstone. -/
theorem live?_eq_none {s : Slots} {key : SessionKey} :
    s.live? key = none ↔ s.get? key = none ∨ ∃ v, s.get? key = some (.tombstone v) := by
  unfold live?
  cases s.get? key with
  | none => simp
  | some slot =>
    cases slot with
    | live r => simp [Slot.record?]
    | tombstone v => simp [Slot.record?]

theorem versionOf_of_live {s : Slots} {key : SessionKey} {r : Record}
    (h : s.live? key = some r) : s.versionOf key = r.version.number :=
  versionOf_of_get (live?_eq_some.mp h)

namespace Grows

variable {s s' s'' : Slots} {key : SessionKey}

theorem refl (s : Slots) : s.Grows s := fun _ => .inl rfl

theorem versionOf_le (h : s.Grows s') (key : SessionKey) : s.versionOf key ≤ s'.versionOf key := by
  rcases h key with hk | hk
  · exact Nat.le_of_eq (versionOf_congr hk).symm
  · exact Nat.le_of_lt hk

theorem trans (h : s.Grows s') (h' : s'.Grows s'') : s.Grows s'' := by
  intro key
  rcases h key with hk | hk
  · rcases h' key with hk' | hk'
    · exact .inl (hk'.trans hk)
    · exact .inr (by rwa [versionOf_congr hk] at hk')
  · exact .inr (Nat.lt_of_lt_of_le hk (h'.versionOf_le key))

/-- A slot that goes up, all others being left alone. -/
theorem put {slot : Slot} (h : s.versionOf key < slot.version.number) :
    s.Grows (s.put key slot) := by
  intro k
  by_cases hk : k = key
  · subst hk
    exact .inr (by rwa [versionOf_put])
  · exact .inl (by rw [get?_put, if_neg hk])

/-- **No version comes back**: at the version that was seen, there is what was seen. -/
theorem same_slot (h : s.Grows s') (hv : s'.versionOf key = s.versionOf key) :
    s'.get? key = s.get? key := by
  rcases h key with hk | hk
  · exact hk
  · exact absurd hv (Nat.ne_of_gt hk)

/-- Two records of one key at one version are one record. -/
theorem same_record {r r' : Record} (h : s.Grows s') (hr : s.live? key = some r)
    (hr' : s'.live? key = some r') (hv : r'.version = r.version) : r' = r := by
  have hsame : s'.get? key = s.get? key :=
    h.same_slot (by rw [versionOf_of_live hr', versionOf_of_live hr, hv])
  rw [live?_eq_some] at hr hr'
  rw [hr', hr] at hsame
  cases hsame
  rfl

/-- A key whose record is gone has gone up. -/
theorem up_of_gone {r : Record} (h : s.Grows s') (hl : s.live? key = some r)
    (hgone : s'.live? key = none) : r.version.number < s'.versionOf key := by
  rcases h key with hsame | hup
  · rw [live?_congr hsame, hl] at hgone
    cases hgone
  · rwa [versionOf_of_live hl] at hup

end Grows

/-! ## Outcomes -/

theorem writeOutcome_of_live {s : Slots} {key : SessionKey} {cur : Record} {expected : Version}
    (h : s.live? key = some cur) :
    s.writeOutcome key expected = if cur.version = expected then .applied else .conflict cur := by
  unfold writeOutcome
  rw [live?_eq_some.mp h]

theorem writeOutcome_of_none {s : Slots} {key : SessionKey} {expected : Version}
    (h : s.live? key = none) : s.writeOutcome key expected = .missing := by
  unfold writeOutcome
  rcases live?_eq_none.mp h with h | ⟨v, h⟩
  · rw [h]
  · rw [h]

theorem writeOutcome_eq_applied {s : Slots} {key : SessionKey} {expected : Version} :
    s.writeOutcome key expected = .applied ↔ ∃ r, s.live? key = some r ∧ r.version = expected := by
  cases hl : s.live? key with
  | none => simp [writeOutcome_of_none hl]
  | some cur => simp [writeOutcome_of_live hl]

/-- **A conditional write hits what was seen**: applied at the version of a record that was seen
    before, it replaces that very record. -/
theorem Grows.applied_onto {s s' : Slots} {key : SessionKey} {r : Record} (h : s.Grows s')
    (hr : s.live? key = some r) (ha : s'.writeOutcome key r.version = .applied) :
    s'.live? key = some r := by
  obtain ⟨r', hr', hv⟩ := writeOutcome_eq_applied.mp ha
  obtain rfl := h.same_record hr hr' hv
  exact hr'

/-! ## Calls that write -/

theorem apply_swap_outcome (s : Slots) (key : SessionKey) (expected : Version) (r : Record) :
    (s.apply (.swap key expected r)).1 = s.writeOutcome key expected := by
  simp only [apply]
  cases s.writeOutcome key expected <;> rfl

/-- A removal answers as a conditional write does. -/
theorem apply_remove_outcome (s : Slots) (key : SessionKey) (expected : Version) :
    (s.apply (.remove key expected)).1 = s.writeOutcome key expected := by
  simp only [apply, writeOutcome]
  cases s.get? key with
  | none => rfl
  | some slot =>
    cases slot with
    | tombstone v => rfl
    | live cur =>
      simp only
      split
      · rfl
      · rfl

theorem apply_insert_live {s : Slots} {r cur : Record} (h : s.live? r.key = some cur) :
    s.apply (.insert r) = (.occupied cur, s, none) := by
  have ho : s.insertOutcome r = .occupied cur := by
    unfold insertOutcome
    rw [live?_eq_some.mp h]
  simp only [apply, ho]

/-- A tombstone refuses a record that is not above it. -/
theorem apply_insert_below {s : Slots} {r : Record} {v : Version}
    (h : s.get? r.key = some (.tombstone v)) (hv : r.version ≤ v) :
    s.apply (.insert r) = (.tombstoned v, s, none) := by
  have ho : s.insertOutcome r = .tombstoned v := by
    unfold insertOutcome
    rw [h]
    exact if_pos hv
  simp only [apply, ho]

/-- A tombstone gives way to a record that is above it. -/
theorem apply_insert_above {s : Slots} {r : Record} {v : Version}
    (h : s.get? r.key = some (.tombstone v)) (hv : ¬ r.version ≤ v) :
    s.apply (.insert r) = (.inserted, s.put r.key (.live r), some (.ofRecord r)) := by
  have ho : s.insertOutcome r = .inserted := by
    unfold insertOutcome
    rw [h]
    exact if_neg hv
  simp only [apply, ho]

theorem apply_insert_unused {s : Slots} {r : Record} (h : s.get? r.key = none) :
    s.apply (.insert r) = (.inserted, s.put r.key (.live r), some (.ofRecord r)) := by
  have ho : s.insertOutcome r = .inserted := by
    unfold insertOutcome
    rw [h]
  simp only [apply, ho]

theorem apply_swap_missing {s : Slots} {key : SessionKey} {expected : Version} {r : Record}
    (h : s.live? key = none) : s.apply (.swap key expected r) = (.missing, s, none) := by
  simp only [apply, writeOutcome_of_none h]

theorem apply_swap_conflict {s : Slots} {key : SessionKey} {expected : Version} {r cur : Record}
    (h : s.live? key = some cur) (hv : cur.version ≠ expected) :
    s.apply (.swap key expected r) = (.conflict cur, s, none) := by
  simp only [apply, writeOutcome_of_live h, if_neg hv]

theorem apply_swap_applied {s : Slots} {key : SessionKey} {expected : Version} {r cur : Record}
    (h : s.live? key = some cur) (hv : cur.version = expected) :
    s.apply (.swap key expected r) = (.applied, s.put key (.live r), some (.ofRecord r)) := by
  simp only [apply, writeOutcome_of_live h, if_pos hv]

theorem apply_remove_missing {s : Slots} {key : SessionKey} {expected : Version}
    (h : s.live? key = none) : s.apply (.remove key expected) = (.missing, s, none) := by
  rcases live?_eq_none.mp h with h | ⟨v, h⟩
  · simp only [apply, h]
  · simp only [apply, h]

theorem apply_remove_conflict {s : Slots} {key : SessionKey} {expected : Version} {cur : Record}
    (h : s.live? key = some cur) (hv : cur.version ≠ expected) :
    s.apply (.remove key expected) = (.conflict cur, s, none) := by
  simp only [apply, live?_eq_some.mp h, if_neg hv]

theorem apply_remove_applied {s : Slots} {key : SessionKey} {expected : Version} {cur : Record}
    (h : s.live? key = some cur) (hv : cur.version = expected) :
    s.apply (.remove key expected) =
      (.applied, s.put key (.tombstone cur.tombstoneVersion), some (.removed key)) := by
  simp only [apply, live?_eq_some.mp h, if_pos hv]

end Slots

/-! ## Writes -/

namespace StoreCall

/-- The key of the slot that a call on a store has changed, by its outcome. -/
def written? : (c : StoreCall) → c.Outcome → Option SessionKey
  | .insert r, .inserted => some r.key
  | .swap key _ _, .applied => some key
  | .remove key _, .applied => some key
  | _, _ => none

end StoreCall

/-- A call that is no write, or one that is refused, changes nothing. -/
theorem Slots.apply_of_unwritten {s : Slots} {c : StoreCall}
    (h : c.written? (s.apply c).1 = none) : (s.apply c).2 = (s, none) := by
  cases c with
  | get key => rfl
  | scan now limit => rfl
  | ping => rfl
  | insert r =>
    revert h
    simp only [apply]
    cases s.insertOutcome r with
    | inserted => exact nofun
    | occupied existing => exact fun _ => rfl
    | tombstoned v => exact fun _ => rfl
  | swap key expected r =>
    revert h
    simp only [apply]
    cases s.writeOutcome key expected with
    | applied => exact nofun
    | conflict current => exact fun _ => rfl
    | missing => exact fun _ => rfl
  | remove key expected =>
    revert h
    simp only [apply]
    cases s.get? key with
    | none => exact fun _ => rfl
    | some slot =>
      cases slot with
      | tombstone v => exact fun _ => rfl
      | live current =>
        -- at the version that is expected, it would be a write
        simp only
        split
        · exact nofun
        · exact fun _ => rfl

/-! ## The store in memory -/

namespace MemoryStore

variable {s : MemoryStore} {c : StoreCall}

theorem call_of_unavailable (h : s.unavailable = true) : s.call c = (s, .error fault) := by
  unfold call
  rw [if_pos h]

/-- A store that is available takes effect. -/
theorem call_answer (h : s.unavailable = false) : (s.call c).2 = .ok (s.slots.apply c).1 := by
  unfold call
  rw [h]
  rcases s.slots.apply c with ⟨o, slots, _ | n⟩ <;> rfl

theorem call_slots (h : s.unavailable = false) :
    (s.call c).1.slots = (s.slots.apply c).2.1 := by
  unfold call
  rw [h]
  rcases s.slots.apply c with ⟨o, slots, _ | n⟩ <;> rfl

/-- A call that is no write, or one that is refused, leaves the store as it is. -/
theorem call_of_unwritten (h : s.unavailable = false)
    (hw : c.written? (s.slots.apply c).1 = none) : (s.call c).1 = s := by
  have happ := Slots.apply_of_unwritten hw
  have hn : ¬ s.unavailable = true := Bool.eq_false_iff.mp h
  unfold call
  rw [if_neg hn]
  rcases hs : s.slots.apply c with ⟨o, slots, n⟩
  rw [hs] at happ
  cases happ
  rfl

end MemoryStore

end SessionCluster
