/-
  Rows of the table — what the database keeps, and the content that it stands for.

  The database keeps one row per key, with its instants in whole microseconds.  A row stands for a
  slot: for a record, or with the mark for a tombstone.  What was bound to a statement is read back as
  it was, for records that the table can hold.

  * `Entry.slot?` — the slot that a row stands for, and `content` the slots of all rows;
  * `Record.Storable` — the records that the table can hold without loss;
  * `Entry.Holds` — a row that holds a slot: it stands for it, and is read as it when it is answered;
  * `Kept` — every row holds a slot, and no key has two rows;
  * `Kept.find`, `Kept.replace`, `Kept.append` — what the rows say of a key, and what becomes of the
    content when its row is changed or a row is added.
-/
import Mathlib.Data.List.Nodup
import SessionCluster.Proofs.Instants
import SessionCluster.Proofs.SlotOrder
import SessionCluster.Table.Calls
import SessionCluster.Table.Changes

namespace SessionCluster

/-! ## Microseconds -/

namespace Instant

/-- Whether an instant is a whole number of microseconds, and in no leap second. -/
structure IsMicro (t : Instant) : Prop where
  whole : t.nano % 1000 = 0
  ordinary : t.nano < 1000000000

/-- The instant so many microseconds after the start of 1970, if it is within the range. -/
def ofMicros? (m : Int) : Option Instant := ofParts? (m / 1000000) ((m % 1000000).toNat * 1000)

/-- What is bound as microseconds is read back. -/
theorem IsMicro.read_back {t : Instant} (h : t.IsMicro) : ofMicros? (Table.micros t) = some t := by
  obtain ⟨hwhole, hordinary⟩ := h
  have hmicros : Table.micros t = t.second * 1000000 + (t.nano / 1000 : Nat) := by
    unfold Table.micros Table.epochSecond
    have hexact : (t.second - 946684800) * 1000000000 + (t.nano : Int) =
        ((t.second - 946684800) * 1000000 + (t.nano / 1000 : Nat)) * 1000 := by omega
    rw [hexact, Int.mul_tdiv_cancel _ (by decide)]
    omega
  have hsecond : Table.micros t / 1000000 = t.second := by
    rw [hmicros]
    omega
  have hnano : (Table.micros t % 1000000).toNat * 1000 = t.nano := by
    rw [hmicros]
    omega
  rw [ofMicros?, hsecond, hnano, ofParts?_self]

end Instant

namespace Table

/-! ## Rows -/

/-- A row as the database keeps it, its instants in microseconds. -/
structure Entry where
  id : String
  payload : String
  version : Int
  owner : String
  createdAt : Int
  updatedAt : Int
  expiresAt : Int
  deleted : Bool
deriving DecidableEq

/-- A number of microseconds, as it is answered. -/
def instantCell (m : Int) : Cell :=
  match Instant.ofMicros? m with
  | some t => .instant t
  | none => .foreign

namespace Entry

/-- The row of a record. -/
def ofRecord (r : Record) : Entry :=
  ⟨r.key.text, r.payload.text, r.version.number, r.owner.text, micros r.createdAt,
    micros r.updatedAt, micros r.expiresAt, false⟩

/-- A row as it is answered. -/
def row (e : Entry) : Row :=
  [("id", .text e.id), ("payload", .text e.payload), ("version", .number e.version),
   ("owner_node", .text e.owner), ("created_at", instantCell e.createdAt),
   ("updated_at", instantCell e.updatedAt), ("expires_at", instantCell e.expiresAt),
   ("deleted", .truth e.deleted)]

/-- The key and the slot that a row stands for. -/
def slot? (e : Entry) : Option (SessionKey × Slot) := do
  let key ← (SessionKey.make e.id).toOption
  let version ← versionOf? e.version
  if e.deleted then return (key, .tombstone version)
  let payload ← (Json.Reader.ofText Json.Reader.value e.payload).toOption
  return (key, .live ⟨key, payload, version, ⟨e.owner⟩, ← Instant.ofMicros? e.createdAt,
    ← Instant.ofMicros? e.updatedAt, ← Instant.ofMicros? e.expiresAt⟩)

end Entry

/-- The content that rows stand for. -/
def content (t : List Entry) : Slots := ⟨t.filterMap Entry.slot?⟩

end Table

/-! ## What rows stand for -/

/-- A record that the table holds without loss: its payload reads back, its version is below the last
    signed word, its owner has a name, and its instants are whole microseconds. -/
structure Record.Storable (r : Record) : Prop where
  payload : Json.Reader.ofText Json.Reader.value r.payload.text = .ok r.payload
  version : r.version.number < 9223372036854775807
  owner : Text.allBlank r.owner.text = false
  createdAt : r.createdAt.IsMicro
  updatedAt : r.updatedAt.IsMicro
  expiresAt : r.expiresAt.IsMicro

namespace Table

/-- The row of a record, or a tombstone, as the statements leave them. -/
inductive Entry.Holds : Entry → SessionKey → Slot → Prop where
  | live {r : Record} (h : r.Storable) (hpos : 0 < r.version.number) :
      Holds (.ofRecord r) r.key (.live r)
  | tombstone {e : Entry} {key : SessionKey} {v : Version} (hid : e.id = key.text)
      (hdeleted : e.deleted = true) (hversion : e.version = v.number) (hpos : 0 < v.number)
      (hrange : v.number < 9223372036854775808)
      (hinstants : ∀ m ∈ [e.createdAt, e.updatedAt, e.expiresAt],
        ∃ t, Instant.ofMicros? m = some t) :
      Holds e key (.tombstone v)

theorem versionOf?_number (v : Version) : versionOf? v.number = some v := by
  show Version.ofNat? v.number = some v
  exact dif_pos v.number_lt

theorem StoredRow.version?_number {row : StoredRow} {v : Version} (h : row.version = v.number)
    (key : String) : row.version? key = .ok v := by
  have hv : Version.ofNat? v.number = some v := dif_pos v.number_lt
  unfold StoredRow.version?
  simp only [h, hv]

/-- A row with the mark is read as a tombstone. -/
theorem StoredRow.stored_of_deleted {row : StoredRow} {v : Version} (hdeleted : row.deleted = true)
    (hversion : row.version = v.number) : row.stored = .ok (.tombstone v) := by
  unfold StoredRow.stored
  rw [if_pos hdeleted, StoredRow.version?_number hversion]

/-- What a row of a slot stands for. -/
def Stored.ofSlot : Slot → Stored
  | .live r => .live r
  | .tombstone v => .tombstone v

/-- The values of a record that the table can hold. -/
def StoredRow.ofRecord (r : Record) : StoredRow :=
  ⟨r.key.text, r.payload.text, r.version.number, r.owner.text, r.createdAt, r.updatedAt,
    r.expiresAt, false⟩

/-- A record that may be stored is read back from its row. -/
theorem StoredRow.record_ofRecord {r : Record} (h : r.Storable) :
    (StoredRow.ofRecord r).record = .ok r := by
  have howner : NodeName.make r.owner.text = .ok r.owner := by
    unfold NodeName.make
    rw [h.owner]
    rfl
  unfold StoredRow.record
  simp only [StoredRow.ofRecord, SessionKey.make_eq_ok.mpr rfl, h.payload, howner]
  rw [StoredRow.version?_number rfl]

namespace Entry.Holds

variable {e : Entry} {key : SessionKey} {slot : Slot}

theorem id_eq (h : e.Holds key slot) : e.id = key.text := by
  cases h with
  | live => rfl
  | tombstone hid => exact hid

theorem version_eq (h : e.Holds key slot) : e.version = slot.version.number := by
  cases h with
  | live => rfl
  | tombstone _ _ hversion => exact hversion

theorem deleted_eq (h : e.Holds key slot) : e.deleted = slot.record?.isNone := by
  cases h with
  | live => rfl
  | tombstone _ hdeleted => exact hdeleted

theorem version_pos (h : e.Holds key slot) : 0 < slot.version.number := by
  cases h with
  | live _ hpos => exact hpos
  | tombstone _ _ _ hpos => exact hpos

theorem version_lt (h : e.Holds key slot) : slot.version.number < 9223372036854775808 := by
  cases h with
  | live hr => exact Nat.lt_succ_of_lt hr.version
  | tombstone _ _ _ _ hrange => exact hrange

theorem key_of_live {r : Record} (h : e.Holds key (.live r)) : r.key = key := by
  cases h
  rfl

/-- A row stands for what it holds. -/
theorem slot?_eq (h : e.Holds key slot) : e.slot? = some (key, slot) := by
  unfold Entry.slot?
  rw [h.id_eq, SessionKey.make_eq_ok.mpr rfl, h.version_eq, versionOf?_number]
  cases h with
  | live hr =>
    simp only [Entry.ofRecord, hr.payload, hr.createdAt.read_back, hr.updatedAt.read_back,
      hr.expiresAt.read_back]
    rfl
  | tombstone _ hdeleted =>
    simp only [hdeleted]
    rfl

/-- The row of a record is read as its values. -/
theorem read_live {r : Record} (h : e.Holds key (.live r)) :
    e.row.read = .ok (.ofRecord r) ∧ (StoredRow.ofRecord r).record = .ok r := by
  cases h with
  | live hr =>
    refine ⟨?_, StoredRow.record_ofRecord hr⟩
    unfold Entry.row instantCell
    simp only [Entry.ofRecord, hr.createdAt.read_back, hr.updatedAt.read_back,
      hr.expiresAt.read_back]
    rfl

/-- A row as it is answered is read as what it holds. -/
theorem read_eq (h : e.Holds key slot) :
    ∃ values, e.row.read = .ok values ∧ values.stored = .ok (.ofSlot slot) := by
  cases h with
  | @live r hr hpos =>
    obtain ⟨hread, hrecord⟩ := (Holds.live hr hpos).read_live
    refine ⟨_, hread, ?_⟩
    unfold StoredRow.stored
    rw [hrecord]
    rfl
  | @tombstone _ _ v hid hdeleted hversion hpos hrange hinstants =>
    obtain ⟨created, hcreated⟩ := hinstants e.createdAt (by simp)
    obtain ⟨updated, hupdated⟩ := hinstants e.updatedAt (by simp)
    obtain ⟨expires, hexpires⟩ := hinstants e.expiresAt (by simp)
    refine ⟨⟨e.id, e.payload, e.version, e.owner, created, updated, expires, e.deleted⟩, ?_,
      StoredRow.stored_of_deleted hdeleted hversion⟩
    unfold Entry.row instantCell
    simp only [hcreated, hupdated, hexpires]
    rfl

end Entry.Holds

/-! ## Rows and contents -/

/-- Rows that stand for slots, no two of one key. -/
structure Kept (t : List Entry) : Prop where
  holds : ∀ e ∈ t, ∃ key slot, e.Holds key slot
  distinct : (t.map Entry.id).Nodup

theorem kept_nil : Kept [] := ⟨nofun, List.nodup_nil⟩

section

variable {t before after : List Entry} {e e' : Entry} {key : SessionKey} {slot slot' : Slot}

/-- A slot is put behind entries of other keys. -/
theorem putEntry_append {es : List (SessionKey × Slot)} (h : ∀ x ∈ es, x.1 ≠ key)
    (fs : List (SessionKey × Slot)) :
    Slots.putEntry key slot (es ++ fs) = es ++ Slots.putEntry key slot fs := by
  induction es with
  | nil => rfl
  | cons x es ih =>
    obtain ⟨k, old⟩ := x
    have hk : k ≠ key := h (k, old) (List.mem_cons_self ..)
    rw [List.cons_append, Slots.putEntry, if_neg hk, ih fun y hy => h y (List.mem_cons_of_mem _ hy)]
    rfl

/-- Rows of other keys stand for slots of other keys. -/
theorem Kept.other_keys (h : ∀ e ∈ t, ∃ key slot, e.Holds key slot)
    (hother : ∀ e ∈ t, e.id ≠ key.text) : ∀ x ∈ t.filterMap Entry.slot?, x.1 ≠ key := by
  intro x hx
  obtain ⟨e, he, hslot⟩ := List.mem_filterMap.mp hx
  obtain ⟨k, s, hholds⟩ := h e he
  rw [hholds.slot?_eq] at hslot
  obtain rfl := Option.some.inj hslot
  rintro rfl
  exact hother e he hholds.id_eq

theorem lookup_of_other_keys {es : List (SessionKey × Slot)} (h : ∀ x ∈ es, x.1 ≠ key) :
    es.lookup key = none :=
  List.lookup_eq_none_iff.mpr fun x hx => by simpa using (h x hx).symm

/-- **What the rows say of a key**: no row is of it, or one row, which holds its slot. -/
theorem Kept.find (h : Kept t) (key : SessionKey) :
    ((∀ e ∈ t, e.id ≠ key.text) ∧ (content t).get? key = none) ∨
      ∃ before e after slot, t = before ++ e :: after ∧ e.Holds key slot ∧
        (content t).get? key = some slot ∧ ∀ e' ∈ before ++ after, e'.id ≠ key.text := by
  by_cases hrow : ∃ e ∈ t, e.id = key.text
  · right
    obtain ⟨e, he, hid⟩ := hrow
    obtain ⟨before, after, rfl⟩ := List.append_of_mem he
    obtain ⟨k, slot, hholds⟩ := h.holds e he
    -- the row holds some key's slot, and its text says which
    obtain rfl : k = key := by
      have htext : k.text = key.text := hholds.id_eq.symm.trans hid
      cases k
      cases key
      cases htext
      rfl
    have hdistinct := h.distinct
    rw [List.map_append, List.map_cons] at hdistinct
    -- texts of rows are distinct, so no other row is of this key
    have hothers : ∀ e' ∈ before ++ after, e'.id ≠ k.text := by
      rw [← hid]
      intro e' he' hsame
      have hfirst := (List.nodup_middle.mp hdistinct)
      refine (List.nodup_cons.mp hfirst).1 ?_
      rw [← List.map_append, ← hsame]
      exact List.mem_map_of_mem he'
    refine ⟨before, e, after, slot, rfl, hholds, ?_, hothers⟩
    -- the rows before it say nothing of the key, so the look-up comes to this one
    have hbefore : ∀ x ∈ before.filterMap Entry.slot?, x.1 ≠ k :=
      Kept.other_keys (fun e' he' => h.holds e' (List.mem_append_left _ he'))
        (fun e' he' => hothers e' (List.mem_append_left _ he'))
    unfold Slots.get? content
    rw [List.filterMap_append, List.filterMap_cons_some hholds.slot?_eq, List.lookup_append,
      lookup_of_other_keys hbefore, List.lookup_cons_self]
    rfl
  · left
    -- no row is of the key, so none says anything of it
    have hother : ∀ e ∈ t, e.id ≠ key.text := fun e he hid => hrow ⟨e, he, hid⟩
    exact ⟨hother, lookup_of_other_keys (Kept.other_keys h.holds hother)⟩

/-- A row that is changed within its key puts its slot. -/
theorem Kept.replace (h : Kept (before ++ e :: after)) (he : e.Holds key slot)
    (he' : e'.Holds key slot') (hothers : ∀ e' ∈ before ++ after, e'.id ≠ key.text) :
    Kept (before ++ e' :: after) ∧
      content (before ++ e' :: after) = (content (before ++ e :: after)).put key slot' := by
  have hbefore := Kept.other_keys (fun x hx => h.holds x (List.mem_append_left _ hx))
    (fun x hx => hothers x (List.mem_append_left _ hx))
  refine ⟨⟨fun x hx => ?_, ?_⟩, ?_⟩
  · rcases List.mem_append.mp hx with hx | hx
    · exact h.holds x (List.mem_append_left _ hx)
    · rcases List.mem_cons.mp hx with rfl | hx
      · exact ⟨key, slot', he'⟩
      · exact h.holds x (List.mem_append_right _ (List.mem_cons_of_mem _ hx))
  · have hdistinct := h.distinct
    rw [List.map_append, List.map_cons, he.id_eq] at hdistinct
    rw [List.map_append, List.map_cons, he'.id_eq]
    exact hdistinct
  · unfold content Slots.put
    rw [List.filterMap_append, List.filterMap_append, List.filterMap_cons_some he.slot?_eq,
      List.filterMap_cons_some he'.slot?_eq, putEntry_append hbefore, Slots.putEntry, if_pos rfl]

/-- A row of a new key puts its slot. -/
theorem Kept.append (h : Kept t) (hnew : ∀ e ∈ t, e.id ≠ key.text) (he' : e'.Holds key slot') :
    Kept (t ++ [e']) ∧ content (t ++ [e']) = (content t).put key slot' := by
  have hother := Kept.other_keys h.holds hnew
  refine ⟨⟨fun x hx => ?_, ?_⟩, ?_⟩
  · rcases List.mem_append.mp hx with hx | hx
    · exact h.holds x hx
    · rw [List.mem_singleton.mp hx]
      exact ⟨key, slot', he'⟩
  · rw [List.map_append, List.map_singleton, he'.id_eq]
    refine List.nodup_append.mpr ⟨h.distinct, List.nodup_singleton _, ?_⟩
    intro x hx y hy hxy
    obtain ⟨e, he, rfl⟩ := List.mem_map.mp hx
    rw [List.mem_singleton.mp hy] at hxy
    exact hnew e he hxy
  · have hput : Slots.putEntry key slot' (t.filterMap Entry.slot? ++ []) =
        t.filterMap Entry.slot? ++ Slots.putEntry key slot' [] := putEntry_append hother []
    rw [List.append_nil] at hput
    unfold content Slots.put
    rw [List.filterMap_append, List.filterMap_cons_some he'.slot?_eq, hput]
    rfl

/-- The slot that a row holds is what its key holds. -/
theorem Kept.get?_of_mem (h : Kept t) (he : e ∈ t) (hholds : e.Holds key slot) :
    (content t).get? key = some slot := by
  rcases h.find key with ⟨hids, _⟩ | ⟨before, e', after, slot', rfl, hholds', hget, hids⟩
  · exact absurd hholds.id_eq (hids e he)
  · have hsame : e = e' := by
      rcases List.mem_append.mp he with he | he
      · exact absurd hholds.id_eq (hids e (List.mem_append_left _ he))
      · rcases List.mem_cons.mp he with hsame | he
        · exact hsame
        · exact absurd hholds.id_eq (hids e (List.mem_append_right _ he))
    have hslot := hholds'.slot?_eq
    rw [← hsame, hholds.slot?_eq] at hslot
    cases hslot
    exact hget

/-- What a key of kept rows holds is a slot that a row holds. -/
theorem Kept.holds_of_get (h : Kept t) (hget : (content t).get? key = some slot) :
    ∃ e ∈ t, e.Holds key slot := by
  rcases h.find key with ⟨_, hnone⟩ | ⟨before, e, after, slot', rfl, hholds, hsome, _⟩
  · rw [hnone] at hget
    cases hget
  · rw [hsome] at hget
    obtain rfl := Option.some.inj hget
    exact ⟨e, List.mem_append_right _ (List.mem_cons_self ..), hholds⟩

end

end Table

end SessionCluster
