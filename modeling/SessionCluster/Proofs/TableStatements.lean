/-
  Statements on the table — what the database does with each, and what that does to the content.

  The database executes one statement at a time.  An insertion makes a new row, or takes over a row
  that its condition picks; an update changes the rows that its condition picks, and counts them; a
  selection answers rows.

  * `Executes` — the reply to a statement, and the rows after it;
  * `Effects` — a statement did to the content what a call on the store does, and its count tells
    whether the call has written;
  * `Effects.guarded` — a change of the row of a key under a condition has the effects of a call, if it
    does what the call does where the condition picks the row, and the call does nothing elsewhere;
  * `executes_insert`, `executes_swap`, `executes_remove` — so each guarded statement has the effects
    of the call that sends it;
  * `executes_fetch`, `executes_scan` — what the selections answer is read as what the content has.
-/
import SessionCluster.Proofs.TableRows

namespace SessionCluster

namespace Table

/-! ## Statements -/

/-- Rows after those that a condition picks have been changed. -/
def changed (picks : Entry → Bool) (change : Entry → Entry) (t : List Entry) : List Entry :=
  t.map fun e => if picks e then change e else e

/-- Whether a row is of a key and is no tombstone, at an expected version. -/
def guardedBy (key : String) (expected : Int) (e : Entry) : Bool :=
  e.id = key && e.version = expected && !e.deleted

/-- Whether a row is a tombstone of a key below a version. -/
def yieldsTo (key : String) (version : Int) (e : Entry) : Bool :=
  e.id = key && (e.deleted && e.version < version)

/-- What the database does with a statement: its reply, and the rows after it. -/
inductive Executes (t : List Entry) : Statement → Reply → List Entry → Prop where
  /-- A key without a row gets one. -/
  | insert {key payload version owner created updated expires}
      (hnew : ∀ e ∈ t, e.id ≠ key) :
      Executes t (.insert key payload version owner created updated expires) (.affected 1)
        (t ++ [⟨key, payload, version, owner, created, updated, expires, false⟩])
  /-- A row in conflict is taken over where the condition of the statement allows it. -/
  | insertOver {key payload version owner created updated expires}
      (hold : ∃ e ∈ t, e.id = key) :
      Executes t (.insert key payload version owner created updated expires)
        (.affected (t.countP (yieldsTo key version)))
        (changed (yieldsTo key version)
          (fun e => ⟨e.id, payload, version, owner, created, updated, expires, false⟩) t)
  | swap {key expected payload version owner created updated expires} :
      Executes t (.swap key expected payload version owner created updated expires)
        (.affected (t.countP (guardedBy key expected)))
        (changed (guardedBy key expected)
          (fun e => ⟨e.id, payload, version, owner, created, updated, expires, e.deleted⟩) t)
  /-- The clock of the database shows a whole number of microseconds. -/
  | delete {key expected} (now : Instant) (hnow : now.IsMicro) :
      Executes t (.delete key expected) (.affected (t.countP (guardedBy key expected)))
        (changed (guardedBy key expected)
          (fun e => { e with deleted := true, version := e.version + 1, payload := "null",
                             updatedAt := micros now }) t)
  | fetch {key} : Executes t (.fetch key) (.rows ((t.filter fun e => e.id = key).map Entry.row)) t
  /-- Rows of one expiry come in any order. -/
  | scan {now limit} (order : List Entry)
      (hperm : order.Perm (t.filter fun e => e.expiresAt ≤ now && !e.deleted))
      (hsorted : order.Pairwise fun a b => a.expiresAt ≤ b.expiresAt) :
      Executes t (.scan now limit) (.rows ((order.take limit).map Entry.row)) t
  | ping : Executes t .ping (.affected 1) t

/-! ## Guarded statements -/

section

variable {t before after : List Entry} {e : Entry} {picks : Entry → Bool}

/-- Where the condition picks no row, nothing is changed. -/
theorem changed_none (change : Entry → Entry) (h : ∀ e ∈ t, picks e = false) :
    t.countP picks = 0 ∧ changed picks change t = t := by
  refine ⟨List.countP_eq_zero.mpr fun e he => by simp [h e he], ?_⟩
  unfold changed
  refine (List.map_congr_left fun e he => ?_).trans (List.map_id t)
  rw [h e he]
  rfl

/-- Where the condition picks one row, this one is changed. -/
theorem changed_one (change : Entry → Entry) (he : picks e = true)
    (hothers : ∀ e' ∈ before ++ after, picks e' = false) :
    (before ++ e :: after).countP picks = 1 ∧
      changed picks change (before ++ e :: after) = before ++ change e :: after := by
  obtain ⟨hcount₁, hsame₁⟩ := changed_none change
    fun e' he' => hothers e' (List.mem_append_left after he')
  obtain ⟨hcount₂, hsame₂⟩ := changed_none change
    fun e' he' => hothers e' (List.mem_append_right before he')
  constructor
  · rw [List.countP_append, List.countP_cons_of_pos he, hcount₁, hcount₂]
  · unfold changed at hsame₁ hsame₂ ⊢
    rw [List.map_append, List.map_cons, hsame₁, hsame₂, if_pos he]

end

/-- A statement that did to the content what a call on the store does, and has answered how many rows
    it wrote. -/
structure Effects (t : List Entry) (c : StoreCall) (reply : Reply) (t' : List Entry) : Prop where
  kept : Kept t'
  slots_eq : content t' = ((content t).apply c).2.1
  reply_eq : reply = .affected (if (c.written? ((content t).apply c).1).isSome then 1 else 0)

/-- A call that leaves a content as it is. -/
def Idle (s : Slots) (c : StoreCall) : Prop :=
  ∃ o, s.apply c = (o, s, none) ∧ c.written? o = none

/-- A call that puts a slot. -/
def Puts (s : Slots) (c : StoreCall) (key : SessionKey) (slot : Slot) : Prop :=
  ∃ o n, s.apply c = (o, s.put key slot, n) ∧ (c.written? o).isSome = true

section

variable {t t' : List Entry} {reply : Reply} {key : SessionKey} {r : Record} {c : StoreCall}

/-- A statement that picked no row, for a call that does nothing. -/
theorem Effects.nothing (h : Kept t) (hidle : Idle (content t) c) :
    Effects t c (.affected 0) t := by
  obtain ⟨o, happ, ho⟩ := hidle
  refine ⟨h, ?_, ?_⟩
  · rw [happ]
  · rw [happ, ho]
    rfl

/-- A statement that wrote one row, for a call that puts its slot. -/
theorem Effects.written {slot : Slot} (hputs : Puts (content t) c key slot)
    (h : Kept t' ∧ content t' = (content t).put key slot) : Effects t c (.affected 1) t' := by
  obtain ⟨o, n, happ, ho⟩ := hputs
  refine ⟨h.1, ?_, ?_⟩
  · rw [happ]
    exact h.2
  · rw [happ, if_pos ho]

/-- **A guarded change** of the row of a key: where its condition picks the row the call puts the
    slot of the changed row, and otherwise the call does nothing. -/
theorem Effects.guarded (key : SessionKey) {picks : Entry → Bool} {change : Entry → Entry} (h : Kept t)
    (hkey : ∀ e, picks e = true → e.id = key.text)
    (hnone : (∀ e ∈ t, e.id ≠ key.text) → (content t).get? key = none → Idle (content t) c)
    (hrow : ∀ e slot, e.Holds key slot → (content t).get? key = some slot →
      picks e = false ∧ Idle (content t) c ∨
        picks e = true ∧ ∃ slot', (change e).Holds key slot' ∧ Puts (content t) c key slot') :
    Effects t c (.affected (t.countP picks)) (changed picks change t) := by
  have hother {t₀ : List Entry} (hids : ∀ e ∈ t₀, e.id ≠ key.text) : ∀ e ∈ t₀, picks e = false :=
    fun e he => Bool.eq_false_iff.mpr fun hpick => hids e he (hkey e hpick)
  -- at most one row is of the key, so the condition picks one row or none
  rcases h.find key with ⟨hids, hget⟩ | ⟨before, e, after, slot, rfl, he, hget, hids⟩
  · obtain ⟨hcount, hsame⟩ := changed_none change (hother hids)
    rw [hcount, hsame]
    exact .nothing h (hnone hids hget)
  · rcases hrow e slot he hget with ⟨hpick, hidle⟩ | ⟨hpick, slot', hholds, hputs⟩
    · -- the condition leaves the row alone, and all others are of other keys
      have hall : ∀ e' ∈ before ++ e :: after, picks e' = false := by
        intro e' he'
        rcases List.mem_append.mp he' with he' | he'
        · exact hother hids e' (List.mem_append_left _ he')
        · rcases List.mem_cons.mp he' with rfl | he'
          · exact hpick
          · exact hother hids e' (List.mem_append_right _ he')
      obtain ⟨hcount, hsame⟩ := changed_none change hall
      rw [hcount, hsame]
      exact .nothing h hidle
    · -- the row is changed, and the slot of its key with it
      obtain ⟨hcount, hsame⟩ := changed_one change hpick (hother hids)
      rw [hcount, hsame]
      exact .written hputs (h.replace he hholds hids)

/-- **The insertion** does to the content what inserting the record does. -/
theorem executes_insert (h : Kept t) (hr : r.Storable) (hpos : 0 < r.version.number)
    (hx : Executes t (.insert r.key.text r.payload.text r.version.number r.owner.text
      (micros r.createdAt) (micros r.updatedAt) (micros r.expiresAt)) reply t') :
    Effects t (.insert r) reply t' := by
  have hholds : (Entry.ofRecord r).Holds r.key (.live r) := .live hr hpos
  cases hx with
  | insert hnew =>
    rcases h.find r.key with ⟨_, hget⟩ | ⟨before, e, after, slot, rfl, he, _⟩
    · exact .written ⟨_, _, Slots.apply_insert_unused hget, rfl⟩ (h.append hnew hholds)
    · exact absurd he.id_eq (hnew e (by simp))
  | insertOver hold =>
    refine .guarded r.key h (fun e hpick => ?_) (fun hids _ => ?_) fun e slot he hget => ?_
    · simp only [yieldsTo, Bool.and_eq_true, decide_eq_true_eq] at hpick
      exact hpick.1
    · obtain ⟨e, he, hid⟩ := hold
      exact absurd hid (hids e he)
    · cases slot with
      | live cur =>
        -- a record is in the way
        refine .inl ⟨?_, _, Slots.apply_insert_live (Slots.live?_eq_some.mpr hget), rfl⟩
        simp [yieldsTo, he.deleted_eq, Slot.record?]
      | tombstone v =>
        have hversion : e.version = v.number := he.version_eq
        by_cases hbelow : r.version ≤ v
        · refine .inl ⟨?_, _, Slots.apply_insert_below hget hbelow, rfl⟩
          have hle : r.version.number ≤ v.number := hbelow
          simp only [yieldsTo, hversion, Bool.and_eq_false_iff, decide_eq_false_iff_not]
          omega
        · refine .inr ⟨?_, _, ?_, _, _, Slots.apply_insert_above hget hbelow, rfl⟩
          · have hlt : ¬ r.version.number ≤ v.number := hbelow
            simp only [yieldsTo, he.id_eq, he.deleted_eq, hversion, Slot.record?, Bool.and_eq_true,
              decide_eq_true_eq]
            exact ⟨trivial, rfl, by omega⟩
          · rw [he.id_eq]
            exact hholds

theorem number_inj {v w : Version} : v.number = w.number ↔ v = w := by
  cases v
  cases w
  simp

/-- A row is picked at an expected version if its key has a record of that version. -/
theorem guardedBy_iff {e : Entry} {slot : Slot} (he : e.Holds key slot) {expected : Version} :
    guardedBy key.text expected.number e = true ↔
      ∃ cur, slot = .live cur ∧ cur.version = expected := by
  simp only [guardedBy, he.id_eq, he.version_eq, he.deleted_eq, Bool.and_eq_true, decide_eq_true_eq,
    Bool.not_eq_true', true_and]
  cases slot with
  | tombstone v => simp [Slot.record?]
  | live cur => simpa [Slot.record?, Slot.version] using Int.natCast_inj.trans number_inj

/-- A conditional statement of an expected version, for a call that puts a slot over the record of
    that version and otherwise does nothing. -/
theorem Effects.conditional {expected : Version} {change : Entry → Entry} (h : Kept t)
    (hnone : (content t).live? key = none → Idle (content t) c)
    (hother : ∀ cur, (content t).live? key = some cur → cur.version ≠ expected → Idle (content t) c)
    (hsame : ∀ cur, (content t).live? key = some cur → cur.version = expected → cur.Storable →
      cur.key = key → ∃ slot, (change (.ofRecord cur)).Holds key slot ∧ Puts (content t) c key slot) :
    Effects t c (.affected (t.countP (guardedBy key.text expected.number)))
      (changed (guardedBy key.text expected.number) change t) := by
  refine .guarded key h (fun e hpick => ?_) (fun _ hget => ?_) fun e slot he hget => ?_
  · simp only [guardedBy, Bool.and_eq_true, decide_eq_true_eq] at hpick
    exact hpick.1.1
  · exact hnone (Slots.live?_eq_none.mpr (.inl hget))
  · by_cases hpick : guardedBy key.text expected.number e = true
    · obtain ⟨cur, rfl, hversion⟩ := (guardedBy_iff he).mp hpick
      have hl := Slots.live?_eq_some.mpr hget
      cases he with
      | live hcur => exact .inr ⟨hpick, hsame cur hl hversion hcur rfl⟩
    · refine .inl ⟨Bool.eq_false_iff.mpr hpick, ?_⟩
      cases slot with
      | tombstone v => exact hnone (Slots.live?_eq_none.mpr (.inr ⟨v, hget⟩))
      | live cur =>
        refine hother cur (Slots.live?_eq_some.mpr hget) fun hversion => hpick ?_
        exact (guardedBy_iff he).mpr ⟨cur, rfl, hversion⟩

/-- **The conditional update** does to the content what replacing the record does. -/
theorem executes_swap {expected : Version} (h : Kept t) (hr : r.Storable)
    (hpos : 0 < r.version.number) (hk : r.key = key)
    (hx : Executes t (.swap key.text expected.number r.payload.text r.version.number r.owner.text
      (micros r.createdAt) (micros r.updatedAt) (micros r.expiresAt)) reply t') :
    Effects t (.swap key expected r) reply t' := by
  cases hx with
  | swap =>
    refine .conditional h (fun hl => ?_) (fun cur hl hv => ?_) fun cur hl hv _ hcurkey => ?_
    · exact ⟨_, Slots.apply_swap_missing hl, rfl⟩
    · exact ⟨_, Slots.apply_swap_conflict hl hv, rfl⟩
    · refine ⟨.live r, ?_, _, _, Slots.apply_swap_applied hl hv, rfl⟩
      subst hk
      show Entry.Holds ⟨cur.key.text, _, _, _, _, _, _, false⟩ r.key (.live r)
      rw [hcurkey]
      exact .live hr hpos

/-- **The conditional removal** does to the content what removing the record does. -/
theorem executes_remove {expected : Version} (h : Kept t)
    (hx : Executes t (.delete key.text expected.number) reply t') :
    Effects t (.remove key expected) reply t' := by
  cases hx with
  | delete now hnow =>
    refine .conditional h (fun hl => ?_) (fun cur hl hv => ?_) fun cur hl hv hcur hcurkey => ?_
    · exact ⟨_, Slots.apply_remove_missing hl, rfl⟩
    · exact ⟨_, Slots.apply_remove_conflict hl hv, rfl⟩
    · refine ⟨_, ?_, _, _, Slots.apply_remove_applied hl hv, rfl⟩
      have hlow : cur.version.number < 9223372036854775807 := hcur.version
      have hnext : cur.tombstoneVersion.number = cur.version.number + 1 :=
        Version.next_number (by omega)
      refine .tombstone (congrArg SessionKey.text hcurkey) rfl ?_ ?_ ?_ ?_
      · rw [hnext]
        rfl
      · omega
      · omega
      · intro m hm
        simp only [List.mem_cons, List.not_mem_nil, or_false] at hm
        rcases hm with rfl | rfl | rfl
        · exact ⟨_, hcur.createdAt.read_back⟩
        · exact ⟨_, hnow.read_back⟩
        · exact ⟨_, hcur.expiresAt.read_back⟩

end

/-! ## Selections -/

section

variable {t t' : List Entry} {reply : Reply} {key : SessionKey}

/-- **The selection of a key** answers the row that holds its slot, if there is one. -/
theorem executes_fetch (h : Kept t) (hx : Executes t (.fetch key.text) reply t') :
    t' = t ∧ ((content t).get? key = none ∧ reply = .rows [] ∨
      ∃ (e : Entry) (slot : Slot), (content t).get? key = some slot ∧ reply = .rows [e.row] ∧
        e.Holds key slot) := by
  cases hx with
  | fetch =>
    have hnone {t₀ : List Entry} (hids : ∀ e ∈ t₀, e.id ≠ key.text) :
        t₀.filter (fun e => e.id = key.text) = [] :=
      List.filter_eq_nil_iff.mpr fun e he => by simpa using hids e he
    refine ⟨rfl, ?_⟩
    rcases h.find key with ⟨hids, hget⟩ | ⟨before, e, after, slot, rfl, he, hget, hids⟩
    · left
      rw [hnone hids]
      exact ⟨hget, rfl⟩
    · right
      refine ⟨e, slot, hget, ?_, he⟩
      have hpick : (e :: after).filter (fun e => e.id = key.text) =
          e :: after.filter fun e => e.id = key.text :=
        List.filter_cons_of_pos (decide_eq_true he.id_eq)
      rw [List.filter_append, hpick,
        hnone fun e' he' => hids e' (List.mem_append_left _ he'),
        hnone fun e' he' => hids e' (List.mem_append_right _ he')]
      rfl

/-- Rows of records are read as these records. -/
theorem scanned_rows {es : List Entry} (h : ∀ e ∈ es, ∃ key r, e.Holds key (.live r)) :
    ∃ batch, scanned (es.map Entry.row) = .ok batch ∧
      ∀ r ∈ batch, ∃ e ∈ es, e.Holds r.key (.live r) := by
  -- two passes over the rows, first into values, then into records
  suffices hread : ∃ values batch, (es.map Entry.row).mapM Row.read = .ok values ∧
      values.mapM StoredRow.record = .ok batch ∧ ∀ r ∈ batch, ∃ e ∈ es, e.Holds r.key (.live r) by
    obtain ⟨values, batch, hvalues, hrecords, hall⟩ := hread
    refine ⟨batch, ?_, hall⟩
    unfold scanned
    rw [hvalues]
    exact hrecords
  induction es with
  | nil => exact ⟨[], [], rfl, rfl, fun r hr => absurd hr List.not_mem_nil⟩
  | cons e es ih =>
    obtain ⟨key, r, he⟩ := h e (List.mem_cons_self ..)
    obtain ⟨values, batch, hvalues, hrecords, hall⟩ := ih fun e he => h e (List.mem_cons_of_mem _ he)
    obtain ⟨hread, hrecord⟩ := he.read_live
    obtain rfl := he.key_of_live
    refine ⟨.ofRecord r :: values, r :: batch, ?_, ?_, ?_⟩
    · rw [List.map_cons, List.mapM_cons, hread, hvalues]
      rfl
    · rw [List.mapM_cons, hrecord, hrecords]
      rfl
    · intro r' hr'
      rcases List.mem_cons.mp hr' with rfl | hr'
      · exact ⟨e, List.mem_cons_self .., he⟩
      · obtain ⟨e', he', hholds⟩ := hall r' hr'
        exact ⟨e', List.mem_cons_of_mem _ he', hholds⟩

/-- **The selection of expired records** answers records that the content has. -/
theorem executes_scan {now : Int} {limit : Nat} (h : Kept t)
    (hx : Executes t (.scan now limit) reply t') :
    t' = t ∧ ∃ rows batch, reply = .rows rows ∧ scanned rows = .ok batch ∧
      ∀ r ∈ batch, (content t).live? r.key = some r := by
  cases hx with
  | scan order hperm hsorted =>
    -- whatever order the rows come in, those taken are live rows of the table
    have hmem : ∀ e ∈ order.take limit, e ∈ t ∧ e.deleted = false := by
      intro e he
      have hfiltered := hperm.mem_iff.mp (List.mem_of_mem_take he)
      obtain ⟨hin, hpick⟩ := List.mem_filter.mp hfiltered
      simp only [Bool.and_eq_true, Bool.not_eq_true'] at hpick
      exact ⟨hin, hpick.2⟩
    have hlive : ∀ e ∈ order.take limit, ∃ key r, e.Holds key (.live r) := by
      intro e he
      obtain ⟨hin, hdeleted⟩ := hmem e he
      obtain ⟨key, slot, hholds⟩ := h.holds e hin
      -- tombstones were filtered away
      cases slot with
      | live r => exact ⟨key, r, hholds⟩
      | tombstone v =>
        rw [hholds.deleted_eq] at hdeleted
        cases hdeleted
    obtain ⟨batch, hbatch, hall⟩ := scanned_rows hlive
    refine ⟨rfl, _, batch, rfl, hbatch, fun r hr => ?_⟩
    obtain ⟨e, he, hholds⟩ := hall r hr
    exact Slots.live?_eq_some.mpr (h.get?_of_mem (hmem e he).1 hholds)

end

end Table

end SessionCluster
