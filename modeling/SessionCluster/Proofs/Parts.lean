/-
  The parts of calls — what each question, and each group of questions, does to the discipline.

  The parts are those of the operations themselves: a call on the store with its failures
  (`Keeps.storeCall`, `Keeps.sweepCall`), reading what is present (`Keeps.loadLive`), what follows
  a write (`Keeps.commit`), and replacing the record of an expected version (`Keeps.swap`).

  Where a call waits, the store may have grown in any way.  What carries it over is what it has
  read: a record that was live at a version is still there, or the key has gone up
  (`Slots.Grows`); so a write at that version that is applied replaces the record that was read.
-/
import SessionCluster.Proofs.OneStep

namespace SessionCluster

variable {α : Type} {call : Call} {post : List (Exchange World) → α → Prop}

/-! ## Questions -/

/-- A question that is no call on the store and no announcement changes nothing. -/
theorem lawful_of_same {w : World} {e : Exchange World} (he : e.written? = none) :
    Lawful call w [e] w :=
  .quiet (writes_of_none he) rfl rfl

/-- A call on the store that has not taken effect writes nothing. -/
theorem written?_of_failure {w w' : World} {c : StoreCall}
    {x : Option (Except StoreFault c.Outcome)} (hx : ∀ o, x ≠ some (.ok o)) :
    Exchange.written? ⟨w, .store c, x, w'⟩ = none := by
  cases x with
  | none => rfl
  | some r =>
    cases r with
    | error f => rfl
    | ok o => exact absurd rfl (hx o)

/-- Waiting for a call on the store: it fails and nothing has happened, or it takes effect on the
    content of that moment. -/
theorem Keeps.askStore {c : StoreCall}
    {next : Option (Except StoreFault c.Outcome) → Operation α}
    {past es : List (Exchange World)} {w₀ w : World} (hp : Lawful call w₀ es w)
    (hfail : ∀ (w₁ : World) x, (∀ o, x ≠ some (.ok o)) →
      Keeps sharing call post (next x) (past ++ es) w₁ [⟨w₁, .store c, x, w₁⟩] w₁)
    (htake : ∀ w₁ : World, w.slots.Grows w₁.slots → w₁.InRange → sharing.inv w₁ →
      Keeps sharing call post (next (some (.ok (w₁.slots.apply c).1))) (past ++ es) w₁
        [w₁.effect c] (w₁.after c)) :
    Keeps sharing call post (.ask (.store c) next) past w₀ es w := by
  refine ⟨hp, ?_⟩
  intro w₁ hl hr hi x w₂ ha
  rcases ha with ⟨rfl, rfl⟩ | ⟨hx, rfl⟩
  · exact htake w₁ hl hr hi
  · exact hfail _ x hx

/-- The same for a call of a session operation, whose failures end it without a judgement. -/
theorem Keeps.storeCall {s : CoordinatorSettings} {c : StoreCall}
    {post : List (Exchange World) → Except SessionError α → Prop}
    {next : c.Outcome → Operation (Except SessionError α)}
    {past es : List (Exchange World)} {w₀ w : World} (hp : Lawful call w₀ es w)
    (hfail : ∀ fs e, SessionError.judges e = false → post fs (.error e))
    (htake : ∀ w₁ : World, w.slots.Grows w₁.slots → w₁.InRange → sharing.inv w₁ →
      Keeps sharing call post (next (w₁.slots.apply c).1) (past ++ es) w₁ [w₁.effect c]
        (w₁.after c)) :
    Keeps sharing call post (Coordinator.storeCall s c next) past w₀ es w := by
  refine Keeps.askStore hp ?_ htake
  intro w₁ x hx
  have hq : Lawful call w₁ [⟨w₁, .store c, x, w₁⟩] w₁ := lawful_of_same (written?_of_failure hx)
  cases x with
  | none => exact ⟨hq, hfail _ _ rfl⟩
  | some r =>
    cases r with
    | ok o => exact absurd rfl (hx o)
    | error f =>
      refine ⟨hq, hfail _ _ ?_⟩
      cases f <;> rfl

/-- The same for a call of a sweep, of which any answer is fine. -/
theorem Keeps.sweepCall {s : SweeperSettings} {c : StoreCall}
    {next : c.Outcome → Operation (Except SessionError α)}
    {post : List (Exchange World) → Except SessionError α → Prop}
    {past es : List (Exchange World)} {w₀ w : World}
    (hpost : ∀ fs a, post fs a) (hp : Lawful call w₀ es w)
    (htake : ∀ w₁ : World, w₁.InRange →
      Keeps sharing call post (next (w₁.slots.apply c).1) (past ++ es) w₁ [w₁.effect c]
        (w₁.after c)) :
    Keeps sharing call post (Sweeper.storeCall s c next) past w₀ es w := by
  refine Keeps.askStore hp ?_ fun w₁ _ hrange _ => htake w₁ hrange
  intro w₁ x hx
  have hq : Lawful call w₁ [⟨w₁, .store c, x, w₁⟩] w₁ := lawful_of_same (written?_of_failure hx)
  cases x with
  | none => exact ⟨hq, hpost _ _⟩
  | some r =>
    cases r with
    | ok o => exact absurd rfl (hx o)
    | error f => exact ⟨hq, hpost _ _⟩

/-- Reading the clock at the start of a call. -/
theorem Keeps.askNow {next : Instant → Operation α} {w : World}
    (h : ∀ now, Keeps sharing call post (next now) [] w [⟨w, .now, now, w⟩] w) :
    Keeps sharing call post (.ask .now next) [] w [] w := by
  intro now w₁ hw
  obtain rfl : w₁ = w := hw
  exact h now

/-- A poll in which a call on the store took effect without writing. -/
theorem lawful_of_read {w : World} {c : StoreCall} (hs : (w.slots.apply c).2.1 = w.slots)
    (hw : c.written? (w.slots.apply c).1 = none) : Lawful call w [w.effect c] (w.after c) :=
  .quiet (writes_of_none hw) hs rfl

section

variable {w : World} {c : StoreCall} {o : c.Outcome} {s : Slots} {n : Option Notice}

/-- What a call on the store leaves, by its outcome. -/
theorem after_slots (h : w.slots.apply c = (o, s, n)) : (w.after c).slots = s := by
  show (w.slots.apply c).2.1 = s
  rw [h]

theorem written?_effect (h : w.slots.apply c = (o, s, n)) :
    (w.effect c).written? = c.written? o := by
  show c.written? (w.slots.apply c).1 = _
  rw [h]

/-- A call on the store whose outcome is no write. -/
theorem silent_of_outcome (h : w.slots.apply c = (o, s, n)) (ho : c.written? o = none) :
    Silent [w.effect c] :=
  ⟨rfl, writes_of_none ((written?_effect h).trans ho)⟩

/-- A poll whose call on the store had an outcome without a write. -/
theorem lawful_of_outcome (h : w.slots.apply c = (o, w.slots, n)) (ho : c.written? o = none) :
    Lawful call w [w.effect c] (w.after c) :=
  .quiet (writes_of_none ((written?_effect h).trans ho)) (after_slots h) rfl

end

/-- Below the limit, the successor of the version of a live record is one more. -/
theorem World.InRange.next_number {w : World} {key : SessionKey} {r : Record} (h : w.InRange)
    (hl : w.slots.live? key = some r) : r.version.next.number = r.version.number + 1 := by
  have hlt := h key
  rw [Slots.versionOf_of_live hl] at hlt
  exact Version.next_number (by omega)

/-! ## Parts of operations -/

/-- Reading the live record of a key that has not expired. -/
theorem Keeps.loadLive {s : CoordinatorSettings} {key : SessionKey} {now : Instant}
    {post : List (Exchange World) → Except SessionError α → Prop}
    {next : Record → Operation (Except SessionError α)}
    {past es : List (Exchange World)} {w₀ w : World} (hp : Lawful call w₀ es w)
    (hfail : ∀ fs e, SessionError.judges e = false → post fs (.error e))
    (hgone : ∀ w₁ : World, OneStep.present w₁.slots key now = none →
      post (past ++ es ++ [w₁.effect (.get key)]) (.error (.notFound key)))
    (hnext : ∀ (w₁ : World) (r : Record), w₁.slots.live? key = some r →
      r.isExpiredAt now = false → r.key = key →
      Keeps sharing call post (next r) (past ++ es) w₁ [w₁.effect (.get key)] w₁) :
    Keeps sharing call post (Coordinator.loadLive s key now next) past w₀ es w := by
  refine Keeps.storeCall hp hfail ?_
  intro w₁ _ _ hi
  have hq : Lawful call w₁ [w₁.effect (.get key)] w₁ := lawful_of_read (c := .get key) rfl rfl
  cases hl : w₁.slots.live? key with
  | none =>
    rw [show (w₁.slots.apply (.get key)).1 = (none : Option Record) from hl]
    exact ⟨hq, hgone w₁ (OneStep.present_of_none hl)⟩
  | some r =>
    rw [show (w₁.slots.apply (.get key)).1 = some r from hl]
    by_cases he : r.isExpiredAt now = true
    · -- an expired record is as good as none
      simp only [he, if_true]
      exact ⟨hq, hgone w₁ (OneStep.present_of_expired hl he)⟩
    · simp only [he, Bool.false_eq_true, if_false]
      have hk : r.key = key := by
        have := hi key
        rw [Slots.live?_eq_some.mp hl] at this
        exact this.key_of_live
      exact hnext w₁ r hl (Bool.eq_false_iff.mpr he) hk

/-- What follows a write: the announcement belongs to the poll of the write, and the rest of the
    operation waits for others. -/
theorem Keeps.commit {key : SessionKey} {value : α} {earlier : List Change} {own : Change}
    {post : List (Exchange World) → Outcome α → Prop}
    {past es : List (Exchange World)} {w₀ w : World} {k : SessionKey} {new : Slot}
    (he : writes es = [k]) (hs : w.slots = w₀.slots.put k new)
    (ha : w.announced = w₀.announced)
    (hn : AnnouncedAs call k (w₀.slots.get? k) new (earlier ++ [own]))
    (hpost : ∀ fs c, Silent fs → c.value = value → c.event.change = own →
      post (past ++ es ++ fs) (.ok c)) :
    Keeps sharing call post (Coordinator.commit key value earlier own) past w₀ es w := by
  intro (pending, event) w₁ ⟨hev, hw₁⟩ ticket w₂ hw₂
  obtain rfl : w₂ = w₁ := hw₂
  have hlaw : Lawful call w₀ (es ++ [⟨w, .announce earlier own, (pending, event), w₂⟩] ++
      [⟨w₂, .beginForget key, ticket, w₂⟩]) w₂ := by
    refine .wrote ?_ hn ?_ ?_
    · rw [writes_append, writes_append, he]
      rfl
    · rw [hw₁]
      exact hs
    · rw [hw₁, ← ha]
      rfl
  -- the poll of the write ends here; what follows waits for others and writes nothing
  refine ⟨hlaw, ?_⟩
  intro w₃ _ _ _ _ w₄ hw₄
  obtain rfl : w₄ = w₃ := hw₄
  refine ⟨lawful_of_same rfl, ?_⟩
  intro w₅ _ _ _ warnings w₆ hw₆
  obtain rfl : w₆ = w₅ := hw₆
  refine ⟨lawful_of_same rfl, ?_⟩
  simp only [List.append_assoc]
  rw [← List.append_assoc]
  exact hpost _ ⟨value, event, warnings⟩ ⟨rfl, rfl⟩ rfl hev

/-- Writing the successor of a record that was read: if it is applied, the record is still there;
    otherwise the store refuses it as the specification does. -/
theorem Keeps.swap {s : CoordinatorSettings} {key : SessionKey} {now : Instant}
    {r next : Record} {post : List (Exchange World) → Outcome Record → Prop}
    {past es : List (Exchange World)} {w₀ w : World} (hp : Lawful call w₀ es w)
    (hmakes : call.Makes key .updated) (hr : w.slots.live? key = some r) (hk : next.key = key)
    (hv : next.version = r.version.next)
    (hfail : ∀ fs e, SessionError.judges e = false → post fs (.error e))
    (hlost : ∀ (w₁ : World) e, OneStep.Refuses key r.version now w₁.slots e →
      (w₁.after (.swap key r.version next)).slots = w₁.slots →
      post (past ++ es ++ [w₁.effect (.swap key r.version next)]) (.error e))
    (hdone : ∀ (w₁ : World) fs c, w₁.slots.live? key = some r → Silent fs →
      c.value = next → c.event.change = Coordinator.changeOf next .updated now →
      (w₁.after (.swap key r.version next)).slots = w₁.slots.put key (.live next) →
      post (past ++ es ++ [w₁.effect (.swap key r.version next)] ++ fs) (.ok c)) :
    Keeps sharing call post (Coordinator.swap s key r.version next now) past w₀ es w := by
  refine Keeps.storeCall hp hfail ?_
  intro w₁ hg hrange _
  cases hl : w₁.slots.live? key with
  | none =>
    -- removed in between: refused as absent
    have happ : w₁.slots.apply (.swap key r.version next) = (.missing, w₁.slots, none) :=
      Slots.apply_swap_missing hl
    have h : OneStep.Refuses key r.version now w₁.slots _ :=
      OneStep.refuses_absent (OneStep.present_of_none hl)
    rw [happ]
    exact ⟨lawful_of_outcome happ rfl, hlost w₁ _ h (after_slots happ)⟩
  | some cur =>
    by_cases hc : cur.version = r.version
    · have happ := Slots.apply_swap_applied (r := next) hl hc
      have hs := after_slots happ
      -- the version has not returned: what is replaced is what was read
      obtain rfl : cur = r := hg.same_record hr hl hc
      rw [happ]
      refine Keeps.commit (writes_of_some (written?_effect happ)) hs rfl ?_ ?_
      · rw [Slots.live?_eq_some.mp hl, List.nil_append, ← hk]
        exact .updated (hk.symm ▸ hmakes) rfl (by rw [hv, hrange.next_number hl])
      · intro fs c hf hval hev
        exact hdone w₁ fs c hl hf hval hev hs
    · -- overtaken: judged again, by the record that was there first
      have happ := Slots.apply_swap_conflict (r := next) hl hc
      rw [happ]
      exact ⟨lawful_of_outcome happ rfl,
        hlost w₁ _ (OneStep.refuses_reject hl hc) (after_slots happ)⟩

end SessionCluster
