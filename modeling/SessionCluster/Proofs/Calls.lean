/-
  Calls keep the discipline — a walk through every session call and through the sweep.

  Each operation is followed question by question, and where it answers, the answer is explained
  by the content at the moment of its last call on the store.

  A creation tries again when it meets a tombstone, or an expired record that somebody else has
  removed by then.  It starts above a version that the key has reached, so an insertion that
  succeeds is exactly one above what it finds: this is the invariant of its rounds
  (`createFrom_keeps`).

  `calls_keep` puts the six together.
-/
import SessionCluster.Proofs.Parts

namespace SessionCluster

variable {α : Type} {call : Call}

/-- What is left of a call keeps the discipline, and will answer what is explained. -/
abbrev Behaves (call : Call) (p : Operation call.Answer) (past : List (Exchange World))
    (w₀ : World) (es : List (Exchange World)) (w : World) : Prop :=
  Keeps sharing call (Explained call) p past w₀ es w

/-! ## Reading, updating, deleting, touching -/

/-- A failure that is no judgement needs no explanation. -/
theorem not_judged {e : SessionError} (he : e.judges = false) :
    ¬ Judged (.error e : Except SessionError α) := by
  intro h
  have := h e rfl
  rw [he] at this
  cases this

/-- A payload that is too large is no judgement of a session. -/
theorem checkPayload_judges {s : CoordinatorSettings} {payload : Json} {e : SessionError}
    (h : Coordinator.checkPayload s payload = .error e) : e.judges = false := by
  unfold Coordinator.checkPayload at h
  simp only at h
  split at h
  · cases h
    rfl
  · cases h

/-- A lifetime that is out of range is no judgement of a session. -/
theorem checkLifetime_judges {s : CoordinatorSettings} {field : String} {d : Span}
    {e : SessionError} (h : Coordinator.checkLifetime s field d = .error e) :
    e.judges = false := by
  unfold Coordinator.checkLifetime at h
  simp only at h
  split at h
  · cases h
    rfl
  · cases h

/-- A refusal at the moment of a call on the store explains the answer. -/
theorem AtOneEffect.ofRefusal {spec : Instant → Slots → Except SessionError (α × Change) × Slots}
    {es : List (Exchange World)} {now : Instant} {w : World} {c : StoreCall} {e : SessionError}
    (hn : Poised now es) (hs : (w.after c).slots = w.slots)
    (h : spec now w.slots = (.error e, w.slots)) :
    AtOneEffect spec (es ++ [w.effect c]) (said (.error e)) := by
  refine .ofEffect hn ?_
  rw [h, hs]
  rfl

/-- Replacing the payload. -/
theorem update_keeps (s : CoordinatorSettings) (key : SessionKey) (expected : Version)
    (payload : Json) (w : World) :
    Behaves (.update s key expected payload)
      (Coordinator.update s key expected payload) [] w [] w := by
  unfold Coordinator.update
  cases hc : Coordinator.checkPayload s payload with
  | error e =>
    refine ⟨.quiet rfl rfl rfl, fun hj => ?_⟩
    exact absurd hj (not_judged (checkPayload_judges hc))
  | ok _ =>
    refine Keeps.askNow fun now => ?_
    refine Keeps.loadLive (lawful_of_same rfl) (fun fs e he hj => absurd hj (not_judged he)) ?_ ?_
    · intro w₁ hgone _
      have h : OneStep.Refuses key expected now _ _ := OneStep.refuses_absent hgone
      exact .ofRefusal (c := .get key) ⟨rfl, rfl⟩ rfl (h Record .updated _)
    · intro w₁ r hl he hk
      have hp := OneStep.present_of_live hl he
      by_cases hv : r.version = expected
      · subst hv
        rw [if_neg (not_not_intro rfl)]
        refine Keeps.swap (lawful_of_read rfl rfl) ⟨rfl, rfl⟩ hl hk rfl
          (fun fs e he hj => absurd hj (not_judged he)) ?_ ?_
        · -- lost: the moment that explains it is that of the write
          intro w₂ e h hs _
          exact .ofRefusal ⟨rfl, rfl⟩ hs (h Record .updated _)
        · intro w₂ fs c hl₂ hf hval hev hs _
          have hp₂ := OneStep.present_of_live hl₂ he
          refine .append (.ofEffect ⟨rfl, rfl⟩ ?_) hf
          rw [OneStep.update, OneStep.atVersion_same hp₂ rfl, hs]
          show _ = (Except.ok (c.value, c.event.change), _)
          rw [hval, hev, Coordinator.changeOf, ← hk]
          rfl
      · -- stale from the beginning: the moment is that of the reading
        rw [if_pos hv]
        refine ⟨lawful_of_read rfl rfl, fun _ => ?_⟩
        have h := OneStep.refuses_other hp hv
        exact .ofRefusal (c := .get key) ⟨rfl, rfl⟩ rfl (h Record .updated _)

/-- Moving the expiry: the version expected is the one that the touch has read. -/
theorem touch_keeps (s : CoordinatorSettings) (key : SessionKey) (extendBy : Span) (w : World) :
    Behaves (.touch s key extendBy)
      (Coordinator.touch s key extendBy) [] w [] w := by
  unfold Coordinator.touch
  cases hc : Coordinator.checkLifetime s "extend_by_ms" extendBy with
  | error e =>
    refine ⟨.quiet rfl rfl rfl, fun hj => ?_⟩
    exact absurd hj (not_judged (checkLifetime_judges hc))
  | ok _ =>
    refine Keeps.askNow fun now => ?_
    refine Keeps.loadLive (lawful_of_same rfl) (fun fs e he hj => absurd hj (not_judged he)) ?_ ?_
    · intro w₁ hgone _
      -- nothing was read, so any version explains the answer
      have h : OneStep.Refuses key .initial now _ _ := OneStep.refuses_absent hgone
      exact ⟨.initial, .inr rfl, .ofRefusal (c := .get key) ⟨rfl, rfl⟩ rfl (h Record .updated _)⟩
    · intro w₁ r hl he hk
      have hread (fs : List (Exchange World)) :
          HasRead key r.version ([⟨w, .now, now, w⟩] ++ [w₁.effect (.get key)] ++ fs) := by
        refine ⟨w₁, r, hl, rfl, ?_⟩
        simp
      refine Keeps.swap (lawful_of_read rfl rfl) ⟨rfl, rfl⟩ hl hk rfl
        (fun fs e he hj => absurd hj (not_judged he)) ?_ ?_
      · intro w₂ e h hs _
        exact ⟨r.version, .inl (hread _), .ofRefusal ⟨rfl, rfl⟩ hs (h Record .updated _)⟩
      · intro w₂ fs c hl₂ hf hval hev hs _
        have hp₂ := OneStep.present_of_live hl₂ he
        refine ⟨r.version, .inl ?_, .append (.ofEffect ⟨rfl, rfl⟩ ?_) hf⟩
        · exact List.append_assoc .. ▸ hread _
        · rw [OneStep.touch, OneStep.atVersion_same hp₂ rfl, hs]
          show _ = (Except.ok (c.value, c.event.change), _)
          rw [hval, hev, Coordinator.changeOf, ← hk]
          rfl

/-- Removing. -/
theorem delete_keeps (s : CoordinatorSettings) (key : SessionKey) (expected : Version)
    (w : World) :
    Behaves (.delete s key expected)
      (Coordinator.delete s key expected) [] w [] w := by
  refine Keeps.askNow fun now => ?_
  refine Keeps.loadLive (lawful_of_same rfl) (fun fs e he hj => absurd hj (not_judged he)) ?_ ?_
  · intro w₁ hgone _
    have h : OneStep.Refuses key expected now _ _ := OneStep.refuses_absent hgone
    exact .ofRefusal (c := .get key) ⟨rfl, rfl⟩ rfl (h Unit .deleted _)
  · intro w₁ r hl he hk
    have hp := OneStep.present_of_live hl he
    by_cases hv : r.version = expected
    · subst hv
      rw [if_neg (not_not_intro rfl)]
      refine Keeps.storeCall (lawful_of_read rfl rfl)
        (fun fs e he hj => absurd hj (not_judged he)) ?_
      intro w₂ hg hrange _
      cases hl₂ : w₂.slots.live? key with
      | none =>
        have happ : w₂.slots.apply (.remove key r.version) = (.missing, w₂.slots, none) :=
          Slots.apply_remove_missing hl₂
        have h : OneStep.Refuses key r.version now _ _ :=
          OneStep.refuses_absent (OneStep.present_of_none hl₂)
        rw [happ]
        exact ⟨lawful_of_outcome happ rfl,
          fun _ => .ofRefusal ⟨rfl, rfl⟩ (after_slots happ) (h Unit .deleted _)⟩
      | some cur =>
        by_cases hc : cur.version = r.version
        · have happ := Slots.apply_remove_applied hl₂ hc
          have hs := after_slots happ
          -- as for a replacement, this is the record that was read
          obtain rfl : cur = r := hg.same_record hl hl₂ hc
          rw [happ]
          refine Keeps.commit (writes_of_some (written?_effect happ)) hs rfl ?_ ?_
          · rw [Slots.live?_eq_some.mp hl₂]
            exact .ended ⟨rfl, rfl⟩ rfl (hrange.next_number hl₂)
          · intro fs c hf _ hev _
            have hp₂ := OneStep.present_of_live hl₂ he
            refine .append (.ofEffect ⟨rfl, rfl⟩ ?_) hf
            rw [OneStep.delete, OneStep.atVersion_same hp₂ rfl, hs]
            show _ = (Except.ok (c.value, c.event.change), _)
            rw [hev]
            rfl
        · have happ := Slots.apply_remove_conflict hl₂ hc
          have h : OneStep.Refuses key r.version now _ _ := OneStep.refuses_reject hl₂ hc
          rw [happ]
          exact ⟨lawful_of_outcome happ rfl,
            fun _ => .ofRefusal ⟨rfl, rfl⟩ (after_slots happ) (h Unit .deleted _)⟩
    · rw [if_pos hv]
      refine ⟨lawful_of_read rfl rfl, fun _ => ?_⟩
      have h := OneStep.refuses_other hp hv
      exact .ofRefusal (c := .get key) ⟨rfl, rfl⟩ rfl (h Unit .deleted _)

/-- Reading. -/
theorem get_keeps (s : CoordinatorSettings) (key : SessionKey) (w : World) :
    Behaves (.get s key) (Coordinator.get s key) [] w [] w := by
  refine Keeps.askNow fun now => ?_
  -- the cache has no copy here, so every read goes on to the store
  refine ⟨lawful_of_same rfl, ?_⟩
  rintro w₁ _ _ _ x w₂ ⟨rfl, hw₂⟩
  obtain rfl : w₂ = w₁ := hw₂
  refine Keeps.loadLive (lawful_of_same rfl) (fun fs e he hj => absurd hj (not_judged he)) ?_ ?_
  · -- nothing lives there: the answer is that of the one step, at the read of the store
    intro w₃ hgone _
    refine .ofEffect (c := .get key) ⟨rfl, rfl⟩ ?_
    rw [OneStep.get, hgone]
    rfl
  · intro w₃ r hl he hk
    have hp := OneStep.present_of_live hl he
    -- a record lives there: the answer is its own, whatever follows in silence
    have hans (fs : List (Exchange World)) (hf : Silent fs) :
        AtOneEffect (OneStep.get key)
          ([⟨w, .now, now, w⟩] ++ [⟨w₂, .cached key, none, w₂⟩] ++ [w₃.effect (.get key)] ++ fs)
          (.ok r) := by
      refine .append (.ofEffect (c := .get key) ⟨rfl, rfl⟩ ?_) hf
      rw [OneStep.get, hp]
      rfl
    simp only
    -- the cache may be off, and then nothing follows; or it is filled, which the store does not see
    split
    · refine ⟨lawful_of_read rfl rfl, fun _ => ?_⟩
      have := hans [] ⟨rfl, rfl⟩
      rwa [List.append_nil] at this
    · refine ⟨lawful_of_read rfl rfl, ?_⟩
      intro w₄ _ _ _ u w₅ hw₅
      obtain rfl : w₅ = w₄ := hw₅
      exact ⟨lawful_of_same rfl, fun _ => hans _ ⟨rfl, rfl⟩⟩

/-! ## Creating -/

/-- The number of a version that a creation starts above; without one, it is zero. -/
def startOf : Option Version → Nat
  | some v => v.number
  | none => 0

theorem version_eq {a b : Version} (h : a.number = b.number) : a = b := by
  cases a
  cases b
  cases h
  rfl

/-- The record of a creation, one above the version that it starts above. -/
theorem fresh_eq (s : CoordinatorSettings) (key : SessionKey) (payload : Json) (ttl : Span)
    (now : Instant) {t : Option Version} (h : startOf t < 18446744073709551615) :
    ∃ v : Version, v.number = startOf t + 1 ∧
      Coordinator.fresh s key payload ttl now t =
        ⟨key, payload, v, s.node, now, now, now.plus ttl⟩ := by
  cases t with
  | none => exact ⟨.initial, rfl, rfl⟩
  | some v => exact ⟨v.next, Version.next_number h, rfl⟩

/-- Over no record, a creation goes up by one version. -/
theorem versionOver_number {old : Option Slot} (hl : old.bind Slot.record? = none)
    (h : Slot.numberOf old < 18446744073709551615) :
    (OneStep.versionOver old).number = Slot.numberOf old + 1 := by
  cases old with
  | none => rfl
  | some slot =>
    cases slot with
    | live r => cases hl
    | tombstone v => exact Version.next_number h

/-- After the write of a creation: it is explained by the content just before. -/
theorem Keeps.created {s : CoordinatorSettings} {key : SessionKey} {payload : Json} {ttl : Span}
    {now : Instant} {r : Record} {earlier : List Change} {past : List (Exchange World)}
    {w : World} {c : StoreCall} (hn : Poised now past)
    (hp : OneStep.present w.slots key now = none)
    (hr : r = ⟨key, payload, OneStep.versionOver (w.slots.get? key), s.node, now, now,
      now.plus ttl⟩)
    (hc : (w.effect c).written? = some key) (hs : (w.after c).slots = w.slots.put key (.live r))
    (ha : AnnouncedAs (.create s key payload ttl) key (w.slots.get? key) (.live r)
      (earlier ++ [Coordinator.changeOf r .created now])) :
    Behaves (.create s key payload ttl)
      (Coordinator.commit key r earlier (Coordinator.changeOf r .created now))
      past w [w.effect c] (w.after c) := by
  refine Keeps.commit (writes_of_some hc) hs rfl ha ?_
  intro fs d hf hval hev _
  refine .append (.ofEffect hn ?_) hf
  have hspec : OneStep.create s.node key payload ttl now w.slots =
      (.ok (r, Coordinator.changeOf r .created now), w.slots.put key (.live r)) := by
    simp only [OneStep.create, hp, ← hr]
    rw [Coordinator.changeOf, hr]
  rw [hspec, hs]
  show _ = (Except.ok (d.value, d.event.change), _)
  rw [hval, hev]

/-- An insertion that succeeded, one above what the key held. -/
theorem Keeps.inserted {s : CoordinatorSettings} {key : SessionKey} {payload : Json} {ttl : Span}
    {now : Instant} {v : Version} {r : Record} {past : List (Exchange World)} {w : World}
    {n : Option Notice} (hn : Poised now past) (hrange : w.InRange)
    (hl : w.slots.live? key = none) (hv : v.number = w.slots.versionOf key + 1)
    (hr : r = ⟨key, payload, v, s.node, now, now, now.plus ttl⟩)
    (happ : w.slots.apply (.insert r) = (.inserted, w.slots.put r.key (.live r), n)) :
    Behaves (.create s key payload ttl)
      (Coordinator.commit key r [] (Coordinator.changeOf r .created now))
      past w [w.effect (.insert r)] (w.after (.insert r)) := by
  have hlt : w.slots.versionOf key < 18446744073709551614 := hrange key
  have hover : v = OneStep.versionOver (w.slots.get? key) := by
    apply version_eq
    rw [hv, versionOver_number hl (Nat.lt_succ_of_lt hlt)]
    rfl
  have hw : (w.effect (.insert r)).written? = some r.key := written?_effect happ
  have hs := after_slots happ
  subst hr
  refine Keeps.created hn (OneStep.present_of_none hl) (by rw [hover]) hw hs ?_
  exact .created ⟨rfl, rfl⟩ hl rfl hv

/-- An error of a creation needs no explanation. -/
theorem explained_error {s : CoordinatorSettings} {key : SessionKey} {payload : Json} {ttl : Span}
    (es : List (Exchange World)) (e : SessionError) :
    Explained (.create s key payload ttl) es (.error e) := by
  rintro ⟨c, hc⟩
  cases hc

/-- Replacing an expired record.  If it is still there, its end is announced with the new record;
    if it is gone, the key has reached the version of its end, and what is tried again knows it. -/
theorem Keeps.replace {s : CoordinatorSettings} {key : SessionKey} {payload : Json} {ttl : Span}
    {now : Instant} {cur r : Record} {again : Operation (Outcome Record)}
    {past es : List (Exchange World)} {w₀ w : World}
    (hp : Lawful (.create s key payload ttl) w₀ es w) (hn : Poised now (past ++ es))
    (hrange : w.InRange)
    (hl : w.slots.live? key = some cur) (he : cur.isExpiredAt now = true)
    (hr : r = ⟨key, payload, cur.version.next.next, s.node, now, now, now.plus ttl⟩)
    (hagain : ∀ w₁ : World,
      Lawful (.create s key payload ttl) w₁ [w₁.effect (.swap key cur.version r)]
        (w₁.after (.swap key cur.version r)) →
      Silent [w₁.effect (.swap key cur.version r)] →
      cur.tombstoneVersion.number ≤ (w₁.after (.swap key cur.version r)).slots.versionOf key →
      Behaves (.create s key payload ttl) again (past ++ es) w₁
        [w₁.effect (.swap key cur.version r)] (w₁.after (.swap key cur.version r))) :
    Behaves (.create s key payload ttl)
      (Coordinator.storeCall s (.swap key cur.version r) fun
        | .applied =>
          Coordinator.commit r.key r [⟨key, cur.tombstoneVersion, .expired, now⟩]
            (Coordinator.changeOf r .created now)
        | .conflict _ => .done (.error (.alreadyExists key))
        | .missing => again)
      past w₀ es w := by
  refine Keeps.storeCall hp (fun fs e _ => explained_error fs e) ?_
  intro w₁ hg hrange₁ _
  have hnext : cur.tombstoneVersion.number = cur.version.number + 1 := hrange.next_number hl
  cases hl₁ : w₁.slots.live? key with
  | none =>
    have happ : w₁.slots.apply (.swap key cur.version r) = (.missing, w₁.slots, none) :=
      Slots.apply_swap_missing hl₁
    rw [happ]
    refine hagain w₁ (lawful_of_outcome happ rfl) (silent_of_outcome happ rfl) ?_
    rw [after_slots happ, hnext]
    exact hg.up_of_gone hl hl₁
  | some other =>
    by_cases hv : other.version = cur.version
    · have happ := Slots.apply_swap_applied (r := r) hl₁ hv
      have hs := after_slots happ
      have hw : (w₁.effect (.swap key cur.version r)).written? = some key := written?_effect happ
      -- the record that was met is still there, so it has still expired
      obtain rfl : other = cur := hg.same_record hl hl₁ hv
      rw [happ]
      have hnext₂ : other.version.next.next.number = other.version.number + 2 := by
        have hlt := hrange₁ key
        rw [Slots.versionOf_of_live hl₁] at hlt
        have hnext₁ : other.version.next.number = other.version.number + 1 := hnext
        rw [Version.next_number (by omega), hnext₁]
      subst hr
      refine Keeps.created hn (OneStep.present_of_expired hl₁ he) ?_ hw hs ?_
      · rw [Slots.live?_eq_some.mp hl₁]
        rfl
      · rw [Slots.live?_eq_some.mp hl₁]
        exact .replaced ⟨rfl, rfl⟩ he rfl hnext hnext₂
    · -- somebody else has created the session
      have happ := Slots.apply_swap_conflict (r := r) hl₁ hv
      rw [happ]
      exact ⟨lawful_of_outcome happ rfl, explained_error _ _⟩

section

variable {s : CoordinatorSettings} {key : SessionKey} {payload : Json} {ttl : Span} {now : Instant}
  {v : Version} {r : Record} {n : Nat} {past : List (Exchange World)} {w : World}

/-- An insertion where the key was never used succeeds.  Nothing is below version zero, so the creation
    has started there. -/
theorem Keeps.insert_unused (hn : Poised now past) (hrange : w.InRange)
    (hs : w.slots.get? key = none) (hstart : n ≤ w.slots.versionOf key) (hv : v.number = n + 1)
    (hr : r = ⟨key, payload, v, s.node, now, now, now.plus ttl⟩) :
    (w.slots.apply (.insert r)).1 = .inserted ∧
      Behaves (.create s key payload ttl)
        (Coordinator.commit key r [] (Coordinator.changeOf r .created now)) past w
        [w.effect (.insert r)] (w.after (.insert r)) := by
  have hk : r.key = key := by rw [hr]
  have happ := Slots.apply_insert_unused (hk.symm ▸ hs)
  have hzero : w.slots.versionOf key = 0 := by
    unfold Slots.versionOf
    rw [hs]
    rfl
  exact ⟨congrArg Prod.fst happ,
    Keeps.inserted hn hrange (Slots.live?_eq_none.mpr (.inl hs)) (by omega) hr happ⟩

/-- An insertion over a tombstone.  Either the tombstone is above the record, and nothing is written;
    or it is below, and then not below where the creation has started. -/
theorem Keeps.insert_tombstone {u : Version} (hn : Poised now past) (hrange : w.InRange)
    (hs : w.slots.get? key = some (.tombstone u)) (hstart : n ≤ w.slots.versionOf key)
    (hv : v.number = n + 1) (hr : r = ⟨key, payload, v, s.node, now, now, now.plus ttl⟩) :
    ((w.slots.apply (.insert r)).1 = .tombstoned u ∧
      Lawful (.create s key payload ttl) w [w.effect (.insert r)] (w.after (.insert r)) ∧
      Silent [w.effect (.insert r)] ∧ u.number ≤ (w.after (.insert r)).slots.versionOf key) ∨
    ((w.slots.apply (.insert r)).1 = .inserted ∧
      Behaves (.create s key payload ttl)
        (Coordinator.commit key r [] (Coordinator.changeOf r .created now)) past w
        [w.effect (.insert r)] (w.after (.insert r))) := by
  have hk : r.key = key := by rw [hr]
  have hrv : r.version = v := by rw [hr]
  have hu : w.slots.versionOf key = u.number := Slots.versionOf_of_get hs
  -- the tombstone's version decides
  by_cases hle : r.version ≤ u
  · have happ := Slots.apply_insert_below (hk.symm ▸ hs) hle
    have hreached : (w.after (.insert r)).slots.versionOf key = u.number := by
      rw [after_slots happ, hu]
    exact .inl ⟨congrArg Prod.fst happ, lawful_of_outcome happ rfl, silent_of_outcome happ rfl,
      Nat.le_of_eq hreached.symm⟩
  · have happ := Slots.apply_insert_above (hk.symm ▸ hs) hle
    rw [hrv] at hle
    have hlt : u.number < v.number := Nat.lt_of_not_le hle
    exact .inr ⟨congrArg Prod.fst happ,
      Keeps.inserted hn hrange (Slots.live?_eq_none.mpr (.inr ⟨u, hs⟩)) (by omega) hr happ⟩

end

/-- The rounds of a creation.  The version that it starts above is one that the key has reached,
    so an insertion that succeeds is exactly one above what it finds. -/
theorem createFrom_keeps (s : CoordinatorSettings) (key : SessionKey) (payload : Json)
    (ttl : Span) (now : Instant) (rounds : Nat) :
    ∀ (t : Option Version) (past es : List (Exchange World)) (w₀ w : World),
      Lawful (.create s key payload ttl) w₀ es w → Poised now (past ++ es) →
      startOf t ≤ w.slots.versionOf key →
      Behaves (.create s key payload ttl)
        (Coordinator.createFrom s key payload ttl now rounds t) past w₀ es w := by
  induction rounds with
  | zero =>
    intro t past es w₀ w hp _ _
    refine ⟨hp, ?_⟩
    rintro ⟨c, hc⟩
    cases hc
  | succ rounds ih =>
    intro t past es w₀ w hp hn ht
    refine Keeps.storeCall hp (fun fs e _ => explained_error fs e) ?_
    intro w₁ hg hrange hi
    have hlt : w₁.slots.versionOf key < 18446744073709551614 := hrange key
    have ht₁ : startOf t ≤ w₁.slots.versionOf key := Nat.le_trans ht (hg.versionOf_le key)
    obtain ⟨v, hv, hr⟩ := fresh_eq s key payload ttl now (show startOf t < _ by omega)
    generalize Coordinator.fresh s key payload ttl now t = r at hr ⊢
    cases hs : w₁.slots.get? key with
    | none =>
      obtain ⟨hinserted, hkeeps⟩ := Keeps.insert_unused hn hrange hs ht₁ hv hr
      rw [hinserted]
      exact hkeeps
    | some slot =>
      cases slot with
      | tombstone u =>
        rcases Keeps.insert_tombstone hn hrange hs ht₁ hv hr with
          ⟨habove, hlawful, hsilent, hreach⟩ | ⟨hinserted, hkeeps⟩
        · -- the next round starts above the tombstone
          rw [habove]
          exact ih (some u) _ _ _ _ hlawful (hn.append hsilent) hreach
        · rw [hinserted]
          exact hkeeps
      | live cur =>
        have hk : r.key = key := by rw [hr]
        have hlive : w₁.slots.live? key = some cur := Slots.live?_eq_some.mpr hs
        have happ := Slots.apply_insert_live (hk.symm ▸ hlive)
        have hq : Lawful (.create s key payload ttl) w₁ [w₁.effect (.insert r)]
            (w₁.after (.insert r)) :=
          lawful_of_outcome happ rfl
        have hn₁ := hn.append (silent_of_outcome happ rfl)
        rw [happ]
        simp only
        by_cases he : cur.isExpiredAt now = true
        · -- a record in the way that has expired is replaced, on the content that was met
          rw [he]
          obtain rfl : cur.key = key := (hs ▸ hi key).key_of_live
          have hsame : w₁.after (.insert r) = w₁ :=
            congrArg (fun slots => { w₁ with slots }) (after_slots happ)
          refine Keeps.replace hq hn₁ (hsame.symm ▸ hrange) (hsame.symm ▸ hlive) he rfl ?_
          intro w₂ hq₂ hsilent hreach
          exact ih (some cur.tombstoneVersion) _ _ _ _ hq₂ (hn₁.append hsilent) hreach
        · rw [Bool.eq_false_iff.mpr he]
          exact ⟨hq, explained_error _ _⟩

/-- Creating. -/
theorem create_keeps (s : CoordinatorSettings) (key : SessionKey) (payload : Json) (ttl : Span)
    (w : World) :
    Behaves (.create s key payload ttl)
      (Coordinator.create s key payload ttl) [] w [] w := by
  unfold Coordinator.create
  cases Coordinator.checkLifetime s "ttl_ms" ttl with
  | error e => exact ⟨.quiet rfl rfl rfl, explained_error _ _⟩
  | ok _ =>
    simp only
    cases Coordinator.checkPayload s payload with
    | error e => exact ⟨.quiet rfl rfl rfl, explained_error _ _⟩
    | ok _ =>
      refine Keeps.askNow fun now => ?_
      exact createFrom_keeps s key payload ttl now _ none [] _ w w (lawful_of_same rfl) ⟨rfl, rfl⟩
        (Nat.zero_le _)

/-! ## Sweeping -/

section

variable {s : SweeperSettings} {post : List (Exchange World) → Except SessionError α → Prop}
  {past es : List (Exchange World)} {w₀ w : World}

/-- Removing a batch: every removal that is applied is announced in the same poll. -/
theorem evict_keeps {now : Instant}
    {next : Nat → Sweeper.Progress → Operation (Except SessionError α)}
    (hmakes : ∀ key, call.Makes key .expired) (hpost : ∀ fs a, post fs a)
    (hnext : ∀ removed p past es w₀ w, Lawful call w₀ es w →
      Keeps sharing call post (next removed p) past w₀ es w) (batch : List Record) :
    ∀ removed p past es w₀ w, Lawful call w₀ es w →
      Keeps sharing call post (Sweeper.evict s now next batch removed p) past w₀ es w := by
  induction batch with
  | nil => exact hnext
  | cons r batch ih =>
    intro removed p past es w₀ w hp
    refine Keeps.sweepCall hpost hp ?_
    intro w₁ hrange
    cases hl : w₁.slots.live? r.key with
    | none =>
      have happ : w₁.slots.apply (.remove r.key r.version) = (.missing, w₁.slots, none) :=
        Slots.apply_remove_missing hl
      rw [happ]
      exact ih _ _ _ _ _ _ (lawful_of_outcome happ rfl)
    | some cur =>
      by_cases hv : cur.version = r.version
      · have happ := Slots.apply_remove_applied hl hv
        have hnum : r.tombstoneVersion.number = cur.version.number + 1 := by
          rw [Record.tombstoneVersion, ← hv]
          exact hrange.next_number hl
        -- what is removed may not be the record of the batch, but it has its version
        have htomb : cur.tombstoneVersion = r.tombstoneVersion := by
          rw [Record.tombstoneVersion, hv]
          rfl
        rw [happ]
        -- the announcement takes no time, and belongs to the poll of the removal
        rintro ⟨pending, event⟩ w₂ ⟨_, rfl⟩
        have hn : AnnouncedAs call r.key (w₁.slots.get? r.key) (.tombstone r.tombstoneVersion)
            [⟨r.key, r.tombstoneVersion, .expired, now⟩] := by
          rw [Slots.live?_eq_some.mp hl]
          exact .ended (hmakes _) rfl hnum
        refine ⟨.wrote ?_ hn ?_ rfl, ?_⟩
        · rw [writes_append, writes_of_some (written?_effect happ)]
          rfl
        · rw [← htomb]
          exact after_slots happ
        · intro w₃ _ _ _ _ w₄ hw₄
          obtain rfl : w₄ = w₃ := hw₄
          exact ih _ _ _ _ _ _ (lawful_of_same rfl)
      · have happ := Slots.apply_remove_conflict hl hv
        rw [happ]
        exact ih _ _ _ _ _ _ (lawful_of_outcome happ rfl)

end

/-- Batch after batch. -/
theorem batches_keeps (s : SweeperSettings) (now : Instant) (n : Nat) :
    ∀ p past es w₀ w, Lawful (.sweep s) w₀ es w →
      Behaves (.sweep s) (Sweeper.batches s now n p) past w₀ es w := by
  have hreport : ∀ p past es w₀ w, Lawful (.sweep s) w₀ es w →
      Behaves (.sweep s) (Sweeper.report p) past w₀ es w := by
    intro p past es w₀ w hp
    refine ⟨hp, ?_⟩
    intro w₁ _ _ _ ws w₂ hw₂
    obtain rfl : w₂ = w₁ := hw₂
    exact ⟨lawful_of_same rfl, trivial⟩
  induction n with
  | zero => exact hreport
  | succ n ih =>
    intro p past es w₀ w hp
    refine Keeps.sweepCall (fun _ _ => trivial) hp ?_
    intro w₁ _
    have hmakes : ∀ key, (Call.sweep s).Makes key .expired := fun _ => rfl
    refine evict_keeps hmakes (fun _ _ => trivial) ?_ _ _ _ _ _ _ _ (lawful_of_read rfl rfl)
    intro removed p past es w₀ w hp
    split
    · exact hreport _ _ _ _ _ hp
    · exact ih _ _ _ _ _ hp

theorem sweep_keeps (s : SweeperSettings) (w : World) :
    Behaves (.sweep s) (Sweeper.sweep s) [] w [] w :=
  Keeps.askNow fun now => batches_keeps s now _ _ _ _ _ _ (lawful_of_same rfl)

/-- **Every call keeps the discipline**, and what it answers is explained by one step. -/
theorem calls_keep (call : Call) (w : World) :
    Behaves call call.operation [] w [] w := by
  cases call with
  | create s key payload ttl => exact create_keeps s key payload ttl w
  | get s key => exact get_keeps s key w
  | update s key expected payload => exact update_keeps s key expected payload w
  | delete s key expected => exact delete_keeps s key expected w
  | touch s key extendBy => exact touch_keeps s key extendBy w
  | sweep s => exact sweep_keeps s w

/-! ## Runs from an empty store -/

section

variable {c c' : Cluster World} (h : Runs (.idle {}) c)
include h

/-- In every run, each key has its chronicle, and each call is where its operation keeps it. -/
theorem Runs.invariant :
    (∀ key, Chronicle key (c.world.story key) (c.world.slots.get? key)) ∧
      AllRest sharing Explained c :=
  Discipline.invariant calls_keep sharing_inv_empty h

/-- In every run, each step is a lawful poll. -/
theorem Runs.lawful {es : List (Exchange World)} (hw : c.world.InRange)
    (hs : Step World.Answers c call es c') : Lawful call c.world es c'.world :=
  Discipline.poll_of_step calls_keep sharing_inv_empty h hw hs

/-- In every run, the content grows. -/
theorem Runs.grows (h' : Runs c c') : c.world.slots.Grows c'.world.slots :=
  Discipline.later_of_leads calls_keep sharing_inv_empty h h'

end

end SessionCluster
