/-
  SweepsUnseen — sweeping is invisible to callers.

  Two runs make the same calls, one after the other, and one of them sweeps more often.  It is AHEAD:
  where the other still holds a record that has expired, it may hold the tombstone, and has
  announced the end already (`Solo.AheadAt`).  Everything else is the same.

  A session call says the same in both runs.  An expired record is as good as absent, and the
  version of what is created over it is two above it: one for the end of the old record and one
  for the new one, which is one above the tombstone.  A creation also announces that end, and so
  both runs have announced the same again (`AheadAt.alike`).

  A sweep in both runs, with its limits, removes the first of what has expired in each.  What has
  expired in the run that is ahead is part of what has expired in the other, in the same order;
  so whatever the other removes of it, the one ahead removes as well (`Ahead.ended`).

  * `sweeps_unseen` — callers hear the same, and the same is announced but for ends that are still to
    come;
  * `sweep_spares_warning` — what they may learn all the same: whether there was room for the events.
-/
import Mathlib.Data.List.Infix
import SessionCluster.Proofs.Schedules
import SessionCluster.Proofs.Scripts
import SessionCluster.Proofs.Sequences

namespace SessionCluster

/-! ## What was announced of a key -/

/-- The kinds and versions of the changes of a key. -/
def pointsOf (key : SessionKey) (cs : List Change) : List (ChangeKind × Version) :=
  (cs.filter (·.key = key)).map fun c => (c.kind, c.version)

theorem pointsOf_append (key : SessionKey) (cs cs' : List Change) :
    pointsOf key (cs ++ cs') = pointsOf key cs ++ pointsOf key cs' := by
  unfold pointsOf
  rw [List.filter_append, List.map_append]

theorem pointsOf_other {key : SessionKey} {cs : List Change} (h : ∀ c ∈ cs, c.key ≠ key) :
    pointsOf key cs = [] := by
  unfold pointsOf
  rw [List.filter_eq_nil_iff.mpr fun c hc => by simpa using h c hc, List.map_nil]

theorem pointsOf_own {key : SessionKey} {cs : List Change} (h : ∀ c ∈ cs, c.key = key) :
    pointsOf key cs = cs.map fun c => (c.kind, c.version) := by
  unfold pointsOf
  rw [List.filter_eq_self.mpr fun c hc => by simpa using h c hc]

/-! ## Two runs -/

namespace Solo

/-- The kinds and versions of what was announced of a key. -/
def told (w : Solo) (key : SessionKey) : List (ChangeKind × Version) := pointsOf key w.announced

/-- A run is ahead of another at a key: the key holds the same, and the same was announced of it, or
    the end of a record that the other one still holds has come in between. -/
def AheadAt (now : Instant) (w v : Solo) (key : SessionKey) : Prop :=
  w.slots.get? key = v.slots.get? key ∧ w.told key = v.told key ∨
    ∃ r : Record, r.isExpiredAt now = true ∧ v.slots.live? key = some r ∧
      w.slots.get? key = some (.tombstone r.tombstoneVersion) ∧
      w.told key = v.told key ++ [(.expired, r.tombstoneVersion)]

/-- A run is ahead of another: it knows the same keys, and is ahead at each. -/
structure Ahead (now : Instant) (w v : Solo) : Prop where
  keys : w.slots.entries.map Prod.fst = v.slots.entries.map Prod.fst
  ahead : ∀ key, w.AheadAt now v key

variable {now : Instant} {w w' v v' : Solo} {key : SessionKey}

theorem AheadAt.refl (now : Instant) (w : Solo) (key : SessionKey) : w.AheadAt now w key :=
  .inl ⟨rfl, rfl⟩

theorem Ahead.refl (now : Instant) (w : Solo) : w.Ahead now w := ⟨rfl, .refl now w⟩

theorem AheadAt.later {later : Instant} (h : w.AheadAt now v key) (hle : now ≤ later) :
    w.AheadAt later v key := by
  rcases h with hsame | ⟨r, he, hr⟩
  · exact .inl hsame
  · exact .inr ⟨r, Record.expired_mono he hle, hr⟩

theorem Ahead.later {later : Instant} (h : w.Ahead now v) (hle : now ≤ later) : w.Ahead later v :=
  ⟨h.keys, fun key => (h.ahead key).later hle⟩

/-- Where neither run has gone on, the one is as far ahead as it was. -/
theorem AheadAt.congr (h : w.AheadAt now v key)
    (hw : w'.slots.get? key = w.slots.get? key ∧ w'.told key = w.told key)
    (hv : v'.slots.get? key = v.slots.get? key ∧ v'.told key = v.told key) :
    w'.AheadAt now v' key := by
  unfold AheadAt
  rw [hw.1, hw.2, Slots.live?_congr hv.1, hv.1, hv.2]
  exact h

/-- Of what is live in the run that is ahead, both runs know the same. -/
theorem AheadAt.same_of_live (h : w.AheadAt now v key) {r : Record}
    (hl : w.slots.live? key = some r) :
    w.slots.get? key = v.slots.get? key ∧ w.told key = v.told key := by
  rcases h with hsame | ⟨_, _, _, hgone, _⟩
  · exact hsame
  · rw [Slots.live?_eq_some, hgone] at hl
    cases hl

/-- What is live in the run that is ahead is live in the other. -/
theorem AheadAt.live (h : w.AheadAt now v key) {r : Record} (hl : w.slots.live? key = some r) :
    v.slots.live? key = some r := by
  rw [← Slots.live?_congr (h.same_of_live hl).1]
  exact hl

/-- The same is present in both runs, and if something is, the same was announced. -/
theorem AheadAt.present (h : w.AheadAt now v key) :
    OneStep.present w.slots key now = OneStep.present v.slots key now ∧
      ∀ r, OneStep.present v.slots key now = some r → w.told key = v.told key := by
  rcases h with ⟨hslot, htold⟩ | ⟨r, he, hl, hslot, _⟩
  · refine ⟨?_, fun _ _ => htold⟩
    unfold OneStep.present
    rw [Slots.live?_congr hslot]
  · have hgone := OneStep.present_of_expired hl he
    have hnone : w.slots.live? key = none := Slots.live?_eq_none.mpr (.inr ⟨_, hslot⟩)
    rw [OneStep.present_of_none hnone, hgone]
    refine ⟨rfl, ?_⟩
    rintro r ⟨⟩

/-- The version of what is created where nothing is present: it makes up for the end that one of the
    runs has not come to. -/
theorem AheadAt.versionOver (h : w.AheadAt now v key) :
    OneStep.versionOver (w.slots.get? key) = OneStep.versionOver (v.slots.get? key) := by
  rcases h with ⟨hslot, _⟩ | ⟨r, _, hl, hslot, _⟩
  · rw [hslot]
  · rw [hslot, Slots.live?_eq_some.mp hl]
    rfl

/-! ## Session calls -/

/-- Verdicts in two runs that are alike: they say the same, and either nothing changes, or the same
    is written under a key, and what was announced of the key is the same then. -/
inductive Alike {β : Type} (w v : Solo) : Verdict β → Verdict β → Prop where
  | unchanged (said : β) : Alike w v ⟨said, w.slots, []⟩ ⟨said, v.slots, []⟩
  | changed (said : β) {key : SessionKey} (slot : Slot) {told told' : List Change}
      (hkey : ∀ c ∈ told, c.key = key) (hkey' : ∀ c ∈ told', c.key = key)
      (hsame : w.told key ++ pointsOf key told = v.told key ++ pointsOf key told') :
      Alike w v ⟨said, w.slots.put key slot, told⟩ ⟨said, v.slots.put key slot, told'⟩

theorem Alike.said {β : Type} {x y : Verdict β} (h : Alike w v x y) : x.said = y.said := by
  cases h with
  | unchanged said => rfl
  | changed said slot hkey hkey' hsame => rfl

theorem told_of_announced {cs : List Change} (h : w'.announced = w.announced ++ cs)
    (key : SessionKey) : w'.told key = w.told key ++ pointsOf key cs := by
  unfold told
  rw [h, pointsOf_append]

/-- After verdicts that are alike, a run is still ahead at a key. -/
theorem Alike.aheadAt {β : Type} {x y : Verdict β} {a b : β} (hxy : Alike w v x y)
    (h : w.AheadAt now v key) (hw : w.Settled x a w') (hv : v.Settled y b v') :
    w'.AheadAt now v' key := by
  have htold := told_of_announced hw.told key
  have htold' := told_of_announced hv.told key
  cases hxy with
  | unchanged said =>
    refine h.congr ?_ ?_
    · exact ⟨by rw [hw.slots], htold.trans (List.append_nil _)⟩
    · exact ⟨by rw [hv.slots], htold'.trans (List.append_nil _)⟩
  | @changed _ own slot told told' hkey hkey' hsame =>
    have hslot : w'.slots.get? key = if key = own then some slot else w.slots.get? key := by
      rw [hw.slots, Slots.get?_put]
    have hslot' : v'.slots.get? key = if key = own then some slot else v.slots.get? key := by
      rw [hv.slots, Slots.get?_put]
    by_cases hk : key = own
    · subst hk
      rw [if_pos rfl] at hslot hslot'
      exact .inl ⟨by rw [hslot, hslot'], by rw [htold, htold', hsame]⟩
    · -- nothing has become of the other keys
      have hother {cs : List Change} (hcs : ∀ c ∈ cs, c.key = own) : pointsOf key cs = [] := by
        refine pointsOf_other fun c hc => ?_
        rw [hcs c hc]
        exact fun h => hk h.symm
      rw [if_neg hk] at hslot hslot'
      refine h.congr ⟨hslot, ?_⟩ ⟨hslot', ?_⟩
      · rw [htold, hother hkey, List.append_nil]
      · rw [htold', hother hkey', List.append_nil]

/-- After verdicts that are alike, the run is still ahead. -/
theorem Alike.ahead {β : Type} {x y : Verdict β} {a b : β} (hxy : Alike w v x y)
    (h : w.Ahead now v) (hw : w.Settled x a w') (hv : v.Settled y b v') : w'.Ahead now v' := by
  refine ⟨?_, fun key => hxy.aheadAt (h.ahead key) hw hv⟩
  rw [hw.slots, hv.slots]
  cases hxy with
  | unchanged said => exact h.keys
  | @changed _ own slot =>
    show (Slots.putEntry own slot _).map Prod.fst = (Slots.putEntry own slot _).map Prod.fst
    rw [Slots.keys_putEntry, Slots.keys_putEntry, h.keys]

section

variable {α : Type} (h : w.AheadAt now v key)

include h

/-- A guarded step is alike in a run that is ahead: what one finds expired, the other may have
    swept. -/
theorem AheadAt.atVersion (expected : Version) (kind : ChangeKind) (f : Record → α × Slot) :
    Alike w v (.ofStep (OneStep.atVersion key expected kind f now w.slots))
      (.ofStep (OneStep.atVersion key expected kind f now v.slots)) := by
  obtain ⟨hp, htold⟩ := h.present
  unfold OneStep.atVersion
  rw [hp]
  cases hr : OneStep.present v.slots key now with
  | none => exact .unchanged _
  | some r =>
    simp only
    by_cases hv : r.version = expected
    · rw [if_pos hv, if_pos hv]
      have hown : ∀ c ∈ [(⟨key, expected.next, kind, now⟩ : Change)], c.key = key := by
        rintro c hc
        rw [List.mem_singleton.mp hc]
      exact .changed _ _ hown hown (by rw [htold r hr])
    · rw [if_neg hv, if_neg hv]
      exact .unchanged _

omit h in
theorem Alike.checked {x y : Verdict (Except SessionError α)} (hxy : Alike w v x y)
    (check : Except SessionError Unit) :
    Alike w v (.checked check w.slots x) (.checked check v.slots y) := by
  cases check with
  | ok u => exact hxy
  | error e => exact .unchanged _

/-- A creation is alike in both runs: it announces the end of a record that is in its way. -/
theorem AheadAt.create (hw : w.Sound) (hv : v.Sound) (node : NodeName) (payload : Json)
    (ttl : Span) :
    Alike w v (.created w.slots key now (OneStep.create node key payload ttl now w.slots))
      (.created v.slots key now (OneStep.create node key payload ttl now v.slots)) := by
  obtain ⟨hp, _⟩ := h.present
  unfold OneStep.create
  rw [hp, h.versionOver]
  cases hr : OneStep.present v.slots key now with
  | some r => exact .unchanged _
  | none =>
    have hone (c : Change) (hc : c.key = key) : ∀ x ∈ [c], x.key = key := by
      intro x hx
      rw [List.mem_singleton.mp hx, hc]
    have htwo (c : Change) (hc : c.key = key) {u : Solo} (hu : u.Sound) {r : Record}
        (hl : u.slots.live? key = some r) : ∀ x ∈ [r.expiry now, c], x.key = key := by
      intro x hx
      rcases List.mem_cons.mp hx with rfl | hx
      · exact hu.keyed key r hl
      · exact hone c hc x hx
    unfold Verdict.created
    rcases h with ⟨hslot, htold⟩ | ⟨r, _, hl, hslot, htold⟩
    · have hlive := Slots.live?_congr hslot
      cases hl : v.slots.live? key with
      | none =>
        rw [hlive, hl]
        exact .changed _ _ (hone _ rfl) (hone _ rfl) (by rw [htold])
      | some r =>
        rw [hl] at hlive
        rw [hlive]
        exact .changed _ _ (htwo _ rfl hw hlive) (htwo _ rfl hv hl) (by rw [htold])
    · -- the run that is ahead has announced the end before
      have hnone : w.slots.live? key = none := Slots.live?_eq_none.mpr (.inr ⟨_, hslot⟩)
      rw [hnone, hl]
      refine .changed _ _ (hone _ rfl) (htwo _ rfl hv hl) ?_
      rw [htold, pointsOf_own (hone _ rfl), pointsOf_own (htwo _ rfl hv hl), List.append_assoc]
      rfl

/-- **A session call is alike** in a run that is ahead of another at its key. -/
theorem AheadAt.alike (hw : w.Sound) (hv : v.Sound) {c : Call} (hc : c.key? = some key) :
    Alike w v (c.verdict now w.slots) (c.verdict now v.slots) := by
  cases c with
  | create s own payload ttl =>
    cases hc
    exact ((h.create hw hv s.node payload ttl).checked _).checked _
  | get s own =>
    cases hc
    -- a read changes neither run, so it is enough that both say the same
    show Alike w v ⟨(OneStep.get key now w.slots).1, w.slots, []⟩ _
    have hsaid : (OneStep.get key now w.slots).1 = (OneStep.get key now v.slots).1 := by
      unfold OneStep.get
      rw [h.present.1]
      cases OneStep.present v.slots key now <;> rfl
    rw [hsaid]
    exact .unchanged _
  | update s own expected payload =>
    cases hc
    exact (h.atVersion expected .updated _).checked _
  | delete s own expected =>
    cases hc
    exact h.atVersion expected .deleted _
  | touch s own extendBy =>
    cases hc
    refine Alike.checked ?_ _
    rw [h.present.1]
    -- the touch goes on to a guarded write of the version that it read, the same in both runs
    cases OneStep.present v.slots key now with
    | none => exact .unchanged _
    | some r => exact h.atVersion r.version .updated _
  -- a sweep names no key
  | sweep s => cases hc

end

end Solo

/-! ## The end of records -/

namespace Slots

variable {s : Slots} {key : SessionKey} {rs : List Record}

theorem get?_ends_other (h : key ∉ rs.map Record.key) : (rs.foldl end_ s).get? key = s.get? key := by
  induction rs generalizing s with
  | nil => rfl
  | cons r rs ih =>
    rw [List.map_cons, List.mem_cons, not_or] at h
    rw [List.foldl_cons, ih h.2, end_, get?_put, if_neg h.1]

/-- An ended record's slot holds its tombstone. -/
theorem get?_ends (hd : (rs.map Record.key).Nodup) {r : Record} (hr : r ∈ rs) :
    (rs.foldl end_ s).get? r.key = some (.tombstone r.tombstoneVersion) := by
  induction rs generalizing s with
  | nil => cases hr
  | cons r' rs ih =>
    obtain ⟨hfirst, hrest⟩ := List.nodup_cons.mp hd
    rcases List.mem_cons.mp hr with rfl | hr
    · rw [List.foldl_cons, get?_ends_other hfirst, end_, get?_put, if_pos rfl]
    · rw [List.foldl_cons, ih hrest hr]

/-- The end of records adds no keys. -/
theorem keys_ends (h : ∀ r ∈ rs, r.key ∈ s.entries.map Prod.fst) :
    (rs.foldl end_ s).entries.map Prod.fst = s.entries.map Prod.fst := by
  induction rs generalizing s with
  | nil => rfl
  | cons r rs ih =>
    have hkeys : (s.end_ r).entries.map Prod.fst = s.entries.map Prod.fst := by
      show (putEntry r.key _ s.entries).map Prod.fst = _
      rw [keys_putEntry, if_pos (h r (List.mem_cons_self ..))]
    rw [List.foldl_cons, ih, hkeys]
    intro r' hr'
    rw [hkeys]
    exact h r' (List.mem_cons_of_mem _ hr')

theorem key_mem_of_live {r : Record} (h : s.live? key = some r) : key ∈ s.entries.map Prod.fst := by
  exact List.mem_map_of_mem (mem_of_get? (live?_eq_some.mp h))

end Slots

/-- Of the ends of some records, each key is told of its own. -/
theorem pointsOf_expiries {rs : List Record} (now : Instant) (hd : (rs.map Record.key).Nodup)
    {r : Record} (hr : r ∈ rs) :
    pointsOf r.key (rs.map (·.expiry now)) = [(.expired, r.tombstoneVersion)] := by
  obtain ⟨l₁, l₂, rfl⟩ := List.append_of_mem hr
  -- no other record is of this key
  rw [List.map_append, List.map_cons, List.nodup_append] at hd
  obtain ⟨_, hd₂, hd₁⟩ := hd
  have hbefore : pointsOf r.key (l₁.map (·.expiry now)) = [] := by
    refine pointsOf_other fun c hc => ?_
    obtain ⟨r', hr', rfl⟩ := List.mem_map.mp hc
    exact hd₁ r'.key (List.mem_map_of_mem hr') r.key (List.mem_cons_self ..)
  have hafter : pointsOf r.key (l₂.map (·.expiry now)) = [] := by
    refine pointsOf_other fun c hc => ?_
    obtain ⟨r', hr', rfl⟩ := List.mem_map.mp hc
    intro hsame
    refine (List.nodup_cons.mp hd₂).1 ?_
    rw [← hsame]
    exact List.mem_map_of_mem hr'
  rw [List.map_append, List.map_cons, ← List.singleton_append, pointsOf_append, pointsOf_append,
    hbefore, hafter, pointsOf_own (by simp [Record.expiry])]
  rfl

namespace Solo

variable {now : Instant} {w w' v v' : Solo} {key : SessionKey} {rs qs : List Record}

/-- Records that have expired and may be removed: live ones, of a key each. -/
structure Due (now : Instant) (w : Solo) (rs : List Record) : Prop where
  distinct : (rs.map Record.key).Nodup
  live : ∀ r ∈ rs, w.slots.live? r.key = some r
  expired : ∀ r ∈ rs, r.isExpiredAt now = true

/-- What is left after the end of records, and what was announced then. -/
structure Ended (now : Instant) (w : Solo) (rs : List Record) (w' : Solo) : Prop where
  slots : w'.slots = rs.foldl Slots.end_ w.slots
  told : w'.announced = w.announced ++ rs.map (·.expiry now)

theorem Ended.own (h : Ended now w rs w') (hd : (rs.map Record.key).Nodup) {r : Record}
    (hr : r ∈ rs) :
    w'.slots.get? r.key = some (.tombstone r.tombstoneVersion) ∧
      w'.told r.key = w.told r.key ++ [(.expired, r.tombstoneVersion)] := by
  rw [h.slots, told_of_announced h.told, pointsOf_expiries now hd hr]
  exact ⟨Slots.get?_ends hd hr, rfl⟩

/-- Ending others leaves a key alone. -/
theorem Ended.other (h : Ended now w rs w') (hkey : key ∉ rs.map Record.key) :
    w'.slots.get? key = w.slots.get? key ∧ w'.told key = w.told key := by
  have hothers : pointsOf key (rs.map (·.expiry now)) = [] := by
    refine pointsOf_other fun c hc => ?_
    obtain ⟨r, hr, rfl⟩ := List.mem_map.mp hc
    rintro rfl
    exact hkey (List.mem_map_of_mem hr)
  rw [h.slots, told_of_announced h.told, hothers, List.append_nil]
  exact ⟨Slots.get?_ends_other hkey, rfl⟩

theorem Ended.keys (h : Ended now w rs w') (hd : Due now w rs) :
    w'.slots.entries.map Prod.fst = w.slots.entries.map Prod.fst := by
  rw [h.slots]
  exact Slots.keys_ends fun r hr => Slots.key_mem_of_live (hd.live r hr)

/-- **After the end of records in both runs**, the one that was ahead at a key still is; or the other one
    is now, since it has removed a record of the key that the first one still has. -/
theorem AheadAt.ended (h : w.AheadAt now v key) (hw : Ended now w rs w') (hv : Ended now v qs v')
    (hrs : Due now w rs) (hqs : Due now v qs) :
    w'.AheadAt now v' key ∨ v'.AheadAt now w' key ∧
      ∃ r ∈ qs, r.key = key ∧ w.slots.live? key = some r ∧ r ∉ rs := by
  by_cases hkey : key ∈ rs.map Record.key
  · -- the run ahead has removed it now
    obtain ⟨r, hr, rfl⟩ := List.mem_map.mp hkey
    obtain ⟨hslot, htold⟩ := hw.own hrs.distinct hr
    have hlive := h.live (hrs.live r hr)
    have hsame := (h.same_of_live (hrs.live r hr)).2
    by_cases hr' : r.key ∈ qs.map Record.key
    · obtain ⟨q, hq, hqr⟩ := List.mem_map.mp hr'
      have heq : q = r := by
        have hq' := hqs.live q hq
        rw [hqr, hlive] at hq'
        exact (Option.some.inj hq').symm
      subst heq
      obtain ⟨hslot', htold'⟩ := hv.own hqs.distinct hq
      exact .inl (.inl ⟨by rw [hslot, hslot'], by rw [htold, htold', hsame]⟩)
    · obtain ⟨hslot', htold'⟩ := hv.other hr'
      refine .inl (.inr ⟨r, hrs.expired r hr, ?_, hslot, by rw [htold, htold', hsame]⟩)
      rw [Slots.live?_congr hslot']
      exact hlive
  · obtain ⟨hslot, htold⟩ := hw.other hkey
    by_cases hkey' : key ∈ qs.map Record.key
    · obtain ⟨q, hq, rfl⟩ := List.mem_map.mp hkey'
      obtain ⟨hslot', htold'⟩ := hv.own hqs.distinct hq
      rcases h with ⟨hsame, hsame'⟩ | ⟨r, _, hl, hgone, hthen⟩
      · -- the other one goes ahead
        have hl : w.slots.live? q.key = some q := by
          rw [Slots.live?_congr hsame]
          exact hqs.live q hq
        refine .inr ⟨.inr ⟨q, hqs.expired q hq, ?_, hslot', by rw [htold', htold, hsame']⟩,
          q, hq, rfl, hl, fun hq' => hkey (List.mem_map_of_mem hq')⟩
        rw [Slots.live?_congr hslot]
        exact hl
      · -- the other one catches up
        rw [hqs.live q hq] at hl
        cases hl
        exact .inl (.inl ⟨by rw [hslot, hslot', hgone], by rw [htold, htold', hthen]⟩)
    · exact .inl (h.congr (hw.other hkey) (hv.other hkey'))

/-- The run that was ahead still is, if it has removed whatever of it the other has. -/
theorem Ahead.ended (h : w.Ahead now v) (hw : Ended now w rs w') (hv : Ended now v qs v')
    (hrs : Due now w rs) (hqs : Due now v qs)
    (hmore : ∀ r ∈ qs, w.slots.live? r.key = some r → r ∈ rs) : w'.Ahead now v' := by
  refine ⟨(hw.keys hrs).trans (h.keys.trans (hv.keys hqs).symm), fun key => ?_⟩
  rcases (h.ahead key).ended hw hv hrs hqs with hahead | ⟨_, r, hr, rfl, hl, hnot⟩
  · exact hahead
  · exact absurd (hmore r hr hl) hnot

end Solo

/-! ## What a sweep removes -/

/-- What is among the first of a list is among the first of what is left when others are taken away. -/
theorem mem_take_of_sublist {α : Type} {l l' : List α} (h : l.Sublist l') (hd : l'.Nodup) {x : α}
    (hx : x ∈ l) : ∀ {n : Nat}, x ∈ l'.take n → x ∈ l.take n := by
  induction h with
  | slnil => cases hx
  | @cons l l' a h ih =>
    obtain ⟨hfirst, hrest⟩ := List.nodup_cons.mp hd
    intro n hn
    cases n with
    | zero => cases hn
    -- the first of the longer list is taken away: what stays moves up by one place
    | succ n =>
      rw [List.take_succ_cons] at hn
      rcases List.mem_cons.mp hn with rfl | hn
      · exact absurd (h.mem hx) hfirst
      · exact (List.take_sublist_take_left (Nat.le_succ n)).mem (ih hrest hx hn)
  | @cons_cons l l' a h ih =>
    intro n hn
    cases n with
    | zero => cases hn
    | succ n =>
      -- the first of the longer list stays: the rest is looked for one place further on
      rw [List.take_succ_cons] at *
      rcases List.mem_cons.mp hn with rfl | hn
      · exact List.mem_cons_self ..
      · rcases List.mem_cons.mp hx with rfl | hx
        · exact List.mem_cons_self ..
        · exact List.mem_cons_of_mem _ (ih (List.nodup_cons.mp hd).2 hx hn)

/-- The live records, key by key. -/
theorem Slots.liveRecords_eq {s : Slots} (hd : (s.entries.map Prod.fst).Nodup) :
    s.liveRecords = (s.entries.map Prod.fst).filterMap s.live? := by
  unfold liveRecords
  rw [List.filterMap_map]
  refine List.filterMap_congr ?_
  rintro ⟨key, slot⟩ he
  show slot.record? = s.live? key
  unfold live?
  rw [get?_of_mem hd he]
  rfl

/-- A map that gives less leaves a part of what it gave. -/
theorem filterMap_sublist {α β : Type} {f g : α → Option β} (h : ∀ a b, f a = some b → g a = some b)
    (l : List α) : (l.filterMap f).Sublist (l.filterMap g) := by
  induction l with
  | nil => exact .slnil
  | cons a l ih =>
    rw [List.filterMap_cons, List.filterMap_cons]
    cases hf : f a with
    | none =>
      cases g a with
      | none => exact ih
      | some b => exact ih.cons b
    | some b =>
      rw [h a b hf]
      exact ih.cons_cons b

namespace Solo

variable {now : Instant} {w w' v v' : Solo}

/-- What has expired in the run that is ahead is part of what has expired in the other. -/
theorem Ahead.allExpired (h : w.Ahead now v) (hw : w.Sound) (hv : v.Sound) :
    (w.slots.allExpired now).Sublist (v.slots.allExpired now) := by
  refine Slots.sortedSublist (List.Sublist.filter _ ?_)
  rw [Slots.liveRecords_eq hw.distinct, Slots.liveRecords_eq hv.distinct, h.keys]
  exact filterMap_sublist (fun key r hl => (h.ahead key).live hl) _

/-- The first of what has expired may be removed. -/
theorem Sound.due (hw : w.Sound) (now : Instant) (limit : Nat) :
    Due now w (w.slots.expired now limit) := by
  have hmem : ∀ r ∈ w.slots.expired now limit, r ∈ w.slots.allExpired now :=
    fun r hr => List.mem_of_mem_take hr
  refine ⟨?_, fun r hr => ?_, fun r hr => ?_⟩
  · have hall : ((w.slots.allExpired now).map Record.key).Nodup :=
      Slots.nodup_allExpired hw.keyed hw.distinct
    exact hall.sublist ((List.take_sublist _ _).map Record.key)
  · exact ((Slots.mem_allExpired hw.keyed hw.distinct).mp (hmem r hr)).1
  · exact ((Slots.mem_allExpired hw.keyed hw.distinct).mp (hmem r hr)).2

theorem Settled.ended {s : SweeperSettings} {a : Unit}
    (h : w.Settled ((Call.sweep s).verdict now w.slots) a w') :
    Ended now w (w.slots.expired now (s.batchSize * max 1 s.maxBatches)) w' :=
  ⟨h.slots, h.told⟩

/-- After a sweep in one run, it is ahead of the other. -/
theorem Ahead.swept (h : w.Ahead now v) (hw : w.Sound) {s : SweeperSettings} {a : Unit}
    (hsettled : w.Settled ((Call.sweep s).verdict now w.slots) a w') : w'.Ahead now v := by
  have hnone : Ended now v [] v := ⟨rfl, (List.append_nil _).symm⟩
  refine h.ended hsettled.ended hnone (hw.due now _) ⟨.nil, ?_, ?_⟩ ?_
  · rintro r ⟨⟩
  · rintro r ⟨⟩
  · rintro r ⟨⟩

/-- After the same sweep in both runs, the one that was ahead still is. -/
theorem Ahead.swept_both (h : w.Ahead now v) (hw : w.Sound) (hv : v.Sound) {s : SweeperSettings}
    {a b : Unit} (hsettled : w.Settled ((Call.sweep s).verdict now w.slots) a w')
    (hsettled' : v.Settled ((Call.sweep s).verdict now v.slots) b v') : w'.Ahead now v' := by
  refine h.ended hsettled.ended hsettled'.ended (hw.due now _) (hv.due now _) ?_
  intro r hr hl
  have hexpired := (hv.due now _).expired r hr
  have hmem : r ∈ w.slots.allExpired now :=
    (Slots.mem_allExpired hw.keyed hw.distinct).mpr ⟨hl, hexpired⟩
  have hnodup : (v.slots.allExpired now).Nodup :=
    List.Nodup.of_map Record.key (Slots.nodup_allExpired hv.keyed hv.distinct)
  exact mem_take_of_sublist (h.allExpired hw hv) hnodup hmem hr

/-- Versions are in range in a run if they are in one that is ahead. -/
theorem Ahead.inRange (h : w.Ahead now v) (hw : w.InRange) : v.InRange := by
  intro key
  have hlow := hw key
  rcases h.ahead key with ⟨hslot, _⟩ | ⟨r, _, hl, hslot, _⟩
  · rwa [Slots.versionOf, hslot] at hlow
  · rw [Slots.versionOf_of_get hslot] at hlow
    rw [Slots.versionOf_of_live hl]
    exact Nat.lt_of_le_of_lt (Version.le_next r.version) hlow

/-! ## Runs with more sweeps -/

/-- A sequence of calls with sweeps put in anywhere. -/
inductive MoreSweeps : List (Instant × Call) → List (Instant × Call) → Prop where
  | nil : MoreSweeps [] []
  | both {few many} (x : Instant × Call) (h : MoreSweeps few many) :
      MoreSweeps (x :: few) (x :: many)
  | sweep {few many} (now : Instant) (s : SweeperSettings) (h : MoreSweeps few many) :
      MoreSweeps few ((now, .sweep s) :: many)

/-- The same call in both runs. -/
theorem Ahead.call (h : w.Ahead now v) (hw : w.Sound) (hv : v.Sound) (hrange : w.InRange) {c : Call}
    {a b : c.Answer} (hfirst : Finishes (Answers now) w c.operation a w')
    (hfirst' : Finishes (Answers now) v c.operation b v') :
    c.hears a = c.hears b ∧ w'.Ahead now v' := by
  have hsettled := hfirst.comes (comes_verdict hw hrange now c)
  have hsettled' := hfirst'.comes (comes_verdict hv (h.inRange hrange) now c)
  cases hc : c.key? with
  | none =>
    cases c with
    | sweep s => exact ⟨rfl, h.swept_both hw hv hsettled hsettled'⟩
    | _ => cases hc
  | some key =>
    have halike := (h.ahead key).alike hw hv hc
    refine ⟨?_, halike.ahead h hsettled hsettled'⟩
    rw [Call.hears_of_key hc, Call.hears_of_key hc, hsettled.said, hsettled'.said, halike.said]

/-- **Two runs, one of which sweeps more often**: callers hear the same, and it is ahead at the end. -/
theorem Ahead.plays {few many : List (Instant × Call)} (hmore : MoreSweeps few many) :
    ∀ {now : Instant} {w v w' v' : Solo} {heard heard' : List Call.Heard}, w.Ahead now v →
      w.Sound → v.Sound → (∀ x ∈ many, now ≤ x.1) → (many.map Prod.fst).Pairwise (· ≤ ·) →
      w.StaysInRange many → w.Plays many heard w' → v.Plays few heard' v' →
      heard = heard' ∧ ∃ last, w'.Ahead last v' := by
  induction hmore with
  | nil =>
    intro now w v w' v' heard heard' h _ _ _ _ _ hplays hplays'
    cases hplays
    cases hplays'
    exact ⟨rfl, now, h⟩
  | both x hmore ih =>
    intro now w v w' v' heard heard' h hw hv hnow hclock hrange hplays hplays'
    cases hplays with
    -- the same call in both runs: answers agree, and the first stays ahead after it
    | @call _ w₁ _ time c a rest said hfirst hrest =>
      cases hplays' with
      | @call _ v₁ _ _ _ b _ said' hfirst' hrest' =>
        obtain ⟨hlater, hclock⟩ := List.pairwise_cons.mp hclock
        have hthen := h.later (hnow _ (List.mem_cons_self ..))
        have hin := hrange.here
        have hsettled := hfirst.comes (comes_verdict hw hin time c)
        have hsettled' := hfirst'.comes (comes_verdict hv (hthen.inRange hin) time c)
        obtain ⟨hsame, hahead⟩ := hthen.call hw hv hin hfirst hfirst'
        obtain ⟨hrests, hend⟩ := ih hahead hsettled.sound hsettled'.sound
          (fun y hy => hlater _ (List.mem_map_of_mem hy)) hclock (hrange.after hfirst) hrest hrest'
        exact ⟨by rw [hsame, hrests], hend⟩
  | sweep time s hmore ih =>
    intro now w v w' v' heard heard' h hw hv hnow hclock hrange hplays hplays'
    cases hplays with
    -- a sweep of the first run only: it can but go further ahead, and callers hear nothing of it
    | @call _ w₁ _ _ _ a rest said hfirst hrest =>
      obtain ⟨hlater, hclock⟩ := List.pairwise_cons.mp hclock
      have hthen := h.later (hnow _ (List.mem_cons_self ..))
      have hsettled := hfirst.comes (comes_verdict hw hrange.here time (.sweep s))
      exact ih (hthen.swept hw hsettled) hsettled.sound hv
        (fun y hy => hlater _ (List.mem_map_of_mem hy)) hclock (hrange.after hfirst) hrest hplays'

/-! ## Results -/

/-- **Sweeping is invisible to callers.**  Calls on any keys are made one after the other, from a
    sound state on, by a clock that never goes back; then they are made again with more sweeps
    among them.  Either way all of them answer; callers hear the same; and of every key the same
    kinds and versions are announced in the same order, apart from the end of a record that is still
    there in the run with fewer sweeps.  Both runs break ties alike: of records with the same expiry,
    the one whose slot is older goes first. -/
theorem sweeps_unseen {w : Solo} (hw : w.Sound) {few many : List (Instant × Call)}
    (hmore : MoreSweeps few many) (hclock : (many.map Prod.fst).Pairwise (· ≤ ·))
    (hrange : w.StaysInRange many) :
    (∃ heard v, w.Plays few heard v) ∧ (∃ heard w', w.Plays many heard w') ∧
      ∀ heard v heard' w', w.Plays few heard v → w.Plays many heard' w' → heard' = heard ∧
        ∀ key, w'.told key = v.told key ∨ ∃ r, v.slots.live? key = some r ∧
          w'.told key = v.told key ++ [(.expired, r.tombstoneVersion)] := by
  refine ⟨exists_plays few w, exists_plays many w, ?_⟩
  intro heard v heard' w' hplays hplays'
  -- the clock shows nothing before the first call
  have hbegin : ∃ now : Instant, ∀ x ∈ many, now ≤ x.1 := by
    cases many with
    | nil =>
      refine ⟨.epoch, ?_⟩
      rintro x ⟨⟩
    | cons x rest =>
      refine ⟨x.1, fun y hy => ?_⟩
      rcases List.mem_cons.mp hy with rfl | hy
      · exact le_refl y.1
      · exact (List.pairwise_cons.mp hclock).1 _ (List.mem_map_of_mem hy)
  obtain ⟨now, hnow⟩ := hbegin
  obtain ⟨hsame, last, hahead⟩ :=
    (Ahead.refl now w).plays hmore hw hw hnow hclock hrange hplays' hplays
  refine ⟨hsame, fun key => ?_⟩
  rcases hahead.ahead key with ⟨_, htold⟩ | ⟨r, _, hl, _, htold⟩
  · exact .inl htold
  · exact .inr ⟨r, hl, htold⟩

end Solo

namespace Sample

/-- A session is created for a second, and after two seconds again. -/
def creations : List (Instant × Call) :=
  [(second 0, .create settings key .null (.ofMillis 1000)),
   (second 2, .create settings key (.bool true) (.ofMillis 1000))]

/-- The same, with a sweep in between and one at the end. -/
def sweptCreations : List (Instant × Call) :=
  [(second 0, .create settings key .null (.ofMillis 1000)), (second 2, .sweep {}),
   (second 2, .create settings key (.bool true) (.ofMillis 1000)), (second 4, .sweep {})]

end Sample

/-- Nobody hears of the two sweeps. -/
theorem sample_sweeps_unseen : ∃ heard v w', ({} : Solo).Plays Sample.creations heard v ∧
    ({} : Solo).Plays Sample.sweptCreations heard w' ∧
      (w'.told Sample.key = v.told Sample.key ∨ ∃ r, v.slots.live? Sample.key = some r ∧
        w'.told Sample.key = v.told Sample.key ++ [(.expired, r.tombstoneVersion)]) := by
  have hmore : Solo.MoreSweeps Sample.creations Sample.sweptCreations :=
    .both _ (.sweep _ _ (.both _ (.sweep _ _ .nil)))
  have hrange : ({} : Solo).StaysInRange Sample.sweptCreations := by
    refine .of_content Solo.sound_empty fun past hpast => ?_
    have hall : ∀ p ∈ Sample.sweptCreations.inits, Solo.inRange (Solo.content {} p) = true := by
      decide +kernel
    exact hall past ((List.mem_inits _ _).mpr hpast)
  obtain ⟨⟨heard, v, hplays⟩, ⟨heard', w', hplays'⟩, hall⟩ :=
    Solo.sweeps_unseen Solo.sound_empty hmore (by decide +kernel) hrange
  obtain ⟨rfl, htold⟩ := hall heard v heard' w' hplays hplays'
  exact ⟨_, v, w', hplays, hplays', htold Sample.key⟩

/-! ## Warnings -/

/-- What a creation has answered: the record, and the events that were not delivered. -/
def Member.created? : Member → Option (Record × List Warning)
  | ⟨.call (.create ..), _, _, .done (.ok c)⟩ => some (c.value, c.warnings)
  | _ => none

/-- What creations have answered, in the order in which they were called. -/
def Process.created (p : Process) : List (Record × List Warning) :=
  p.members.filterMap Member.created?

/-- Whether a cue comes from outside. -/
def Cue.isChange : Cue → Bool
  | .change _ => true
  | _ => false

/-- Circumstances in which any calls are made, and nothing happens from outside. -/
def Circumstances.undisturbed : Circumstances := ⟨fun _ => True, fun _ _ => False⟩

namespace Sample

/-- A node with one lane, which has room for one event. -/
def narrowNode : Node where
  clock := .running .epoch
  lanes := .make { partitions := 1, capacity := 1 }
  settings := settings

/-- A session is created for a second, and a second passes. -/
def untilExpiry : List Cue :=
  [.poll 0, .call (.create settings key .null (.ofMillis 1000)), .poll 1, .poll 2, .poll 1,
   .poll 0, .poll 1, .renew 0, .poll 0, .pass 1000]

def sweepOnce : List Cue := [.call (.sweep {}), .poll 3, .poll 0, .poll 3, .renew 0, .poll 0]

/-- The session is created again, by the member at a place. -/
def createAgain (i : Nat) : List Cue :=
  [.call (.create settings key .null (.ofMillis 1000)), .poll i, .poll (i + 1), .poll i, .poll 0,
   .poll i, .renew 0, .poll 0, .poll i]

def unswept : Process := (Process.start narrowNode).follow (untilExpiry ++ createAgain 3)

def swept : Process := (Process.start narrowNode).follow (untilExpiry ++ sweepOnce ++ createAgain 4)

end Sample

/-- **A sweep may spare callers a warning.**  A creation over an expired record announces two events at
    once, and where a lane has room for one the second is not delivered.  After a sweep there is
    only one event to announce.  The versions are the same. -/
theorem sweep_spares_warning :
    Process.Runs .undisturbed (.start Sample.narrowNode) Sample.unswept ∧
      Process.Runs .undisturbed (.start Sample.narrowNode) Sample.swept ∧
      Sample.unswept.created.map (fun x => (x.1.version.number, x.2.length)) = [(1, 0), (3, 1)] ∧
      Sample.swept.created.map (fun x => (x.1.version.number, x.2.length)) = [(1, 0), (3, 0)] := by
  have hadmits (cue : Cue) (h : cue.isChange = false) : Circumstances.undisturbed.Admits cue := by
    cases cue with
    | change f => cases h
    | _ => trivial
  have hall (cues : List Cue) (h : cues.all (fun cue => !cue.isChange) = true) :
      ∀ cue ∈ cues, Circumstances.undisturbed.Admits cue :=
    fun cue hcue => hadmits cue (by simpa using List.all_eq_true.mp h cue hcue)
  refine ⟨?_, ?_, ?_, ?_⟩
  · exact Process.runs_follow _ (hall _ (by decide)) _
  · exact Process.runs_follow _ (hall _ (by decide)) _
  · decide +kernel
  · decide +kernel

end SessionCluster
