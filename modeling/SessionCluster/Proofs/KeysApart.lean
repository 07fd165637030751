/-
  KeysApart — sessions do not interfere.

  Two runs make the same calls on a key, one after the other, and sweep at the same moments.  One of
  them, the FULL one, makes calls on other keys as well, which the other one leaves out.  All keys
  share the store and the cache, and a sweep has a limit: the more records have expired, the later it
  may come to one of them.  The full run may have more of them, since it creates others, and fewer,
  since it removes others.  So either run may be ahead of the other at the key (`Solo.Abreast`).

  A call on another key leaves the key alone (`Call.verdict_on`).  A call on the key is alike in both
  runs, whichever of them is ahead.  A sweep may let the other one go ahead, but no further than by
  the end of one record (`AheadAt.ended`); which records of equal expiry it takes first makes no
  difference.

  * `keys_apart` — **of a key, callers hear the same, and the same is announced** but for an end that is
    still to come: in the full run, unless the store knew other keys from the start.
-/
import SessionCluster.Proofs.SweepsUnseen

namespace SessionCluster

namespace Solo

variable {now : Instant} {w w' v v' : Solo} {key own : SessionKey}

/-- After a call on another key, nothing has become of a key. -/
theorem Settled.elsewhere {β : Type} {x : Verdict β} {a : β} (h : w.Settled x a w')
    (hx : x.On own w.slots) (hk : key ≠ own) :
    w'.slots.get? key = w.slots.get? key ∧ w'.told key = w.told key := by
  have hnone : pointsOf key x.told = [] := by
    refine pointsOf_other fun c hc => ?_
    rw [hx.told_key c hc]
    exact hk.symm
  rw [h.slots, hx.get?_other hk, told_of_announced h.told, hnone, List.append_nil]
  exact ⟨rfl, rfl⟩

/-! ## Other keys -/

/-- The store knows a key other than this one. -/
def HasOthers (w : Solo) (key : SessionKey) : Prop := ∃ k, k ≠ key ∧ w.slots.get? k ≠ none

theorem Settled.hasOthers_iff {β : Type} {x : Verdict β} {a : β} (h : w.Settled x a w')
    (hx : x.On key w.slots) : w'.HasOthers key ↔ w.HasOthers key := by
  unfold HasOthers
  refine exists_congr fun k => and_congr_right fun hk => ?_
  rw [h.slots, hx.get?_other hk]

/-- The end of records leaves tombstones, and so the store knows the same keys. -/
theorem Ended.hasOthers_iff {rs : List Record} (h : Ended now w rs w') (hd : Due now w rs) :
    w'.HasOthers key ↔ w.HasOthers key := by
  refine exists_congr fun k => and_congr_right fun _ => ?_
  by_cases hk : k ∈ rs.map Record.key
  · obtain ⟨r, hr, rfl⟩ := List.mem_map.mp hk
    rw [(h.own hd.distinct hr).1, Slots.live?_eq_some.mp (hd.live r hr)]
    simp
  · rw [(h.other hk).1]

/-- A sweep that may remove anything removes the one record that has expired. -/
theorem Sound.expired_alone (hw : w.Sound) (hnone : ¬ w.HasOthers key) {r : Record}
    (hl : w.slots.live? key = some r) (he : r.isExpiredAt now = true) {limit : Nat}
    (hlimit : 0 < limit) : r ∈ w.slots.expired now limit := by
  have hkey := hw.keyed key r hl
  have hmem : r ∈ w.slots.allExpired now :=
    (Slots.mem_allExpired hw.keyed hw.distinct).mpr ⟨by rw [hkey, hl], he⟩
  rw [Slots.expired_eq]
  cases hall : w.slots.allExpired now with
  | nil =>
    rw [hall] at hmem
    cases hmem
  | cons first rest =>
    -- the first one is of the key, since there is no other
    have hfirst : w.slots.live? first.key = some first :=
      ((Slots.mem_allExpired hw.keyed hw.distinct).mp (hall ▸ List.mem_cons_self ..)).1
    have hsame : first.key = key := by
      by_contra hother
      refine hnone ⟨first.key, hother, ?_⟩
      rw [Slots.live?_eq_some.mp hfirst]
      simp
    rw [hsame, hl] at hfirst
    cases hfirst
    obtain ⟨n, rfl⟩ : ∃ n, limit = n + 1 := ⟨limit - 1, by omega⟩
    exact List.mem_cons_self ..

/-! ## Two runs -/

/-- A run and one that leaves out the calls on other keys: the shorter one is ahead at the key; or the
    full one is, but then the shorter one has other keys in its store. -/
def Abreast (now : Instant) (w v : Solo) (key : SessionKey) : Prop :=
  v.AheadAt now w key ∨ w.AheadAt now v key ∧ v.HasOthers key

theorem Abreast.later {last : Instant} (h : w.Abreast now v key) (hle : now ≤ last) :
    w.Abreast last v key :=
  h.imp (·.later hle) (And.imp_left (·.later hle))

/-- The full run makes a call on another key. -/
theorem Abreast.elsewhere (h : w.Abreast now v key)
    (hw : w'.slots.get? key = w.slots.get? key ∧ w'.told key = w.told key) :
    w'.Abreast now v key :=
  h.imp (·.congr ⟨rfl, rfl⟩ hw) (And.imp_left (·.congr hw ⟨rfl, rfl⟩))

/-- Both runs make a call on the key: it says the same. -/
theorem Abreast.call (h : w.Abreast now v key) (hw : w.Sound) (hv : v.Sound) {c : Call}
    (hc : c.key? = some key) {a b : c.Said} (ha : w.Settled (c.verdict now w.slots) a w')
    (hb : v.Settled (c.verdict now v.slots) b v') : b = a ∧ w'.Abreast now v' key := by
  rcases h with h | ⟨h, hothers⟩
  · have halike := h.alike hv hw hc
    exact ⟨by rw [ha.said, hb.said, halike.said], .inl (halike.aheadAt h hb ha)⟩
  · have halike := h.alike hw hv hc
    refine ⟨by rw [ha.said, hb.said, halike.said], .inr ⟨halike.aheadAt h ha hb, ?_⟩⟩
    exact (hb.hasOthers_iff (c.verdict_on hc hv.keyed now)).mpr hothers

/-- Both runs sweep. -/
theorem Abreast.swept (h : w.Abreast now v key) (hw : w.Sound) (hv : v.Sound) {s : SweeperSettings}
    {a b : Unit} (ha : w.Settled ((Call.sweep s).verdict now w.slots) a w')
    (hb : v.Settled ((Call.sweep s).verdict now v.slots) b v') : w'.Abreast now v' key := by
  have hdue := hw.due now (s.batchSize * max 1 s.maxBatches)
  have hdue' := hv.due now (s.batchSize * max 1 s.maxBatches)
  have hothers : v'.HasOthers key ↔ v.HasOthers key := hb.ended.hasOthers_iff hdue'
  rcases h with h | ⟨h, hmore⟩
  · rcases h.ended hb.ended ha.ended hdue' hdue with hahead | ⟨hover, r, hr, rfl, hl, hnot⟩
    · exact .inl hahead
    · -- the full run has removed what the shorter one has not
      refine .inr ⟨hover, hothers.mpr ?_⟩
      by_contra hnone
      have hlimit : 0 < s.batchSize * max 1 s.maxBatches := by
        rcases Nat.eq_zero_or_pos (s.batchSize * max 1 s.maxBatches) with hzero | hpos
        · rw [hzero] at hr
          cases hr
        · exact hpos
      exact hnot (hv.expired_alone hnone hl (hdue.expired r hr) hlimit)
  · rcases h.ended ha.ended hb.ended hdue hdue' with hahead | ⟨hover, _⟩
    · exact .inr ⟨hahead, hothers.mpr hmore⟩
    · exact .inl hover

end Solo

/-! ## Leaving out other keys -/

/-- Whether a call may have to do with a key: it is for the key, or a sweep. -/
def Call.concerns (key : SessionKey) (c : Call) : Bool := c.key?.all (· = key)

/-- A sequence of calls without the calls on other keys. -/
def withoutOthers (key : SessionKey) (steps : List (Instant × Call)) : List (Instant × Call) :=
  steps.filter fun x => x.2.concerns key

theorem withoutOthers_own {key : SessionKey} {c : Call} (hc : c.key? = some key) (time : Instant)
    (rest : List (Instant × Call)) :
    withoutOthers key ((time, c) :: rest) = (time, c) :: withoutOthers key rest :=
  List.filter_cons_of_pos (by simp [Call.concerns, hc])

theorem withoutOthers_other {key own : SessionKey} {c : Call} (hc : c.key? = some own)
    (hne : own ≠ key) (time : Instant) (rest : List (Instant × Call)) :
    withoutOthers key ((time, c) :: rest) = withoutOthers key rest :=
  List.filter_cons_of_neg (by simp [Call.concerns, hc, hne])

/-- What callers have heard of a key. -/
def heardOf (key : SessionKey) (heard : List Call.Heard) : List Call.Heard :=
  heard.filter fun h => h.1.key? = some key

theorem heardOf_own {key : SessionKey} {c : Call} (hc : c.key? = some key) (a : c.Answer)
    (heard : List Call.Heard) :
    heardOf key (c.hears a ++ heard) = ⟨c, c.heard a⟩ :: heardOf key heard := by
  rw [Call.hears_of_key hc]
  exact List.filter_cons_of_pos (decide_eq_true hc)

theorem heardOf_other {key own : SessionKey} {c : Call} (hc : c.key? = some own) (hne : own ≠ key)
    (a : c.Answer) (heard : List Call.Heard) :
    heardOf key (c.hears a ++ heard) = heardOf key heard := by
  rw [Call.hears_of_key hc]
  refine List.filter_cons_of_neg ?_
  simp only [hc, decide_eq_true_eq, Option.some.injEq]
  exact hne

namespace Solo

variable {key : SessionKey}

/-- **Two runs, one of which leaves out the calls on other keys**: of the key, callers hear the same,
    and the runs are abreast at the end. -/
theorem Abreast.plays {last : Instant} (steps : List (Instant × Call)) :
    ∀ {now : Instant} {w v w' v' : Solo} {heard heard' : List Call.Heard}, w.Abreast now v key →
      w.Sound → v.Sound → (now :: (steps.map Prod.fst ++ [last])).Pairwise (· ≤ ·) →
      w.StaysInRange steps → v.StaysInRange (withoutOthers key steps) →
      w.Plays steps heard w' → v.Plays (withoutOthers key steps) heard' v' →
      heard' = heardOf key heard ∧ w'.Abreast last v' key ∧
        (v'.HasOthers key → v.HasOthers key) := by
  induction steps with
  | nil =>
    intro now w v w' v' heard heard' h _ _ hclock _ _ hplays hplays'
    cases hplays
    cases hplays'
    exact ⟨rfl, h.later ((List.pairwise_cons.mp hclock).1 _ (List.mem_singleton_self _)), id⟩
  | cons x rest ih =>
    intro now w v w' v' heard heard' h hw hv hclock hrange hrange' hplays hplays'
    obtain ⟨hnow, hclock⟩ := List.pairwise_cons.mp hclock
    have hthen := h.later (hnow _ (List.mem_cons_self ..))
    cases hplays with
    | @call _ w₁ _ time c a rest said hfirst hrest =>
      have hsettled := hfirst.comes (comes_verdict hw hrange.here time c)
      cases hc : c.key? with
      | none =>
        -- both runs sweep
        cases c with
        | sweep s =>
          cases hplays' with
          | @call _ v₁ _ _ _ b _ said' hfirst' hrest' =>
            have hsettled' := hfirst'.comes (comes_verdict hv hrange'.here time (.sweep s))
            obtain ⟨hsame, hend, hothers⟩ := ih (hthen.swept hw hv hsettled hsettled')
              hsettled.sound hsettled'.sound hclock (hrange.after hfirst) (hrange'.after hfirst')
              hrest hrest'
            have hkeys : v₁.HasOthers key ↔ v.HasOthers key :=
              hsettled'.ended.hasOthers_iff (hv.due time _)
            exact ⟨hsame, hend, fun hv' => hkeys.mp (hothers hv')⟩
        | _ => cases hc
      | some own =>
        by_cases hown : own = key
        · -- both runs make the call
          subst hown
          rw [withoutOthers_own hc] at hrange' hplays'
          cases hplays' with
          | @call _ v₁ _ _ _ b _ said' hfirst' hrest' =>
            have hsettled' := hfirst'.comes (comes_verdict hv hrange'.here time c)
            obtain ⟨hsaid, hthen⟩ := hthen.call hw hv hc hsettled hsettled'
            obtain ⟨hsame, hend, hothers⟩ := ih hthen hsettled.sound hsettled'.sound hclock
              (hrange.after hfirst) (hrange'.after hfirst') hrest hrest'
            have hkeys := hsettled'.hasOthers_iff (c.verdict_on hc hv.keyed time)
            refine ⟨?_, hend, fun hv' => hkeys.mp (hothers hv')⟩
            rw [heardOf_own hc, Call.hears_of_key hc, hsaid, hsame]
            rfl
        · -- the shorter run leaves it out
          rw [withoutOthers_other hc hown] at hrange' hplays'
          have hon := c.verdict_on hc hw.keyed time
          rw [heardOf_other hc hown]
          exact ih (hthen.elsewhere (hsettled.elsewhere hon fun h => hown h.symm)) hsettled.sound hv
            hclock (hrange.after hfirst) hrange' hrest hplays'

/-! ## Results -/

/-- **Sessions do not interfere.**  Calls on any keys and sweeps are made one after the other, from a
    sound state on, by a clock that never goes back, and shows `last` in the end; then they are made
    again without the calls on other keys than one.  Either way all of them answer; callers hear the
    same of the key; and the key holds the same, and the same kinds and versions are announced of it
    in the same order, apart from the end of an expired record that one of the runs still holds: the
    full run, unless the store knew other keys at first. -/
theorem keys_apart {w : Solo} (hw : w.Sound) (key : SessionKey) {steps : List (Instant × Call)}
    {last : Instant} (hclock : (steps.map Prod.fst ++ [last]).Pairwise (· ≤ ·))
    (hrange : w.StaysInRange steps) (hrange' : w.StaysInRange (withoutOthers key steps)) :
    (∃ heard w', w.Plays steps heard w') ∧
      (∃ heard v, w.Plays (withoutOthers key steps) heard v) ∧
      ∀ heard w' heard' v, w.Plays steps heard w' → w.Plays (withoutOthers key steps) heard' v →
        heard' = heardOf key heard ∧
          (v.AheadAt last w' key ∨ w'.AheadAt last v key ∧ w.HasOthers key) := by
  refine ⟨exists_plays steps w, exists_plays _ w, ?_⟩
  intro heard w' heard' v hplays hplays'
  -- the clock shows nothing before the first call
  obtain ⟨now, hnow⟩ : ∃ now : Instant,
      (now :: (steps.map Prod.fst ++ [last])).Pairwise (· ≤ ·) := by
    cases hreadings : steps.map Prod.fst ++ [last] with
    | nil => exact ⟨last, List.pairwise_singleton _ _⟩
    | cons first rest =>
      rw [hreadings] at hclock
      refine ⟨first, List.pairwise_cons.mpr ⟨fun t ht => ?_, hclock⟩⟩
      rcases List.mem_cons.mp ht with rfl | ht
      · exact le_refl _
      · exact (List.pairwise_cons.mp hclock).1 t ht
  have hbegin : w.Abreast now w key := .inl (.refl now w key)
  obtain ⟨hsame, hend, hothers⟩ := hbegin.plays steps hw hw hnow hrange hrange' hplays hplays'
  exact ⟨hsame, hend.imp_right (And.imp_right hothers)⟩

end Solo

namespace Sample

theorem otherKey_valid : isSessionKey "t" = true := by decide

/-- A second key. -/
def otherKey : SessionKey := ⟨"t", otherKey_valid⟩

/-- Two sessions are created for a second and expire, and a sweep removes the one that has expired
    first; and all that once more. -/
def twoSessions : List (Instant × Call) :=
  [(second 0, .create settings otherKey .null (.ofMillis 1000)),
   (second 1, .create settings key .null (.ofMillis 1000)),
   (second 3, .sweep { batchSize := 1, maxBatches := 1 }), (second 3, .get settings key),
   (second 4, .create settings otherKey .null (.ofMillis 1000)),
   (second 5, .create settings key (.bool true) (.ofMillis 1000)),
   (second 5, .update settings key (version 3) .null),
   (second 7, .sweep { batchSize := 1, maxBatches := 1 })]

end Sample

/-- The sweeps come to the session later in the full run, and nobody hears of it. -/
theorem sample_keys_apart : ∃ heard w' v, ({} : Solo).Plays Sample.twoSessions heard w' ∧
    ({} : Solo).Plays (withoutOthers Sample.key Sample.twoSessions)
      (heardOf Sample.key heard) v ∧
    v.AheadAt (Sample.second 7) w' Sample.key := by
  have hclock : (Sample.twoSessions.map Prod.fst ++ [Sample.second 7]).Pairwise (· ≤ ·) := by
    decide +kernel
  have hempty (key : SessionKey) : ({} : Solo).slots.versionOf key ≤ 0 := Nat.le_refl _
  have hrange : ({} : Solo).StaysInRange Sample.twoSessions :=
    .of_length Solo.sound_empty hempty (by decide +kernel)
  have hrange' : ({} : Solo).StaysInRange (withoutOthers Sample.key Sample.twoSessions) :=
    .of_length Solo.sound_empty hempty (by decide +kernel)
  obtain ⟨⟨heard, w', hplays⟩, ⟨heard', v, hplays'⟩, hall⟩ :=
    Solo.keys_apart Solo.sound_empty Sample.key hclock hrange hrange'
  obtain ⟨rfl, hahead | ⟨_, k, _, hk⟩⟩ := hall heard w' heard' v hplays hplays'
  · exact ⟨heard, w', v, hplays, hplays', hahead⟩
  · -- the store knew no key at first
    exact absurd rfl hk

end SessionCluster
