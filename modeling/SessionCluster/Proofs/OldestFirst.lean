/-
  Oldest first — which records a sweep removes when nobody acts in between, and what it leaves.

  A sweep alone removes the first of the expired records in the order of their expiry, as many as
  its batches hold (`Solo.comes_clears`).  What is left behind of them comes after those in the
  order, so it does not expire earlier (`Slots.oldest`).  Each key that loses its record keeps a
  tombstone one above it, has its end announced once, and has no copy in the cache; all other keys
  keep their slots and their copies.

  `sweep_evicts_oldest` — this holds for every content of the store and of the cache, every batch
  size and number of batches, and every reading of the clock, and every such sweep answers.
-/
import SessionCluster.Proofs.Schedules
import SessionCluster.Proofs.Sweeps

namespace SessionCluster

/-! ## The slots after a sweep -/

namespace Slots

variable {s : Slots} {now : Instant}

/-- A key whose records do not end keeps its slot. -/
theorem get?_ended_other {key : SessionKey} (rs : List Record) :
    ∀ s : Slots, key ∉ rs.map Record.key → (rs.foldl end_ s).get? key = s.get? key := by
  induction rs with
  | nil => exact fun _ _ => rfl
  | cons r rs ih =>
    intro s hkey
    rw [List.map_cons, List.mem_cons, not_or] at hkey
    rw [List.foldl_cons, ih _ hkey.2]
    show (s.put r.key _).get? key = _
    rw [get?_put, if_neg hkey.1]

/-- A key whose record ends has its tombstone, if it has no other record that ends. -/
theorem get?_ended {r : Record} (rs : List Record) :
    ∀ s : Slots, (rs.map Record.key).Nodup → r ∈ rs →
      (rs.foldl end_ s).get? r.key = some (.tombstone r.tombstoneVersion) := by
  induction rs with
  | nil => exact fun _ _ hmem => absurd hmem List.not_mem_nil
  | cons r' rs ih =>
    intro s hnodup hmem
    obtain ⟨hfirst, hrest⟩ := List.nodup_cons.mp hnodup
    rw [List.foldl_cons]
    rcases List.mem_cons.mp hmem with rfl | hmem
    · rw [get?_ended_other rs _ hfirst]
      show (s.put r.key _).get? r.key = _
      rw [get?_put, if_pos rfl]
    · exact ih _ hrest hmem

/-- The expired records are in the order of their expiry. -/
theorem pairwise_allExpired (s : Slots) (now : Instant) :
    (s.allExpired now).Pairwise fun a b => b.expiresAt.before a.expiresAt = false := by
  have hsorted : (s.allExpired now).Pairwise fun a b =>
      (!b.expiresAt.before a.expiresAt) = true :=
    List.pairwise_mergeSort byExpiry_trans byExpiry_total _
  exact hsorted.imp fun h => by simpa using h

/-- **What a sweep leaves behind is no older** than what it removes. -/
theorem oldest {limit : Nat} {r r' : Record} (hr : r ∈ s.expired now limit)
    (hr' : r' ∈ (s.allExpired now).drop limit) : r'.expiresAt.before r.expiresAt = false := by
  have hsplit := s.pairwise_allExpired now
  rw [← List.take_append_drop limit (s.allExpired now)] at hsplit
  exact (List.pairwise_append.mp hsplit).2.2 r hr r' hr'

/-- How many records a sweep removes. -/
theorem length_expired (s : Slots) (now : Instant) (limit : Nat) :
    (s.expired now limit).length =
      min (s.liveRecords.filter (·.isExpiredAt now)).length limit := by
  rw [expired_eq, List.length_take, Nat.min_comm, allExpired, List.length_mergeSort]

end Slots

/-! ## The cache and the announcements after a sweep -/

namespace MemoryCache

/-- After the removal of a key, the cache holds no copy of it, and the copies of others. -/
theorem lookup_removed {c : MemoryCache} (hu : c.unavailable = false) (tick : Nat)
    (key k : SessionKey) : (c.call tick (.remove key)).1.entries.lookup k =
      if k = key then none else c.entries.lookup k := by
  rw [call_remove hu]
  show (c.entries.filter fun e => e.1 != key).lookup k = _
  induction c.entries with
  | nil => simp
  | cons e es ih =>
    obtain ⟨k', x⟩ := e
    by_cases hk' : k' = key
    · subst hk'
      by_cases hk : k = k'
      · simpa [hk] using ih
      · simpa [hk, List.lookup_cons, beq_false_of_ne hk] using ih
    · by_cases hk : k = k'
      · subst hk
        simp [hk']
      · simpa [hk', List.lookup_cons, beq_false_of_ne hk] using ih

end MemoryCache

namespace Solo

variable {now : Instant}

/-- After the end of records, there are no copies of them, and the copies of others. -/
theorem lookup_cleared {key : SessionKey} (rs : List Record) :
    ∀ {w : Solo}, w.Stored → (w.cleared now rs).cache.entries.lookup key =
      if key ∈ rs.map Record.key then none else w.cache.entries.lookup key := by
  induction rs with
  | nil => exact fun _ => rfl
  | cons r rs ih =>
    intro w hw
    show ((w.clear now r).cleared now rs).cache.entries.lookup key = _
    rw [ih (hw.clear r)]
    show (if _ then none else (w.cache.call 0 (.remove r.key)).1.entries.lookup key) = _
    rw [MemoryCache.lookup_removed hw.available, List.map_cons]
    by_cases hrest : key ∈ rs.map Record.key
    · rw [if_pos hrest, if_pos (List.mem_cons_of_mem _ hrest)]
    · rw [if_neg hrest]
      by_cases hkey : key = r.key
      · rw [if_pos hkey, if_pos (hkey ▸ List.mem_cons_self ..)]
      · rw [if_neg hkey, if_neg (by simpa [hkey] using hrest)]

end Solo

/-- Of the ends of records of distinct keys, each key has exactly its own. -/
theorem Record.expiries_of_key {r : Record} (now : Instant) (rs : List Record) :
    (rs.map Record.key).Nodup → r ∈ rs →
      (rs.map (·.expiry now)).filter (fun c => decide (c.key = r.key)) = [r.expiry now] := by
  -- among records of other keys there is no end of this one
  have hnone (rs : List Record) (h : r.key ∉ rs.map Record.key) :
      (rs.map (·.expiry now)).filter (fun c => decide (c.key = r.key)) = [] := by
    refine List.filter_eq_nil_iff.mpr ?_
    intro c hc
    obtain ⟨r', hr', rfl⟩ := List.mem_map.mp hc
    rw [decide_eq_true_eq]
    intro hkey
    exact h (List.mem_map.mpr ⟨r', hr', hkey⟩)
  induction rs with
  | nil => exact fun _ hmem => absurd hmem List.not_mem_nil
  | cons r' rs ih =>
    intro hnodup hmem
    obtain ⟨hfirst, hrest⟩ := List.nodup_cons.mp hnodup
    rw [List.map_cons]
    rcases List.mem_cons.mp hmem with rfl | hmem
    · -- its own record: it is kept, and none of the others is, as keys are distinct
      rw [List.filter_cons_of_pos (p := fun c : Change => decide (c.key = r.key))
        (decide_eq_true rfl), hnone rs hfirst]
    · -- another record: it is left out
      have hne : ¬ (r'.expiry now).key = r.key := fun hkey =>
        hfirst (List.mem_map.mpr ⟨r, hmem, hkey.symm⟩)
      rw [List.filter_cons_of_neg (by simpa using hne)]
      exact ih hrest hmem

/-! ## The result -/

/-- What a sweep has done that has evicted some records, at most so many, by a reading of the
    clock. -/
structure Solo.EvictsOldest (now : Instant) (limit : Nat) (w : Solo) (evicted : List Record)
    (w' : Solo) : Prop where
  /-- They were the records of different keys, and had expired. -/
  distinct : (evicted.map Record.key).Nodup
  expired : ∀ r ∈ evicted, w.slots.live? r.key = some r ∧ r.isExpiredAt now = true
  /-- They are as many as have expired, or as the sweep may evict. -/
  count : evicted.length = min (w.slots.liveRecords.filter (·.isExpiredAt now)).length limit
  /-- No record that is left behind and has expired expires earlier than one of them. -/
  oldest : ∀ r ∈ evicted, ∀ r', w'.slots.live? r'.key = some r' → r'.isExpiredAt now = true →
    r'.expiresAt.before r.expiresAt = false
  /-- Each of their keys holds a tombstone at the next version. -/
  tombstone : ∀ r ∈ evicted, ∃ v : Version, v.number = r.version.number + 1 ∧
    w'.slots.get? r.key = some (.tombstone v)
  /-- Every other key holds what it held. -/
  others : ∀ key, key ∉ evicted.map Record.key → w'.slots.get? key = w.slots.get? key
  /-- The events handed in are one for each of their keys, of its end at the next version. -/
  announced : ∃ told, w'.announced = w.announced ++ told ∧
    (∀ c ∈ told, c.key ∈ evicted.map Record.key) ∧
    ∀ r ∈ evicted, ∃ v : Version, v.number = r.version.number + 1 ∧
      told.filter (fun c => decide (c.key = r.key)) = [⟨r.key, v, .expired, now⟩]
  /-- The cache holds no copies of them, and the copies of all others. -/
  copies : ∀ key, w'.cache.entries.lookup key =
    if key ∈ evicted.map Record.key then none else w.cache.entries.lookup key

/-- The end of the first expired records is such a result. -/
theorem Solo.Stored.evictsOldest {w : Solo} (hw : w.Stored) {now : Instant} (limit : Nat)
    (hversions : ∀ key r, w.slots.live? key = some r →
      r.version.number < 18446744073709551615) :
    w.EvictsOldest now limit (w.slots.expired now limit)
      (w.cleared now (w.slots.expired now limit)) := by
  have hall : ((w.slots.allExpired now).map Record.key).Nodup :=
    Slots.nodup_allExpired hw.keyed hw.distinct
  have hnodup : ((w.slots.expired now limit).map Record.key).Nodup :=
    hall.sublist ((List.take_sublist limit _).map Record.key)
  have hexpired : ∀ r ∈ w.slots.expired now limit,
      w.slots.live? r.key = some r ∧ r.isExpiredAt now = true := fun r hr =>
    (Slots.mem_allExpired hw.keyed hw.distinct).mp (List.mem_of_mem_take hr)
  have hnext : ∀ r ∈ w.slots.expired now limit,
      r.tombstoneVersion.number = r.version.number + 1 := fun r hr =>
    Version.next_number (hversions r.key r (hexpired r hr).1)
  have hslots : (w.cleared now (w.slots.expired now limit)).slots = w.slots.swept now limit :=
    Solo.cleared_slots _ w
  refine ⟨hnodup, hexpired, Slots.length_expired _ _ _, ?_, ?_, ?_, ?_, ?_⟩
  · intro r hr r' hl he
    -- what is left and has expired comes after the first ones
    have hleft : (w.cleared now (w.slots.expired now limit)).Stored := hw.cleared _
    have hmem := (Slots.mem_allExpired hleft.keyed hleft.distinct).mpr ⟨hl, he⟩
    have hrest : (w.cleared now (w.slots.expired now limit)).slots.allExpired now =
        (w.slots.allExpired now).drop limit := by
      rw [hslots]
      exact Slots.allExpired_swept limit hw.keyed hw.distinct
    rw [hrest] at hmem
    exact Slots.oldest hr hmem
  · intro r hr
    refine ⟨r.tombstoneVersion, hnext r hr, ?_⟩
    rw [hslots]
    exact Slots.get?_ended _ _ hnodup hr
  · intro key hkey
    rw [hslots]
    exact Slots.get?_ended_other _ _ hkey
  · refine ⟨_, w.cleared_announced _, ?_, fun r hr => ?_⟩
    · intro c hc
      obtain ⟨r, hr, rfl⟩ := List.mem_map.mp hc
      exact List.mem_map.mpr ⟨r, hr, rfl⟩
    · exact ⟨r.tombstoneVersion, hnext r hr, Record.expiries_of_key now _ hnodup hr⟩
  · exact fun key => Solo.lookup_cleared _ hw

/-- **A sweep without competition evicts exactly the oldest expired records.**  Whatever a store in
    memory and a cache hold, each record under its own key and below the last version, a sweep
    answers; and it has evicted the oldest of the records that have expired by its reading of the
    clock, as many as there are or as its batches hold, has skipped none, and reports so. -/
theorem sweep_evicts_oldest {w : Solo} (hw : w.Stored)
    (hversions : ∀ key r, w.slots.live? key = some r →
      r.version.number < 18446744073709551615) (s : SweeperSettings) (now : Instant) :
    (∃ a w', Finishes (Solo.Answers now) w (Sweeper.sweep s) a w') ∧
      ∀ a w', Finishes (Solo.Answers now) w (Sweeper.sweep s) a w' →
        ∃ evicted degraded, a = .ok ⟨evicted.length, 0, degraded⟩ ∧
          w.EvictsOldest now (s.batchSize * max 1 s.maxBatches) evicted w' := by
  refine ⟨exists_finishes (Solo.exists_answer now) _ w, fun a w' hend => ?_⟩
  obtain ⟨rfl, degraded, rfl⟩ := hend.comes (Solo.comes_clears hw)
  refine ⟨_, degraded, ?_, hw.evictsOldest _ hversions⟩
  show Except.ok (⟨0 + _, 0, degraded⟩ : SweepReport) = _
  rw [Nat.zero_add]

namespace Sample

/-- A session under a key, with a version and the second at which it expires. -/
def sessionOf (key : SessionKey) (v expiry : Nat) : Record :=
  ⟨key, .null, version v, settings.node, second 0, second 0, second expiry⟩

def firstKey : SessionKey := ⟨"a", by decide⟩
def secondKey : SessionKey := ⟨"b", by decide⟩
def thirdKey : SessionKey := ⟨"c", by decide⟩

/-- Three sessions, the tombstone of another, and a copy of a session that is no longer there. -/
def crowded : Solo where
  slots := ⟨[(firstKey, .live (sessionOf firstKey 1 5)), (secondKey, .live (sessionOf secondKey 7 3)),
    (key, .tombstone (version 4)), (thirdKey, .live (sessionOf thirdKey 2 9))]⟩
  cache := { entries := [(secondKey, ⟨sessionOf secondKey 6 2, 1000000000⟩)] }

/-- The sample's table is one that may be stored. -/
theorem crowded_stored : crowded.Stored where
  keyed := by
    intro k r hr
    have hmem := Slots.mem_of_get? (Slots.live?_eq_some.mp hr)
    simp only [crowded, List.mem_cons, List.not_mem_nil, or_false, Prod.mk.injEq, Slot.live.injEq,
      reduceCtorEq, and_false, false_or] at hmem
    rcases hmem with ⟨rfl, rfl⟩ | ⟨rfl, rfl⟩ | ⟨rfl, rfl⟩ <;> rfl
  distinct := by decide
  available := rfl

end Sample

/-- One of the two sessions that have expired at second five is evicted by a sweep with room for
    one. -/
theorem sample_sweep_evicts_oldest : ∃ evicted degraded w',
    Finishes (Solo.Answers (Sample.second 5)) Sample.crowded
      (Sweeper.sweep { batchSize := 1, maxBatches := 0 }) (.ok ⟨1, 0, degraded⟩) w' ∧
    evicted.length = 1 ∧ Sample.crowded.EvictsOldest (Sample.second 5) 1 evicted w' := by
  have hversions : ∀ key r, Sample.crowded.slots.live? key = some r →
      r.version.number < 18446744073709551615 := by
    intro k r hr
    have hmem := Slots.mem_of_get? (Slots.live?_eq_some.mp hr)
    simp only [Sample.crowded, List.mem_cons, List.not_mem_nil, or_false, Prod.mk.injEq,
      Slot.live.injEq, reduceCtorEq, and_false, false_or] at hmem
    rcases hmem with ⟨_, rfl⟩ | ⟨_, rfl⟩ | ⟨_, rfl⟩ <;> decide
  obtain ⟨⟨a, w', hend⟩, hall⟩ := sweep_evicts_oldest Sample.crowded_stored hversions
    { batchSize := 1, maxBatches := 0 } (Sample.second 5)
  obtain ⟨evicted, degraded, rfl, hevicts⟩ := hall a w' hend
  have hcount : evicted.length = 1 := by
    rw [hevicts.count]
    decide
  rw [hcount] at hend
  exact ⟨evicted, degraded, w', hend, hcount, hevicts⟩

end SessionCluster
