/-
  Sweeps — what a sweep removes when nobody acts in between.

  Every record that a batch lists is still there when its turn comes, so it is removed and announced.
  The next batch lists those that come after: the expired records are sorted by their expiry, and
  taking some away leaves the order of the others (`mergeSort_sublist`).  So a sweep removes the
  first of them all, as many as its batches hold (`Solo.comes_clears`), whatever the cache holds
  copies of; and where every copy was the live record of its key, it still is (`Solo.comes_sweep`).
-/
import Mathlib.Data.List.Nodup
import Mathlib.Data.List.Perm.Subperm
import SessionCluster.Proofs.Alone
import SessionCluster.Proofs.Instants

namespace SessionCluster

/-! ## Sorting -/

/-- Sorting keeps sublists: what is left out makes no difference to the order of the others. -/
theorem mergeSort_sublist {α : Type} {le : α → α → Bool}
    (trans : ∀ a b c, le a b = true → le b c = true → le a c = true)
    (total : ∀ a b, (le a b || le b a) = true) {l l' : List α} (h : l.Sublist l') :
    (l.mergeSort le).Sublist (l'.mergeSort le) := by
  induction h with
  | slnil => exact .refl _
  | @cons l l' a _ ih =>
    obtain ⟨l₁, l₂, hsort, hrest, _⟩ := List.mergeSort_cons trans total a l'
    rw [hsort]
    rw [hrest] at ih
    exact ih.trans (.append_left (List.sublist_cons_self a l₂) l₁)
  | @cons_cons l l' a _ ih =>
    -- in both lists, the element stands between those that go before it and those that do not
    obtain ⟨p₁, p₂, hp, hprest, hpless⟩ := List.mergeSort_cons trans total a l
    obtain ⟨q₁, q₂, hq, hqrest, hqless⟩ := List.mergeSort_cons trans total a l'
    have hsplit {m₁ m₂ m : List α} (hm : (a :: m).mergeSort le = m₁ ++ a :: m₂)
        (hless : ∀ b ∈ m₁, (!le a b) = true) :
        (m₁ ++ m₂).filter (fun b => !le a b) = m₁ ∧ (m₁ ++ m₂).filter (fun b => le a b) = m₂ := by
      have hsorted := List.pairwise_mergeSort trans total (a :: m)
      rw [hm] at hsorted
      have hmore : ∀ b ∈ m₂, le a b = true :=
        (List.pairwise_cons.mp (List.pairwise_append.mp hsorted).2.1).1
      rw [List.filter_append, List.filter_append]
      constructor
      · rw [List.filter_eq_self.mpr hless, List.filter_eq_nil_iff.mpr, List.append_nil]
        intro b hb
        simp [hmore b hb]
      · rw [List.filter_eq_self.mpr hmore, List.filter_eq_nil_iff.mpr, List.nil_append]
        intro b hb
        simpa using hless b hb
    obtain ⟨hp₁, hp₂⟩ := hsplit hp hpless
    obtain ⟨hq₁, hq₂⟩ := hsplit hq hqless
    rw [hprest, hqrest] at ih
    have hbefore := ih.filter fun b => !le a b
    have hafter := ih.filter fun b => le a b
    rw [hp₁, hq₁] at hbefore
    rw [hp₂, hq₂] at hafter
    rw [hp, hq]
    exact hbefore.append (hafter.cons_cons a)

/-! ## The expired records -/

namespace Slots

/-- All expired records, earliest expiry first. -/
def allExpired (s : Slots) (now : Instant) : List Record :=
  (s.liveRecords.filter (·.isExpiredAt now)).mergeSort fun a b => !b.expiresAt.before a.expiresAt

theorem expired_eq (s : Slots) (now : Instant) (limit : Nat) :
    s.expired now limit = (s.allExpired now).take limit := rfl

theorem byExpiry_trans (a b c : Record) (hab : (!b.expiresAt.before a.expiresAt) = true)
    (hbc : (!c.expiresAt.before b.expiresAt) = true) :
    (!c.expiresAt.before a.expiresAt) = true := by
  simp only [Bool.not_eq_true'] at *
  exact le_trans (show a.expiresAt ≤ b.expiresAt from hab) hbc

theorem byExpiry_total (a b : Record) :
    (!b.expiresAt.before a.expiresAt || !a.expiresAt.before b.expiresAt) = true := by
  have hab : a.expiresAt ≤ b.expiresAt ∨ b.expiresAt ≤ a.expiresAt := le_total _ _
  rcases hab with h | h
  · rw [show b.expiresAt.before a.expiresAt = false from h]
    rfl
  · rw [show a.expiresAt.before b.expiresAt = false from h, Bool.not_false, Bool.or_true]

theorem sortedSublist {l l' : List Record} (h : l.Sublist l') :
    (l.mergeSort fun a b => !b.expiresAt.before a.expiresAt).Sublist
      (l'.mergeSort fun a b => !b.expiresAt.before a.expiresAt) :=
  mergeSort_sublist byExpiry_trans byExpiry_total h

variable {s : Slots} {now : Instant}

/-- The live records are those that are found under their keys. -/
theorem mem_liveRecords (hk : s.Keyed) (hd : (s.entries.map Prod.fst).Nodup) {r : Record} :
    r ∈ s.liveRecords ↔ s.live? r.key = some r := by
  rw [live?_eq_some]
  constructor
  · intro h
    obtain ⟨⟨key, slot⟩, hmem, hslot⟩ := List.mem_filterMap.mp h
    cases slot with
    | tombstone v => cases hslot
    | live r' =>
      cases hslot
      have hget := get?_of_mem hd hmem
      rwa [hk key r (live?_eq_some.mpr hget)]
  · intro h
    exact List.mem_filterMap.mpr ⟨(r.key, .live r), mem_of_get? h, rfl⟩

theorem mem_allExpired (hk : s.Keyed) (hd : (s.entries.map Prod.fst).Nodup) {r : Record} :
    r ∈ s.allExpired now ↔ s.live? r.key = some r ∧ r.isExpiredAt now = true := by
  unfold allExpired
  rw [(List.mergeSort_perm _ _).mem_iff, List.mem_filter, mem_liveRecords hk hd]

/-- No two expired records are of one key. -/
theorem nodup_allExpired (hk : s.Keyed) (hd : (s.entries.map Prod.fst).Nodup) :
    ((s.allExpired now).map Record.key).Nodup := by
  have hkeys (es : List (SessionKey × Slot)) (h : ∀ e ∈ es, ∀ r, e.2 = .live r → r.key = e.1) :
      ((es.filterMap fun e => e.2.record?).map Record.key).Sublist (es.map Prod.fst) := by
    induction es with
    | nil => exact .slnil
    | cons e es ih =>
      obtain ⟨key, slot⟩ := e
      have hrest := ih fun e he => h e (List.mem_cons_of_mem _ he)
      cases slot with
      | tombstone v => exact hrest.cons key
      | live r =>
        have hkey : r.key = key := h (key, .live r) (List.mem_cons_self ..) r rfl
        show (r.key :: _).Sublist (key :: _)
        rw [hkey]
        exact hrest.cons_cons key
  have hlive : (s.liveRecords.map Record.key).Nodup := by
    refine hd.sublist (hkeys s.entries ?_)
    rintro ⟨key, slot⟩ he r rfl
    exact hk key r (live?_eq_some.mpr (get?_of_mem hd he))
  have hfiltered : ((s.liveRecords.filter (·.isExpiredAt now)).map Record.key).Nodup :=
    hlive.sublist (List.filter_sublist.map Record.key)
  exact ((List.mergeSort_perm _ _).map Record.key).nodup_iff.mpr hfiltered

/-! ## The end of records -/

variable {r : Record}

theorem live?_end (s : Slots) (r : Record) (key : SessionKey) :
    (s.end_ r).live? key = if key = r.key then none else s.live? key := by
  unfold end_
  rw [live?_put]
  rfl

theorem keyed_end (hk : s.Keyed) (r : Record) : (s.end_ r).Keyed := by
  refine hk.put ?_
  rintro r' ⟨⟩

theorem nodup_end (hd : (s.entries.map Prod.fst).Nodup) (r : Record) :
    ((s.end_ r).entries.map Prod.fst).Nodup := nodup_put hd _ _

/-- After the end of a record, those that have expired are some of those from before. -/
theorem allExpired_end_sublist (s : Slots) (r : Record) (now : Instant) :
    ((s.end_ r).allExpired now).Sublist (s.allExpired now) := by
  have hput (key : SessionKey) (v : Version) (es : List (SessionKey × Slot)) :
      ((putEntry key (.tombstone v) es).filterMap fun e => e.2.record?).Sublist
        (es.filterMap fun e => e.2.record?) := by
    induction es with
    | nil => exact .slnil
    | cons e es ih =>
      obtain ⟨k, slot⟩ := e
      by_cases hk : k = key
      · simp only [putEntry, if_pos hk, List.filterMap_cons, Slot.record?]
        cases slot with
        | tombstone v => exact .refl _
        | live r => exact List.sublist_cons_self ..
      · simp only [putEntry, if_neg hk, List.filterMap_cons]
        cases slot with
        | tombstone v => exact ih
        | live r => exact ih.cons_cons r
  exact sortedSublist ((hput _ _ _).filter _)

/-- **After the end of the first expired record, the others are left**, in their order. -/
theorem allExpired_end (hk : s.Keyed) (hd : (s.entries.map Prod.fst).Nodup) {rest : List Record}
    (h : s.allExpired now = r :: rest) : (s.end_ r).allExpired now = rest := by
  have hnodup : ((s.allExpired now).map Record.key).Nodup := nodup_allExpired hk hd
  rw [h] at hnodup
  obtain ⟨hfirst, hrest⟩ := List.nodup_cons.mp hnodup
  have hsub := allExpired_end_sublist s r now
  rw [h] at hsub
  -- the record that was ended has left the list
  have hgone : r ∉ (s.end_ r).allExpired now := by
    rw [mem_allExpired (keyed_end hk r) (nodup_end hd r), live?_end, if_pos rfl]
    rintro ⟨⟨⟩, _⟩
  -- so what is left of the list misses it, and misses nothing else of the rest
  have hothers : ((s.end_ r).allExpired now).Sublist rest := by
    rcases List.sublist_cons_iff.mp hsub with h | ⟨l, heq, _⟩
    · exact h
    · rw [heq] at hgone
      exact absurd (List.mem_cons_self ..) hgone
  refine hothers.eq_of_length_le ?_
  -- and all the rest is in it: each still lives, under a key of its own
  refine (List.Nodup.subperm (List.Nodup.of_map Record.key hrest) ?_).length_le
  intro r' hr'
  have hmem : r' ∈ s.allExpired now := by
    rw [h]
    exact List.mem_cons_of_mem _ hr'
  obtain ⟨hl, he⟩ := (mem_allExpired hk hd).mp hmem
  refine (mem_allExpired (keyed_end hk r) (nodup_end hd r)).mpr ⟨?_, he⟩
  rw [live?_end, if_neg, hl]
  intro hsame
  exact hfirst (List.mem_map.mpr ⟨r', hr', hsame⟩)

/-- After the end of the first of them, the others are left. -/
theorem allExpired_swept (limit : Nat) :
    ∀ {s : Slots}, s.Keyed → (s.entries.map Prod.fst).Nodup →
      (s.swept now limit).allExpired now = (s.allExpired now).drop limit := by
  unfold swept
  simp only [expired_eq]
  induction limit with
  | zero => exact fun _ _ => rfl
  | succ limit ih =>
    intro s hk hd
    cases h : s.allExpired now with
    | nil => exact h
    | cons r rest =>
      have hend := allExpired_end hk hd h
      have hlater := ih (keyed_end hk r) (nodup_end hd r)
      rw [hend] at hlater
      exact hlater

/-- Two sweeps, one after the other, are one. -/
theorem swept_add (hk : s.Keyed) (hd : (s.entries.map Prod.fst).Nodup) (a b : Nat) :
    (s.swept now a).swept now b = s.swept now (a + b) ∧
      s.expired now a ++ (s.swept now a).expired now b = s.expired now (a + b) := by
  have hlater : (s.swept now a).expired now b = ((s.allExpired now).drop a).take b := by
    rw [expired_eq, allExpired_swept a hk hd]
  have hall : s.expired now (a + b) = s.expired now a ++ (s.swept now a).expired now b := by
    rw [hlater, expired_eq, expired_eq, List.take_add]
  refine ⟨?_, hall.symm⟩
  unfold swept
  unfold swept at hall
  rw [hall, List.foldl_append]

/-- A batch that is not full, or empty, is the last one. -/
theorem expired_last {size : Nat} (n : Nat)
    (h : (s.expired now size).length < size ∨ (s.expired now size).length = 0) :
    s.expired now (size * (n + 1)) = s.expired now size := by
  rw [expired_eq, List.length_take] at h
  rw [expired_eq, expired_eq]
  rcases Nat.eq_zero_or_pos size with rfl | hsize
  · rw [Nat.zero_mul]
  · have hall : (s.allExpired now).length ≤ size := by omega
    rw [List.take_of_length_le hall, List.take_of_length_le]
    exact Nat.le_trans hall (Nat.le_mul_of_pos_right size n.succ_pos)

end Slots

/-! ## A sweep alone -/

namespace Solo

variable {now : Instant} {w : Solo} {s : SweeperSettings} {α : Type}

/-- What a sweep relies on: every record is under its own key, and the cache is available.  It does
    not matter what the cache holds copies of. -/
structure Stored (w : Solo) : Prop where
  keyed : w.slots.Keyed
  distinct : (w.slots.entries.map Prod.fst).Nodup
  available : w.cache.unavailable = false

theorem Sound.stored (hw : w.Sound) : w.Stored := ⟨hw.keyed, hw.distinct, hw.available⟩

/-- The state after the end of a record: its tombstone stands in its place, its end has been
    announced, and its copy is gone. -/
def clear (now : Instant) (w : Solo) (r : Record) : Solo :=
  { w with
    slots := w.slots.end_ r
    cache := (w.cache.call 0 (.remove r.key)).1
    announced := w.announced ++ [r.expiry now] }

/-- The state after the end of several records, one after the other. -/
def cleared (now : Instant) (w : Solo) (rs : List Record) : Solo := rs.foldl (clear now) w

theorem cleared_slots (rs : List Record) :
    ∀ w : Solo, (w.cleared now rs).slots = rs.foldl Slots.end_ w.slots := by
  induction rs with
  | nil => exact fun _ => rfl
  | cons r rs ih => exact fun w => ih (w.clear now r)

/-- Ending some records announces the end of each, in order. -/
theorem cleared_announced (rs : List Record) :
    ∀ w : Solo, (w.cleared now rs).announced = w.announced ++ rs.map (·.expiry now) := by
  induction rs with
  | nil => exact fun w => (List.append_nil w.announced).symm
  | cons r rs ih =>
    intro w
    show ((w.clear now r).cleared now rs).announced = _
    rw [ih, List.map_cons]
    exact List.append_assoc w.announced [r.expiry now] _

theorem Stored.clear (hw : w.Stored) (r : Record) : (w.clear now r).Stored where
  keyed := Slots.keyed_end hw.keyed r
  distinct := Slots.nodup_end hw.distinct r
  available := by
    unfold Solo.clear
    rw [MemoryCache.call_remove hw.available]
    exact hw.available

/-- Ending a record leaves a sound world sound. -/
theorem Sound.clear (hw : w.Sound) (r : Record) : (w.clear now r).Sound := by
  have hslot : ∀ r', Slot.tombstone r.tombstoneVersion = .live r' → r'.key = r.key := by
    rintro r' ⟨⟩
  have hput := hw.put hslot
  exact Sound.removed (w := { w with
    slots := w.slots.put r.key (.tombstone r.tombstoneVersion)
    announced := w.announced ++ [r.expiry now] })
    ⟨hput.keyed, hput.distinct, hput.available, hput.current⟩ 0

theorem Stored.cleared (rs : List Record) :
    ∀ {w : Solo}, w.Stored → (w.cleared now rs).Stored := by
  induction rs with
  | nil => exact fun hw => hw
  | cons r rs ih => exact fun hw => ih (hw.clear r)

theorem Sound.cleared (rs : List Record) : ∀ {w : Solo}, w.Sound → (w.cleared now rs).Sound := by
  induction rs with
  | nil => exact fun hw => hw
  | cons r rs ih => exact fun hw => ih (hw.clear r)

/-- A call of a sweep on the store, alone: it is answered at once. -/
theorem comes_sweeperCall {Q : Except SessionError α → Solo → Prop} {c : StoreCall} {o : c.Outcome}
    {slots : Slots} {notice : Option Notice}
    {next : c.Outcome → Operation (Except SessionError α)}
    (ho : w.slots.apply c = (o, slots, notice))
    (h : Comes (Answers now) Q (next o) { w with slots := slots }) :
    Comes (Answers now) Q (Sweeper.storeCall s c next) w := by
  rintro x w₁ ⟨rfl, rfl⟩
  rw [ho]
  exact h

/-- The removal of the records of a batch: all of them are still there. -/
theorem comes_evict {Q : Except SessionError α → Solo → Prop}
    {next : Nat → Sweeper.Progress → Operation (Except SessionError α)} (rs : List Record) :
    ∀ {w : Solo} {removed : Nat} {p : Sweeper.Progress},
      (∀ r ∈ rs, w.slots.live? r.key = some r) → (rs.map Record.key).Nodup →
      (∀ p' : Sweeper.Progress, p'.evicted = p.evicted → p'.skipped = p.skipped →
        Comes (Answers now) Q (next (removed + rs.length) p') (w.cleared now rs)) →
      Comes (Answers now) Q (Sweeper.evict s now next rs removed p) w := by
  induction rs with
  | nil => exact fun _ _ h => h _ rfl rfl
  | cons r rs ih =>
    intro w removed p hlive hnodup h
    obtain ⟨hfirst, hrest⟩ := List.nodup_cons.mp hnodup
    have hl := hlive r (List.mem_cons_self ..)
    -- this record is still there, and the others stay: their keys are different
    refine comes_sweeperCall (Slots.apply_remove_applied hl rfl) ?_
    rintro ⟨pending, event⟩ _ ⟨_, rfl⟩
    rintro _ _ ⟨tick, rfl⟩
    refine ih (w := w.clear now r) ?_ hrest ?_
    · intro r' hr'
      show (w.slots.end_ r).live? r'.key = some r'
      rw [Slots.live?_end, if_neg]
      · exact hlive r' (List.mem_cons_of_mem _ hr')
      · intro hsame
        exact hfirst (List.mem_map.mpr ⟨r', hr', hsame⟩)
    · intro p' hevicted hskipped
      have hlen : removed + 1 + rs.length = removed + (r :: rs).length := by
        rw [List.length_cons]
        omega
      rw [hlen]
      exact h p' hevicted hskipped

/-- What becomes of a sweep that removes the first records of all that have expired, at most so
    many, and has done other things before. -/
def Clears (now : Instant) (w : Solo) (limit : Nat) (p : Sweeper.Progress)
    (a : Except SessionError SweepReport) (w' : Solo) : Prop :=
  w' = w.cleared now (w.slots.expired now limit) ∧
    ∃ degraded, a = .ok ⟨p.evicted + (w.slots.expired now limit).length, p.skipped, degraded⟩

/-- Batch after batch, the first records of all that have expired are removed. -/
theorem comes_batches (n : Nat) :
    ∀ {w : Solo} {p : Sweeper.Progress}, w.Stored →
      Comes (Answers now) (w.Clears now (s.batchSize * n) p) (Sweeper.batches s now n p) w := by
  induction n with
  | zero =>
    rintro w p _ warnings _ rfl
    exact ⟨rfl, warnings.length, rfl⟩
  | succ n ih =>
    intro w p hw
    refine comes_sweeperCall (c := .scan now s.batchSize) rfl ?_
    refine comes_evict (w.slots.expired now s.batchSize) ?_ ?_ ?_
    · intro r hr
      exact ((Slots.mem_allExpired hw.keyed hw.distinct).mp (List.mem_of_mem_take hr)).1
    · have hall : ((w.slots.allExpired now).map Record.key).Nodup :=
        Slots.nodup_allExpired hw.keyed hw.distinct
      exact hall.sublist ((List.take_sublist _ _).map Record.key)
    · intro p' hevicted hskipped
      rw [Nat.zero_add]
      by_cases hlast : (w.slots.expired now s.batchSize).length < s.batchSize ∨
          (w.slots.expired now s.batchSize).length = 0
      · rw [if_pos hlast]
        rintro warnings _ rfl
        have hsame := Slots.expired_last n hlast
        refine ⟨by rw [hsame], warnings.length, ?_⟩
        show Except.ok _ = _
        rw [hsame, hevicted, hskipped]
      · rw [if_neg hlast]
        -- the other batches are a sweep of their own, of what is left
        have hsize : s.batchSize + s.batchSize * n = s.batchSize * (n + 1) := by
          rw [Nat.mul_succ, Nat.add_comm]
        have hslots : (w.cleared now (w.slots.expired now s.batchSize)).slots =
            w.slots.swept now s.batchSize := cleared_slots _ w
        have hall : w.slots.expired now s.batchSize ++
            (w.cleared now (w.slots.expired now s.batchSize)).slots.expired now (s.batchSize * n) =
              w.slots.expired now (s.batchSize * (n + 1)) := by
          rw [hslots, ← hsize]
          exact (Slots.swept_add hw.keyed hw.distinct _ _).2
        refine (ih (hw.cleared _)).imp ?_
        rintro a w' ⟨rfl, degraded, rfl⟩
        refine ⟨?_, degraded, ?_⟩
        · rw [← hall]
          exact (List.foldl_append ..).symm
        · rw [← hall, List.length_append, hskipped]
          simp only [hevicted, Nat.add_assoc]

/-- **A sweep alone** removes the first of all that have expired, as many as its batches hold. -/
theorem comes_clears (hw : w.Stored) :
    Comes (Answers now) (w.Clears now (s.batchSize * max 1 s.maxBatches) {}) (Sweeper.sweep s) w :=
  comes_now (comes_batches (max 1 s.maxBatches) hw)

/-- What holds after a sweep that has removed at most so many records. -/
def Swept (now : Instant) (w : Solo) (limit : Nat) (p : Sweeper.Progress)
    (a : Except SessionError SweepReport) (w' : Solo) : Prop :=
  w.Settled ⟨(), w.slots.swept now limit, (w.slots.expired now limit).map (·.expiry now)⟩ () w' ∧
    ∃ degraded, a = .ok ⟨p.evicted + (w.slots.expired now limit).length, p.skipped, degraded⟩

/-- Where every copy is the live record of its key, a sweep leaves it so, and counts what it has
    removed. -/
theorem comes_sweep (hw : w.Sound) :
    Comes (Answers now) (Swept now w (s.batchSize * max 1 s.maxBatches) {}) (Sweeper.sweep s) w := by
  refine (comes_clears hw.stored).imp ?_
  rintro a _ ⟨rfl, hreport⟩
  exact ⟨⟨rfl, cleared_slots _ w, cleared_announced _ w, hw.cleared _⟩, hreport⟩

end Solo

end SessionCluster
