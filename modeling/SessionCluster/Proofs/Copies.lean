/-
  Copies — what calls on the cache in memory do to its entries.

  A call on a cache that is marked unavailable fails and does nothing.  Otherwise a look finds the
  entry of its key if that is still served, and drops it if not; a copy takes the place of the
  entry of its key; a removal drops it.  No call but a copy adds an entry.
-/
import SessionCluster.Cache.Memory

namespace SessionCluster.MemoryCache

variable {c : MemoryCache} {tick : Nat} {key : SessionKey} {r : Record}

theorem call_unavailable (hu : c.unavailable = true) (q : CacheCall) :
    c.call tick q = (c, .error fault) := by
  cases q <;> simp [call, hu]

/-- A look that finds something. -/
theorem call_get_hit (hu : c.unavailable = false) (hr : c.fresh? tick key = some r) :
    c.call tick (.get key) = ({ c with hits := c.hits + 1 }, .ok (some r)) := by
  simp [call, hu, hr]

/-- A look that finds nothing. -/
theorem call_get_miss (hu : c.unavailable = false) (hr : c.fresh? tick key = none) :
    c.call tick (.get key) =
      ({ c with misses := c.misses + 1, entries := c.without key }, .ok none) := by
  simp [call, hu, hr]

theorem call_set (hu : c.unavailable = false) (freshFor : Span) :
    c.call tick (.set r freshFor) = (c.plant tick r freshFor, .ok ()) := by
  simp [call, hu]

theorem call_remove (hu : c.unavailable = false) :
    c.call tick (.remove key) =
      ({ c with entries := c.without key, removals := c.removals + 1 }, .ok ()) := by
  simp [call, hu]

/-- What is found is an entry that is still served. -/
theorem mem_of_fresh? (h : c.fresh? tick key = some r) :
    ∃ e : CacheEntry, (key, e) ∈ c.entries ∧ e.record = r ∧ nanosAt tick < e.freshUntil := by
  unfold fresh? at h
  cases he : c.entries.lookup key with
  | none =>
    rw [he] at h
    cases h
  | some e =>
    rw [he] at h
    obtain ⟨l₁, l₂, heq, _⟩ := List.lookup_eq_some_iff.mp he
    have hmem : (key, e) ∈ c.entries := by
      rw [heq]
      simp
    by_cases hlt : nanosAt tick < e.freshUntil
    · simp only [if_pos hlt, Option.some.injEq] at h
      exact ⟨e, hmem, h, hlt⟩
    · simp only [if_neg hlt] at h
      cases h

theorem mem_without {x : SessionKey × CacheEntry} (h : x ∈ c.without key) : x ∈ c.entries :=
  (List.mem_filter.mp h).1

/-- A look adds no entry, and leaves those that it finds. -/
theorem call_get (c : MemoryCache) (tick : Nat) (key : SessionKey) :
    (∀ x ∈ (c.call tick (.get key)).1.entries, x ∈ c.entries) ∧
      ∀ r, (c.call tick (.get key)).2 = .ok (some r) →
        ∃ e : CacheEntry, (key, e) ∈ (c.call tick (.get key)).1.entries ∧ e.record = r ∧
          nanosAt tick < e.freshUntil := by
  cases hu : c.unavailable with
  | true =>
    rw [call_unavailable hu]
    refine ⟨fun _ hx => hx, fun r hr => ?_⟩
    cases hr
  | false =>
    cases hr : c.fresh? tick key with
    | none =>
      rw [call_get_miss hu hr]
      refine ⟨fun _ hx => mem_without hx, fun r hr => ?_⟩
      cases hr
    | some r =>
      rw [call_get_hit hu hr]
      refine ⟨fun _ hx => hx, ?_⟩
      rintro _ ⟨⟩
      exact mem_of_fresh? hr

/-- A removal adds no entry. -/
theorem call_remove_mem (c : MemoryCache) (tick : Nat) (key : SessionKey) :
    ∀ x ∈ (c.call tick (.remove key)).1.entries, x ∈ c.entries := by
  cases hu : c.unavailable with
  | true =>
    rw [call_unavailable hu]
    exact fun _ hx => hx
  | false =>
    rw [call_remove hu]
    exact fun _ hx => mem_without hx

end SessionCluster.MemoryCache
