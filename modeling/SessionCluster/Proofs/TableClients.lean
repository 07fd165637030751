/-
  Clients of the table — coordinators and sweepers pass in only versions that fit.

  Whatever others do in between, a version is expected only after a record of it was read, and a record
  is inserted one above a tombstone that was read, or at the first version.  This is a walk along every
  operation: it is answered anything, and calls on the store answer what they may at some moment.

  * `Slots.Sound` — the contents of kept rows: versions in range, each record under its own key;
  * `Seemly` — what is left of an operation passes in only versions that fit;
  * `Slots.Below` — the versions that a creation may start above, the invariant of its rounds;
  * `Call.seemly` — every call is seemly.
-/
import SessionCluster.Proofs.Calls
import SessionCluster.Proofs.TableCalls

namespace SessionCluster

open Table

/-! ## Contents in range -/

/-- Contents with versions in range and each record under its own key. -/
structure Slots.Sound (s : Slots) : Prop where
  pos : ∀ {key slot}, s.get? key = some slot → 0 < slot.version.number
  lt : ∀ {key slot}, s.get? key = some slot → slot.version.number < 9223372036854775808
  keyed : ∀ {key r}, s.live? key = some r → r.key = key

/-- The content of a table that is kept is sound. -/
theorem Table.Kept.sound {t : List Entry} (h : Kept t) : (content t).Sound := by
  refine ⟨fun hget => ?_, fun hget => ?_, fun hl => ?_⟩
  · obtain ⟨e, _, hholds⟩ := h.holds_of_get hget
    exact hholds.version_pos
  · obtain ⟨e, _, hholds⟩ := h.holds_of_get hget
    exact hholds.version_lt
  · obtain ⟨e, _, hholds⟩ := h.holds_of_get (Slots.live?_eq_some.mp hl)
    exact hholds.key_of_live

/-- A conditional write misses where there is no record. -/
theorem Slots.live?_of_missing {s : Slots} {key : SessionKey} {v : Version}
    (h : s.writeOutcome key v = .missing) : s.live? key = none := by
  cases hl : s.live? key with
  | none => rfl
  | some cur =>
    rw [Slots.writeOutcome_of_live hl] at h
    split at h
    · cases h
    · cases h

/-! ## Operations that pass in versions that fit -/

/-- What is left of an operation passes in only versions that fit, if the content grows, and calls on
    the store that the table can take answer what they may at a moment before they go on. -/
def Seemly {α : Type} : Operation α → Slots → Prop
  | .done _, _ => True
  | .ask (.store c) next, s =>
    c.Fits s ∧ (∀ x, (∀ o, x ≠ some (.ok o)) → Seemly (next x) s) ∧
      (c.Storable → ∀ s₁, s.Grows s₁ → s₁.Sound → ∀ o, Answers s₁ c o →
        Seemly (next (some (.ok o))) (s₁.apply c).2.1)
  | .ask _ next, s => ∀ x, Seemly (next x) s

section

variable {α : Type} {s : Slots} {key : SessionKey}

/-- What is seemly now is seemly later, as the content only grows. -/
theorem Seemly.mono {p : Operation α} : ∀ {s s' : Slots}, Seemly p s → s.Grows s' → Seemly p s' := by
  induction p with
  | done a => exact fun _ _ => trivial
  | ask q next ih =>
    intro s s' h hg
    cases q with
    | store c =>
      obtain ⟨hfits, hfail, hok⟩ := h
      exact ⟨hfits.mono hg, fun x hx => ih x (hfail x hx) hg, fun hc s₁ hg₁ => hok hc s₁ (hg.trans hg₁)⟩
    | _ => exact fun x => ih x (h x) hg

/-- What is asked besides the store makes no difference. -/
theorem Seemly.answer {q : Request} {next : q.Answer → Operation α} (h : Seemly (.ask q next) s)
    (hq : ∀ c, q ≠ .store c) (x : q.Answer) : Seemly (next x) s := by
  cases q with
  | store c => exact absurd rfl (hq c)
  | _ => exact h x

/-- A call on the store whose failures end the operation. -/
theorem Seemly.storeCall {settings : CoordinatorSettings} {c : StoreCall}
    {next : c.Outcome → Operation (Except SessionError α)} (hfits : c.Fits s)
    (h : ∀ s₁, s.Grows s₁ → s₁.Sound → ∀ o, Answers s₁ c o → Seemly (next o) (s₁.apply c).2.1) :
    Seemly (Coordinator.storeCall settings c next) s := by
  refine ⟨hfits, fun x hx => ?_, fun _ => h⟩
  rcases x with _ | f | o
  · trivial
  · trivial
  · exact absurd rfl (hx o)

/-- Reading what is present. -/
theorem Seemly.loadLive {settings : CoordinatorSettings} {now : Instant}
    {next : Record → Operation (Except SessionError α)}
    (h : ∀ (s₁ : Slots) r, s₁.Sound → s₁.live? key = some r → Seemly (next r) s₁) :
    Seemly (Coordinator.loadLive settings key now next) s := by
  refine .storeCall trivial fun s₁ _ hsound o ho => ?_
  obtain rfl : o = s₁.live? key := ho
  show Seemly _ s₁
  cases hl : s₁.live? key with
  | none => trivial
  | some r =>
    simp only
    split
    · trivial
    · exact h s₁ r hsound hl

theorem Seemly.commit (key : SessionKey) (value : α) (earlier : List Change) (own : Change)
    (s : Slots) : Seemly (Coordinator.commit key value earlier own) s := fun _ _ _ _ => trivial

/-- The successor of a record that was read replaces it. -/
theorem Seemly.swap (settings : CoordinatorSettings) {cur next : Record} {now : Instant}
    (hsound : s.Sound) (hl : s.live? key = some cur) (hk : next.key = cur.key)
    (hv : next.version = cur.version.next) :
    Seemly (Coordinator.swap settings key cur.version next now) s := by
  have hlt := hsound.lt (Slots.live?_eq_some.mp hl)
  refine .storeCall ⟨hk.trans (hsound.keyed hl), ?_, .inr ⟨cur, hl, rfl⟩⟩ fun s₁ _ _ o _ => ?_
  · have hlow : cur.version.number < 9223372036854775808 := hlt
    rw [hv, Version.next_number (by omega)]
    omega
  · cases o with
    | applied => exact Seemly.commit _ _ _ _ _
    | conflict latest => trivial
    | missing => trivial

/-! ## Creating -/

/-- A version that a creation may start above: the key has reached it, and a record of the key is
    above it. -/
structure Slots.Below (s : Slots) (key : SessionKey) (n : Nat) : Prop where
  low : n < 18446744073709551615
  reached : n ≤ s.versionOf key
  live : ∀ cur, s.live? key = some cur → n < cur.version.number

/-- Above such a version, an insertion fits. -/
theorem Slots.Below.fits {r : Record} {n : Nat} (h : s.Below key n) (hk : r.key = key)
    (hv : r.version.number = n + 1) : (StoreCall.insert r).Fits s := by
  subst hk
  refine ⟨by omega, ?_, fun cur hl => ?_⟩
  · have hreached := h.reached
    omega
  · have hlt := h.live cur hl
    omega

/-- A creation may start above a tombstone. -/
theorem Slots.Sound.below_tombstone {u : Version} (h : s.Sound)
    (hget : s.get? key = some (.tombstone u)) : s.Below key u.number where
  low := Nat.lt_trans (h.lt hget) (by decide)
  reached := Nat.le_of_eq (versionOf_of_get hget).symm
  live cur hl := by
    rw [live?_eq_some, hget] at hl
    cases hl

/-- A creation may start above the end of a record that somebody has removed. -/
theorem Slots.Sound.below_gone {s' : Slots} {cur : Record} (h : s.Sound)
    (hl : s.live? key = some cur) (hg : s.Grows s') (hgone : s'.live? key = none) :
    s'.Below key cur.tombstoneVersion.number := by
  have hlt : cur.version.number < 9223372036854775808 := h.lt (live?_eq_some.mp hl)
  have hnext : cur.tombstoneVersion.number = cur.version.number + 1 :=
    Version.next_number (by omega)
  refine ⟨by omega, ?reached, fun other hother => ?live⟩
  case reached =>
    have hup := hg.up_of_gone hl hgone
    omega
  case live =>
    rw [hgone] at hother
    cases hother

/-- An expired record in the way is replaced, two versions above it; or somebody has removed it, and
    the creation goes on. -/
theorem Seemly.replace {settings : CoordinatorSettings} {cur r : Record}
    {next : WriteOutcome → Operation (Except SessionError α)} (hsound : s.Sound)
    (hl : s.live? key = some cur) (hk : r.key = cur.key)
    (hr : r.version = cur.version.next.next) (happlied : ∀ s', Seemly (next .applied) s')
    (hconflict : ∀ latest s', Seemly (next (.conflict latest)) s')
    (hgone : ∀ s', s'.Below key cur.tombstoneVersion.number → Seemly (next .missing) s') :
    Seemly (Coordinator.storeCall settings (.swap key cur.version r) next) s := by
  -- the version is far below the last, so the new one is exactly two above
  have hlt : cur.version.number < 9223372036854775808 := hsound.lt (Slots.live?_eq_some.mp hl)
  have hnext : cur.version.next.number = cur.version.number + 1 := Version.next_number (by omega)
  have hnext₂ : cur.version.next.next.number = cur.version.number + 2 := by
    rw [Version.next_number (by omega), hnext]
  refine .storeCall ⟨hk.trans (hsound.keyed hl), ?_, .inr ⟨cur, hl, rfl⟩⟩ fun s' hg _ o ho => ?_
  · rw [hr]
    omega
  · cases o with
    | applied => exact happlied _
    | conflict latest => exact hconflict latest _
    | missing =>
      -- the record is gone: since versions only rise, a tombstone above it is what is left
      have hmissing : s'.live? key = none := by
        refine Slots.live?_of_missing (v := cur.version) ?_
        rw [← Slots.apply_swap_outcome]
        exact ho.symm
      rw [Slots.apply_swap_missing hmissing]
      exact hgone s' (hsound.below_gone hl hg hmissing)

/-- The rounds of a creation: each starts above a version that the key has reached. -/
theorem createFrom_seemly (settings : CoordinatorSettings) (key : SessionKey) (payload : Json)
    (ttl : Span) (now : Instant) (rounds : Nat) :
    ∀ t s, s.Below key (startOf t) →
      Seemly (Coordinator.createFrom settings key payload ttl now rounds t) s := by
  induction rounds with
  | zero => exact fun _ _ _ => trivial
  | succ rounds ih =>
    intro t s hbelow
    obtain ⟨v, hv, hfresh⟩ := fresh_eq settings key payload ttl now hbelow.low
    unfold Coordinator.createFrom
    rw [hfresh]
    refine .storeCall (hbelow.fits rfl hv) fun s₁ hg₁ hsound₁ o ho => ?_
    obtain rfl : o = (s₁.apply (.insert ⟨key, payload, v, settings.node, now, now, now.plus ttl⟩)).1 := ho
    cases hget : s₁.get? key with
    | none =>
      rw [Slots.apply_insert_unused hget]
      exact Seemly.commit _ _ _ _ _
    | some slot =>
      cases slot with
      | tombstone u =>
        by_cases hle : v ≤ u
        · -- the tombstone is above: the next round starts there
          rw [Slots.apply_insert_below hget hle]
          exact ih (some u) s₁ (hsound₁.below_tombstone hget)
        · rw [Slots.apply_insert_above hget hle]
          exact Seemly.commit _ _ _ _ _
      | live cur =>
        have hl : s₁.live? key = some cur := Slots.live?_eq_some.mpr hget
        rw [Slots.apply_insert_live hl]
        simp only
        split
        · trivial
        · -- the record in the way has expired
          exact .replace hsound₁ hl rfl rfl (fun _ => Seemly.commit _ _ _ _ _) (fun _ _ => trivial)
            fun s' hgone => ih (some cur.tombstoneVersion) s' hgone

/-! ## Sweeping -/

/-- A batch removes what it has met. -/
theorem evict_seemly {settings : SweeperSettings} {now : Instant}
    {next : Nat → Sweeper.Progress → Operation (Except SessionError α)}
    (hnext : ∀ removed p s, Seemly (next removed p) s) (batch : List Record) :
    ∀ removed p (s : Slots), (∀ r ∈ batch, s.Met r.key r.version) →
      Seemly (Sweeper.evict settings now next batch removed p) s := by
  induction batch with
  | nil => exact fun removed p s _ => hnext removed p s
  | cons r batch ih =>
    intro removed p s hmet
    have hr : s.Met r.key r.version := hmet r (List.mem_cons_self ..)
    refine ⟨hr, fun x hx => ?_, fun hc s₁ hg₁ _ o _ => ?_⟩
    · rcases x with _ | f | o
      · trivial
      · trivial
      · exact absurd rfl (hx o)
    · have hfits : (StoreCall.remove r.key r.version).Fits s₁ := hr.mono hg₁
      have hgrows : s.Grows (s₁.apply (.remove r.key r.version)).2.1 := hg₁.trans (hfits.grows hc)
      have hlater : ∀ r' ∈ batch, (s₁.apply (.remove r.key r.version)).2.1.Met r'.key r'.version :=
        fun r' hr' => (hmet r' (List.mem_cons_of_mem _ hr')).mono hgrows
      cases o with
      | applied => exact fun _ _ => ih _ _ _ hlater
      | conflict latest => exact ih _ _ _ hlater
      | missing => exact ih _ _ _ hlater

/-- All batches are seemly: each removes what its own scan has met. -/
theorem batches_seemly (settings : SweeperSettings) (now : Instant) (rounds : Nat) :
    ∀ p s, Seemly (Sweeper.batches settings now rounds p) s := by
  have hreport (p : Sweeper.Progress) (s : Slots) : Seemly (Sweeper.report p) s := fun _ => trivial
  induction rounds with
  | zero => exact hreport
  | succ rounds ih =>
    intro p s
    refine ⟨trivial, fun x hx => ?_, fun _ s₁ _ _ batch hbatch => ?_⟩
    · rcases x with _ | f | o
      · trivial
      · trivial
      · exact absurd rfl (hx o)
    · refine evict_seemly (fun removed p s => ?_) batch 0 p s₁ fun r hr => .inr ⟨r, hbatch r hr, rfl⟩
      simp only
      split
      · exact hreport _ _
      · exact ih _ _

/-- **Every call is seemly.** -/
theorem Call.seemly (c : Call) {s : Slots} (hs : s.Sound) : Seemly c.operation s := by
  cases c with
  | create settings key payload ttl =>
    -- refused arguments end the call before it asks for anything
    simp only [operation, Coordinator.create]
    cases Coordinator.checkLifetime settings "ttl_ms" ttl with
    | error e => trivial
    | ok u =>
      cases Coordinator.checkPayload settings payload with
      | error e => trivial
      | ok u =>
        -- versions in the table are positive, as the first round of a creation needs
        refine fun now => createFrom_seemly settings key payload ttl now _ none s
          ⟨by decide, Nat.zero_le _, fun cur hl => ?_⟩
        exact hs.pos (Slots.live?_eq_some.mp hl)
  | get settings key =>
    refine fun now copy => ?_
    cases copy with
    -- a read without a copy asks for the record, and writes nothing
    | some r => trivial
    | none =>
      refine .loadLive fun s₁ r _ _ => ?_
      simp only
      split
      · trivial
      · exact fun _ => trivial
  | update settings key expected payload =>
    simp only [operation, Coordinator.update]
    cases Coordinator.checkPayload settings payload with
    | error e => trivial
    | ok u =>
      -- a swap names the version it has read, so it is the one above that is written
      refine fun now => .loadLive fun s₁ r hsound hl => ?_
      by_cases hv : r.version = expected
      · subst hv
        rw [if_neg (not_not_intro rfl)]
        exact .swap settings hsound hl rfl rfl
      · rw [if_pos hv]
        trivial
  -- so does a removal
  | delete settings key expected =>
    refine fun now => .loadLive fun s₁ r hsound hl => ?_
    by_cases hv : r.version = expected
    · subst hv
      rw [if_neg (not_not_intro rfl)]
      refine .storeCall (.inr ⟨r, hl, rfl⟩) fun s₂ _ _ o _ => ?_
      cases o with
      | applied => exact Seemly.commit _ _ _ _ _
      | conflict latest => trivial
      | missing => trivial
    · rw [if_pos hv]
      trivial
  | touch settings key extendBy =>
    simp only [operation, Coordinator.touch]
    cases Coordinator.checkLifetime settings "extend_by_ms" extendBy with
    | error e => trivial
    -- and the swap of a touch
    | ok u => exact fun now => .loadLive fun s₁ r hsound hl => .swap settings hsound hl rfl rfl
  | sweep settings => exact fun now => batches_seemly settings now _ _ _

end

end SessionCluster
