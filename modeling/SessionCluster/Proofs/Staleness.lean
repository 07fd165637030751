/-
  Staleness — how old a record may be that is read.

  A reading may find a copy in the cache that others have put there long ago, and it may put one
  there itself after the record has been overwritten: nothing compares versions.  What bounds the
  age is time alone.  A copy is put into the cache at the latest when the time limit for the cache
  is over, counted from the moment at which the record was live in the store, and it is served for
  the lifetime of copies at the most.  So the cache VOUCHES for a record that was live, for the sum
  of both spans, whatever becomes of the store in the meantime.

  * `reads_were_live` — every record that is answered was live not longer ago than that, under the
    key that was asked for, and had not expired; it is the only one of its version;
  * `reads_catch_up` — so a record is never answered once it has been overwritten for longer than
    that;
  * `overtaken_read` — but before that it is, even after the writer has been answered.
-/
import SessionCluster.Proofs.Duties
import SessionCluster.Proofs.Schedules
import SessionCluster.Proofs.Scripts

namespace SessionCluster

open MemoryCache (nanosAt)

/-! ## Terms -/

/-- The terms under which the cache vouches for what was live: it is served until at most a span
    after a moment at which it was. -/
def Terms.lasting (bound : Nat) (n : Node) : Terms where
  vouches h r served := ∃ m ∈ h.moments,
    m.state.memoryStore.slots.live? r.key = some r ∧ served ≤ nanosAt m.tick + bound
  kind := n.cacheKind
  hasBus := n.hasBus
  push := by
    rintro h m' r served ⟨m, hm, hlive, hle⟩
    exact ⟨m, List.mem_cons_of_mem _ hm, hlive, hle⟩

/-- Whether a span is in whole milliseconds. -/
def Span.IsWhole (d : Span) : Prop := d.ticks * 1000000 = d.nanos

instance (d : Span) : Decidable d.IsWhole := inferInstanceAs (Decidable (_ = _))

/-- Readings that serve copies for at most a lifetime, and wait for the cache for at most a span in
    whole milliseconds. -/
def Call.ReadsWithin (ttl timeout : Span) : Call → Prop
  | .get s _ => s.cacheTtl ≤ ttl ∧ s.cacheTimeout ≤ timeout ∧ s.cacheTimeout.IsWhole
  | .create .. | .update .. | .delete .. | .touch .. | .sweep _ => True

variable {n : Node} {ttl timeout : Span} {p : Process}

/-- Such readings keep to the terms. -/
theorem lasting_admits {s : CoordinatorSettings} (key : SessionKey)
    (hs : (Call.get s key).ReadsWithin ttl timeout) :
    (Terms.lasting (ttl.nanos + timeout.nanos) n).Admits s := by
  obtain ⟨httl, htimeout, hwhole⟩ := hs
  intro h h' r hlive hc hle served hserved
  refine ⟨h.now, hc.mem (List.mem_cons_self ..), hlive, ?_⟩
  have httl' : s.cacheTtl.nanos ≤ ttl.nanos := httl
  have htimeout' : s.cacheTimeout.nanos ≤ timeout.nanos := htimeout
  have hwhole' : s.cacheTimeout.ticks * 1000000 = s.cacheTimeout.nanos := hwhole
  unfold nanosAt
  omega

/-- A node that begins with nothing stored and nothing cached. -/
structure Node.Vacant (n : Node) : Prop extends n.Idle where
  stored : n.memoryStore.slots = {}
  cached : ∃ c, n.cache = .memory c ∧ c.entries = []

/-- Every run keeps to the terms. -/
theorem Node.Vacant.kept (hn : n.Vacant)
    (hp : Process.Runs (.rough (Call.ReadsWithin ttl timeout)) (.start n) p) :
    p.Kept (Terms.lasting (ttl.nanos + timeout.nanos) n).pact
      (.rough (Call.ReadsWithin ttl timeout)) (Terms.lasting (ttl.nanos + timeout.nanos) n).post := by
  have hgoverns := Terms.governs (T := .lasting (ttl.nanos + timeout.nanos) n)
    (C := .rough (Call.ReadsWithin ttl timeout)) (fun _ key hs => lasting_admits key hs)
    fun _ _ hn => hn
  refine Process.Kept.runs hgoverns (.start (hn.inv rfl rfl ?_)) hp
  intro x hx
  obtain ⟨c, hc, hempty⟩ := hn.cached
  have hnone : n.copies = [] := by simp only [Node.copies, Node.memoryCache, hc, hempty]
  rw [hnone] at hx
  cases hx

/-! ## What is read -/

/-- What is known of a record that a reading has answered, from the moment at which the reading
    began and the history up to its answer: it is of the key that was asked for, it had not expired
    when the clock was read, and it was live in the store not longer ago than a bound. -/
structure ReadWithin (bound : Nat) (key : SessionKey) (r : Record) (begun : Moment Node)
    (answered : History Node) : Prop where
  key_eq : r.key = key
  unexpired : r.isExpiredAt (begun.state.clock.at_ begun.tick) = false
  live : ∃ m ∈ answered.moments, m.state.memoryStore.slots.live? key = some r ∧
    nanosAt answered.now.tick ≤ nanosAt m.tick + bound

/-- Every reading that has answered with a record is known to have read it within the bound. -/
theorem Node.Vacant.readWithin (hn : n.Vacant)
    (hp : Process.Runs (.rough (Call.ReadsWithin ttl timeout)) (.start n) p)
    {s : CoordinatorSettings} {key : SessionKey} {first : Option (Moment Node)} {last : Nat}
    {r : Record}
    (hm : (⟨.call (.get s key), first, last, .done (.ok r)⟩ : Member) ∈ p.members) :
    ∃ (begun : Moment Node) (answered : History Node), first = some begun ∧
      answered.now.tick = last ∧ answered.Continues (fun _ _ => True) p.history ∧
      ReadWithin (ttl.nanos + timeout.nanos) key r begun answered := by
  have hkept := (hn.kept hp).members _ hm
  cases first with
  | none =>
    -- nobody has answered who has not begun
    have hrest : (.done (.ok r) : Activity Node Work (Except SessionError Record)) =
        (Role.call (.get s key)).activity := hkept.unbegun rfl
    cases hrest
  | some begun =>
    obtain ⟨answered, hcont, hlast, _, hread⟩ := hkept.begun begun rfl
    have hmemory : (Terms.lasting (ttl.nanos + timeout.nanos) n).kind ≠ .server := by
      obtain ⟨c, hc, _⟩ := hn.cached
      show n.cacheKind ≠ .server
      simp [Node.cacheKind, hc]
    obtain ⟨hkey, hfresh, served, hserved, m, hm, hlive, hle⟩ := hread hmemory r rfl
    refine ⟨begun, answered, rfl, hlast, hcont.mono fun _ _ _ => trivial, hkey, hfresh,
      m, hm, hkey ▸ hlive, Nat.le_trans hserved hle⟩

/-- Slots only climb, from any moment of a run to any later one. -/
theorem Terms.Inv.climbs {T : Terms} {h : History Node} (hh : T.Inv h) {m m' : Moment Node}
    (hm : m ∈ h.moments) (hm' : m' ∈ h.moments) :
    m.state.memoryStore.slots.Climbs m'.state.memoryStore.slots ∨
      m'.tick ≤ m.tick ∧ m'.state.memoryStore.slots.Climbs m.state.memoryStore.slots := by
  have hgrow := hh.growing
  generalize h.moments = ms at hm hm' hgrow
  induction ms with
  | nil => cases hm
  | cons m₀ ms ih =>
    obtain ⟨hfirst, hrest⟩ := List.pairwise_cons.mp hgrow
    rcases List.mem_cons.mp hm with rfl | hold
    · rcases List.mem_cons.mp hm' with rfl | hold'
      · exact .inl (.refl _)
      · exact .inr (hfirst m' hold')
    · rcases List.mem_cons.mp hm' with rfl | hold'
      · exact .inl (hfirst m hold).2
      · exact ih hold hold' hrest

/-! ## A run to try statements on

    A reading finds nothing in the cache and reads version 1 from the store.  Before its copy has
    reached the cache, an update writes version 2, removes the copy that is not there yet, and
    answers.  Then the copy arrives.
-/

/-- The key and the record that a member has answered, if it is a reading. -/
def Member.read? : Member → Option (SessionKey × Record)
  | ⟨.call (.get _ key), _, _, .done (.ok r)⟩ => some (key, r)
  | _ => none

/-- What a member has read is what its call has answered. -/
theorem Member.eq_of_read? {m : Member} {key : SessionKey} {r : Record}
    (h : m.read? = some (key, r)) :
    ∃ s, m = ⟨.call (.get s key), m.first, m.last, .done (.ok r)⟩ := by
  unfold read? at h
  split at h
  · cases h
    exact ⟨_, rfl⟩
  · cases h

/-- The key and the version that a member has written, if it is a change that has answered. -/
def Member.wrote? : Member → Option (SessionKey × Version)
  | ⟨.call (.create _ key _ _), _, _, .done (.ok c)⟩ => some (key, c.value.version)
  | ⟨.call (.update _ key _ _), _, _, .done (.ok c)⟩ => some (key, c.value.version)
  | ⟨.call (.touch _ key _), _, _, .done (.ok c)⟩ => some (key, c.value.version)
  | ⟨.call (.delete _ key _), _, _, .done (.ok c)⟩ => some (key, c.event.change.version)
  | _ => none

/-- The node with other delays of its store and its cache in memory, in milliseconds. -/
def Node.delayed (store cache : Nat) (n : Node) : Node :=
  { n with
    store := match n.store with
      | .memory m => .memory { m with latency := store }
      | .table t => .table t
    cache := match n.cache with
      | .memory c => .memory { c with latency := cache }
      | .absent => .absent
      | .server space => .server space }

/-- A node suffers delays. -/
theorem Node.suffers_delayed (n : Node) (store cache : Nat) : n.Suffers (n.delayed store cache) := by
  refine ⟨fun hn => ?_, ?_, rfl, ?_, ?_, rfl, fun _ => .refl _, rfl, .inl rfl⟩
  · obtain ⟨m, hm⟩ := hn.memory
    exact ⟨⟨_, by simp only [delayed, hm]; rfl⟩, hn.direct⟩
  · cases hc : n.cache <;> simp [cacheKind, delayed, hc]
  · cases hs : n.store <;> simp [pipeline, memoryStore, delayed, hs]
  · intro x hx
    cases hc : n.cache with
    | memory c => simpa [copies, memoryCache, delayed, hc] using hx
    | absent => simp [copies, memoryCache, delayed, hc] at hx
    | server space => simp [copies, memoryCache, delayed, hc] at hx

/-- Circumstances in which nothing ever fails, and the cache answers within less than a number of
    milliseconds. -/
def Circumstances.calm (calls : Call → Prop) (limit : Nat) : Circumstances where
  calls := calls
  changes n n' := ∃ store cache, cache < limit ∧ n' = n.delayed store cache

namespace Sample

/-- A node that begins, with one lane. -/
def vacantNode : Node where
  clock := .running .epoch
  lanes := .make { partitions := 1 }
  settings := settings

/-- The sample begins with nothing stored and nothing cached. -/
theorem vacantNode_vacant : vacantNode.Vacant where
  plain := ⟨⟨_, rfl⟩, rfl⟩
  keyed := by
    rintro key r ⟨⟩
  copied := by
    rintro x ⟨⟩
  queued i := by
    cases i <;> rfl
  begun := rfl
  accepted := rfl
  stored := rfl
  cached := ⟨_, rfl, rfl⟩

/-- A copy is put into the cache late, while the record is changed. -/
def lateCopy : List Cue :=
  [.poll 0, .call (.create settings key .null (.ofMillis 60000)), .poll 1, .poll 2, .poll 1,
   .poll 0, .poll 1, .renew 0, .poll 0,
   -- the reading waits for the store, and then for the cache
   .change (Node.delayed 10 0), .call (.get settings key), .poll 3,
   .change (Node.delayed 10 100), .pass 10, .poll 3, .change (Node.delayed 0 0),
   -- the update is quick
   .call (.update settings key .initial (.bool true)), .poll 4, .poll 5, .poll 4, .poll 0, .poll 4,
   .pass 110, .poll 3,
   -- two more readings, one of them long after
   .pass 111, .call (.get settings key), .poll 6, .pass 6000, .call (.get settings key), .poll 7]

/-- The process after all that. -/
def stale : Process := (Process.start vacantNode).follow lateCopy

/-- The sample's cues are within what the theorem allows. -/
theorem admits_lateCopy {C : Circumstances}
    (hcalls : ∀ c : Call, c.ReadsWithin (.ofMillis 5000) (.ofMillis 200) → C.calls c)
    (hdelays : ∀ n store cache, cache < 200 → C.changes n (n.delayed store cache)) :
    ∀ cue ∈ lateCopy, C.Admits cue := by
  have hget : (Call.get settings key).ReadsWithin (.ofMillis 5000) (.ofMillis 200) :=
    ⟨by decide, by decide, by decide⟩
  have hfast (store cache : Nat) (h : cache < 200) : C.Admits (.change (Node.delayed store cache)) :=
    fun n => hdelays n store cache h
  simp only [lateCopy, List.forall_mem_cons]
  refine ⟨trivial, hcalls _ trivial, trivial, trivial, trivial, trivial, trivial, trivial, trivial,
    hfast 10 0 (by decide), hcalls _ hget, trivial, hfast 10 100 (by decide), trivial, trivial,
    hfast 0 0 (by decide), hcalls _ trivial, trivial, trivial, trivial, trivial, trivial, trivial,
    trivial, trivial, hcalls _ hget, trivial, trivial, hcalls _ hget, trivial, nofun⟩

theorem runs_stale :
    Process.Runs (.rough (Call.ReadsWithin (.ofMillis 5000) (.ofMillis 200))) (.start vacantNode)
      stale :=
  Process.runs_follow lateCopy
    (admits_lateCopy (fun _ h => h) fun n store cache _ => n.suffers_delayed store cache) _

/-- Whether the member at a place is a reading that began at a tick and answered at another, with a
    record of a version. -/
def hasRead (i begun answered : Nat) (v : Version) : Bool :=
  stale.members[i]?.any fun g =>
    g.read?.map (fun x => (x.1, x.2.version)) = some (key, v) ∧
      g.first.map Moment.tick = some begun ∧ g.last = answered

/-- A reading that is found among the members is one of them. -/
theorem reading_of_hasRead {i begun answered : Nat} {v : Version}
    (h : hasRead i begun answered v = true) :
    ∃ s m r, (⟨.call (.get s key), some m, answered, .done (.ok r)⟩ : Member) ∈ stale.members ∧
      m.tick = begun ∧ r.version = v := by
  obtain ⟨g, hg, hseen⟩ := (Option.any_eq_true _ _).mp h
  obtain ⟨hread, hfirst, hlast⟩ := of_decide_eq_true hseen
  obtain ⟨⟨_, r⟩, hr, heq⟩ := Option.map_eq_some_iff.mp hread
  obtain ⟨m, hm, htick⟩ := Option.map_eq_some_iff.mp hfirst
  cases heq
  obtain ⟨s, hs⟩ := Member.eq_of_read? hr
  have hmem : g ∈ stale.members := List.mem_of_getElem? hg
  rw [hs, hm, hlast] at hmem
  exact ⟨s, m, r, hmem, htick, rfl⟩

end Sample

/-! ## Results -/

/-- **What is read was live.**  In every run that begins with nothing stored and nothing cached,
    whatever calls are made and whatever becomes of the backends: a record that a reading has
    answered is of the key that was asked for, had not expired when the reading looked at the clock,
    and was the live record of its key at a moment before the answer, by no more than the lifetime
    of copies and the time limit for the cache.  Below the last version, no other record was ever
    live at its version. -/
theorem reads_were_live (hn : n.Vacant)
    (hp : Process.Runs (.rough (Call.ReadsWithin ttl timeout)) (.start n) p)
    {s : CoordinatorSettings} {key : SessionKey} {first : Option (Moment Node)} {last : Nat}
    {r : Record}
    (hm : (⟨.call (.get s key), first, last, .done (.ok r)⟩ : Member) ∈ p.members) :
    ∃ (begun : Moment Node) (answered : History Node), first = some begun ∧
      answered.now.tick = last ∧ answered.Continues (fun _ _ => True) p.history ∧
      ReadWithin (ttl.nanos + timeout.nanos) key r begun answered ∧
      (r.version.number < lastVersion → ∀ m ∈ p.history.moments, ∀ r',
        m.state.memoryStore.slots.live? key = some r' → r'.version = r.version → r' = r) := by
  obtain ⟨begun, answered, hfirst, hlast, hcont, hread⟩ := hn.readWithin hp hm
  refine ⟨begun, answered, hfirst, hlast, hcont, hread, ?_⟩
  intro hbelow m hmem r' hr' hv
  obtain ⟨m₀, hm₀, hlive, _⟩ := hread.live
  -- a key stays at a version for as long as its slot stays, whichever moment was first
  have hversion : m.state.memoryStore.slots.versionOf key =
      m₀.state.memoryStore.slots.versionOf key := by
    rw [Slots.versionOf_of_live hr', Slots.versionOf_of_live hlive, hv]
  have hsame : m.state.memoryStore.slots.get? key = m₀.state.memoryStore.slots.get? key := by
    rcases (hn.kept hp).inv.climbs (hcont.mem hm₀) hmem with hup | ⟨_, hup⟩
    · refine hup.same_slot hversion ?_
      rwa [Slots.versionOf_of_live hlive]
    · refine (hup.same_slot hversion.symm ?_).symm
      rwa [Slots.versionOf_of_live hr', hv]
  -- both slots hold live records, and they are the same slot
  rw [Slots.live?_eq_some] at hr' hlive
  rw [hr', hlive] at hsame
  cases hsame
  rfl

/-- A record that has been overwritten is answered, and was live 5.2 seconds before at the most. -/
theorem sample_read_was_live : ∃ (r : Record) (begun : Moment Node) (answered : History Node),
    r.version = .initial ∧ answered.now.tick = 111 ∧
      answered.Continues (fun _ _ => True) Sample.stale.history ∧
      ReadWithin 5200000000 Sample.key r begun answered := by
  obtain ⟨s, m, r, hmem, _, hversion⟩ := Sample.reading_of_hasRead
    (show Sample.hasRead 6 111 111 .initial = true by decide +kernel)
  obtain ⟨begun, answered, _, htick, hcont, hread, _⟩ :=
    reads_were_live Sample.vacantNode_vacant Sample.runs_stale hmem
  exact ⟨r, begun, answered, hversion, htick, hcont, hread⟩

/-- **Readings catch up.**  A reading that answers later than the bound after a moment, answers with
    no version below the one at which its key stood then. -/
theorem reads_catch_up (hn : n.Vacant)
    (hp : Process.Runs (.rough (Call.ReadsWithin ttl timeout)) (.start n) p)
    {s : CoordinatorSettings} {key : SessionKey} {first : Option (Moment Node)} {last : Nat}
    {r : Record}
    (hm : (⟨.call (.get s key), first, last, .done (.ok r)⟩ : Member) ∈ p.members)
    {m : Moment Node} (hmem : m ∈ p.history.moments)
    (hlate : nanosAt m.tick + (ttl.nanos + timeout.nanos) < nanosAt last) :
    m.state.memoryStore.slots.versionOf key ≤ r.version.number := by
  obtain ⟨begun, answered, _, hlast, hcont, hread⟩ := hn.readWithin hp hm
  obtain ⟨m₀, hm₀, hlive, hle⟩ := hread.live
  rw [hlast] at hle
  have hafter : m.tick < m₀.tick := by
    unfold nanosAt at hlate hle
    omega
  rw [← Slots.versionOf_of_live hlive]
  rcases (hn.kept hp).inv.climbs hmem (hcont.mem hm₀) with hup | ⟨hbefore, _⟩
  · exact hup.versionOf_le key
  · omega

/-- Six seconds after the update, nobody is answered with less than what it has written. -/
theorem sample_read_catches_up : ∃ (r : Record) (m : Moment Node),
    m ∈ Sample.stale.history.moments ∧ m.tick = 10 ∧
      m.state.memoryStore.slots.versionOf Sample.key = 2 ∧ 2 ≤ r.version.number := by
  obtain ⟨s, first, r, hmem, _, _⟩ := Sample.reading_of_hasRead
    (show Sample.hasRead 7 6000 6000 (Sample.version 2) = true by decide +kernel)
  have hfound : (Sample.stale.history.moments.any fun m =>
      m.tick = 10 ∧ m.state.memoryStore.slots.versionOf Sample.key = 2) = true := by decide +kernel
  obtain ⟨m, hm, hseen⟩ := List.any_eq_true.mp hfound
  obtain ⟨htick, htwo⟩ := of_decide_eq_true hseen
  have hlate : nanosAt m.tick + ((Span.ofMillis 5000).nanos + (Span.ofMillis 200).nanos) <
      nanosAt 6000 := by
    rw [htick]
    decide
  have hle := reads_catch_up Sample.vacantNode_vacant Sample.runs_stale hmem hm hlate
  rw [htwo] at hle
  exact ⟨r, m, hm, htick, htwo, hle⟩

/-! ## Readings that are overtaken -/

/-- Nobody who begins after a writer was answered is answered with less than it has written. -/
def Process.NeverStale (p : Process) : Prop :=
  ∀ w ∈ p.members, ∀ g ∈ p.members, ∀ key v r begun, w.wrote? = some (key, v) →
    g.read? = some (key, r) → g.first = some begun → w.last < begun.tick → v ≤ r.version

/-- **A reading that is overtaken makes others stale.**  Nothing fails, and no call on the cache takes
    as long as the time limit; but the copy of a record that was read before an update arrives after
    the update has removed what was in the cache.  A reading that begins after the update was
    answered finds it there. -/
theorem overtaken_read :
    Process.Runs (.calm (Call.ReadsWithin (.ofMillis 5000) (.ofMillis 200)) 200)
      (.start Sample.vacantNode) Sample.stale ∧ ¬ Sample.stale.NeverStale := by
  constructor
  · refine Process.runs_follow Sample.lateCopy (Sample.admits_lateCopy (fun _ h => h) ?_) _
    exact fun n store cache hfast => ⟨store, cache, hfast, rfl⟩
  · intro h
    have hwritten : (Sample.stale.members[4]?.any fun w =>
        w.wrote? = some (Sample.key, Sample.version 2) ∧ w.last = 10) = true := by decide +kernel
    obtain ⟨w, hw, hseen⟩ := (Option.any_eq_true _ _).mp hwritten
    obtain ⟨hwrote, hlast⟩ := of_decide_eq_true hseen
    obtain ⟨s, m, r, hmem, htick, hversion⟩ := Sample.reading_of_hasRead
      (show Sample.hasRead 6 111 111 .initial = true by decide +kernel)
    have hle := h w (List.mem_of_getElem? hw) _ hmem _ _ r m hwrote rfl rfl (by omega)
    rw [hversion] at hle
    revert hle
    decide

end SessionCluster
