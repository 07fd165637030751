/-
  Lifetimes — which lifetimes pass, and when what was created with one expires.

  A creation and a touch come with a lifetime, and look at it before anything else.  It has to be a
  millisecond at least, and no longer than the longest one; else the call is over, and its answer
  names the field and the bounds (`Judges`).  The milliseconds are compared as words of sixty-four
  bits, so this is exact as long as no bits are lost.

  A creation that passes reads the clock once.  It may try several times, with a record of its own
  each time, but all of them expire at the same instant: its lifetime from that reading.  And what it
  answers with is the record that it has put into the store last (`Lasts`).

  * `lifetimes_are_exact` — **exactly the lifetimes within bounds pass**, where no bits are lost; and a
    creation that succeeds has stored a record that expires its lifetime from now;
  * `lifetimes_mistaken` — where bits are lost, a lifetime beyond all bounds may pass, and one well
    within them may be refused.
-/
import SessionCluster.Proofs.Limits

namespace SessionCluster

/-! ## Judgements of a number -/

/-- An operation that approves of a field: it will not answer that the field is invalid. -/
def Approves {α : Type} (field : String) : Operation (Except SessionError α) → Prop
  | .done a => ∀ message, a ≠ .error (.invalid field message)
  | .ask _ next => ∀ x, Approves field (next x)

/-- An operation judges a number that came in a field: it has nothing against the field if the number is
    one or more and at most another one, and else it is over at once, and names the field, the
    bounds and the number. -/
structure Judges {α : Type} (field : String) (most actual : Nat)
    (p : Operation (Except SessionError α)) : Prop where
  approves_iff : Approves field p ↔ 1 ≤ actual ∧ actual ≤ most
  refuses : ¬ (1 ≤ actual ∧ actual ≤ most) →
    p = .done (.error (.ofField (.outOfRange field 1 most actual)))

section

variable {α : Type} {field : String} {s : CoordinatorSettings}

theorem Approves.ofStore (f : StoreFault) :
    Approves field (.done (.error (.ofStore f)) : Operation (Except SessionError α)) := by
  intro message h
  cases f <;> cases h

/-- A call on the store whose failures end the operation. -/
theorem Approves.storeCall {c : StoreCall} {next : c.Outcome → Operation (Except SessionError α)}
    (h : ∀ o, Approves field (next o)) : Approves field (Coordinator.storeCall s c next) := by
  intro x
  rcases x with _ | f | o
  · exact .ofStore _
  · exact .ofStore f
  · exact h o

theorem Approves.commit (key : SessionKey) (value : α) (earlier : List Change) (own : Change) :
    Approves field (Coordinator.commit key value earlier own) := by
  rintro ⟨pending, event⟩ ticket u warnings message
  exact nofun

/-- No round of a creation objects to a field. -/
theorem Approves.createFrom (s : CoordinatorSettings) (key : SessionKey) (payload : Json) (ttl : Span)
    (now : Instant) (rounds : Nat) :
    ∀ t, Approves field (Coordinator.createFrom s key payload ttl now rounds t) := by
  induction rounds with
  | zero => exact fun _ _ => nofun
  | succ rounds ih =>
    refine fun t => .storeCall fun o => ?_
    cases o with
    | inserted => exact Approves.commit _ _ _ _
    | tombstoned v => exact ih _
    | occupied existing =>
      simp only
      split
      · exact fun _ => nofun
      · refine .storeCall fun o => ?_
        cases o with
        | applied => exact Approves.commit _ _ _ _
        | conflict latest => exact fun _ => nofun
        | missing => exact ih _

/-- A creation whose lifetime has passed objects to its payload, or to nothing. -/
theorem Approves.create (hfield : field ≠ "payload") (key : SessionKey) (payload : Json) (ttl : Span) :
    Approves field (match Coordinator.checkPayload s payload with
      | .error e => .done (.error e)
      | .ok () => .ask .now fun now =>
        Coordinator.createFrom s key payload ttl now Coordinator.createRounds none) := by
  unfold Coordinator.checkPayload
  simp only
  split
  · -- a payload that is too big is refused in a field of its own
    rename_i h
    split at h
    · cases h
      rintro message ⟨⟩
      exact hfield rfl
    · cases h
  · exact fun now => .createFrom s key payload ttl now _ none

/-- A look at the live record objects to no field. -/
theorem Approves.loadLive {key : SessionKey} {now : Instant}
    {next : Record → Operation (Except SessionError α)} (h : ∀ r, Approves field (next r)) :
    Approves field (Coordinator.loadLive s key now next) := by
  refine .storeCall fun found => ?_
  cases found with
  | none => exact fun _ => nofun
  | some r =>
    simp only
    split
    · exact fun _ => nofun
    · exact h r

/-- Neither does a swap. -/
theorem Approves.swap (s : CoordinatorSettings) (key : SessionKey) (expected : Version) (r : Record)
    (now : Instant) : Approves field (Coordinator.swap s key expected r now) := by
  refine .storeCall fun o => ?_
  cases o with
  | applied => exact Approves.commit _ _ _ _
  | conflict latest =>
    intro message h
    unfold Coordinator.reject at h
    split at h <;> cases h
  | missing => exact fun _ => nofun

theorem Approves.touch (s : CoordinatorSettings) (key : SessionKey) (extension : Span) (now : Instant) :
    Approves field (Coordinator.loadLive s key now fun r =>
      Coordinator.swap s key r.version (r.extended extension (now.plus s.maxTtl) s.node now) now) :=
  .loadLive fun r => .swap s key r.version _ now

/-- What begins with the check of a lifetime judges it, by the words that its milliseconds and those of
    the longest one are cut to. -/
theorem judges_words {d : Span} {rest : Operation (Except SessionError α)} (h : Approves field rest) :
    Judges field (Coordinator.wordMillis s.maxTtl) (Coordinator.wordMillis d)
      (match Coordinator.checkLifetime s field d with
        | .error e => .done (.error e)
        | .ok () => rest) := by
  unfold Coordinator.checkLifetime
  generalize Coordinator.wordMillis s.maxTtl = most
  generalize Coordinator.wordMillis d = actual
  simp only
  by_cases hbounds : actual = 0 ∨ most < actual
  · rw [if_pos hbounds]
    exact ⟨⟨fun happroves => absurd rfl (happroves _), fun hin => by omega⟩, fun _ => rfl⟩
  · rw [if_neg hbounds]
    exact ⟨⟨fun _ => by omega, fun _ => h⟩, fun hout => absurd (by omega) hout⟩

end

theorem create_judges (s : CoordinatorSettings) (key : SessionKey) (payload : Json) (d : Span) :
    Judges "ttl_ms" (Coordinator.wordMillis s.maxTtl) (Coordinator.wordMillis d)
      (Coordinator.create s key payload d) :=
  judges_words (.create (by decide) key payload d)

theorem touch_judges (s : CoordinatorSettings) (key : SessionKey) (d : Span) :
    Judges "extend_by_ms" (Coordinator.wordMillis s.maxTtl) (Coordinator.wordMillis d)
      (Coordinator.touch s key d) :=
  judges_words fun now => .touch s key d now

/-- No bits of a lifetime are lost, nor of the longest one. -/
structure CoordinatorSettings.Counts (s : CoordinatorSettings) (d : Span) : Prop where
  lifetime : d.millis < 18446744073709551616
  longest : s.maxTtl.millis < 18446744073709551616

/-- Where no bits are lost, what judges the words judges the milliseconds. -/
theorem Judges.exact {α : Type} {field : String} {s : CoordinatorSettings} {d : Span}
    {p : Operation (Except SessionError α)}
    (h : Judges field (Coordinator.wordMillis s.maxTtl) (Coordinator.wordMillis d) p)
    (hd : s.Counts d) : Judges field s.maxTtl.millis d.millis p := by
  unfold Coordinator.wordMillis at h
  rwa [Nat.mod_eq_of_lt hd.lifetime, Nat.mod_eq_of_lt hd.longest] at h

/-! ## What a creation has stored -/

/-- The record that a call on the store has put there under a key, by its answer. -/
def StoreCall.stored? (key : SessionKey) :
    (c : StoreCall) → Option (Except StoreFault c.Outcome) → Option Record
  | .insert r, some (.ok .inserted) => if r.key = key then some r else none
  | .swap k _ r, some (.ok .applied) => if k = key then some r else none
  | _, _ => none

/-- The record that was put into the store under a key in an exchange. -/
def Exchange.stored? {σ : Type} (key : SessionKey) : Exchange σ → Option Record
  | ⟨_, .store c, x, _⟩ => c.stored? key x
  | _ => none

/-- The record that was put into the store last, under a key, in the course of some exchanges. -/
def lastStored {σ : Type} (key : SessionKey) (es : List (Exchange σ)) : Option Record :=
  (es.filterMap (Exchange.stored? key)).getLast?

/-- What is left of a creation that has read the clock, by the record that it has stored last: it does
    not read the clock again; and when it succeeds it answers with that record, which expires its
    lifetime from then. -/
def Lasts (key : SessionKey) (now : Instant) (ttl : Span) :
    Operation (Outcome Record) → Option Record → Prop
  | .done (.ok k), stored => stored = some k.value ∧ k.value.expiresAt = now.plus ttl
  | .done (.error _), _ => True
  | .ask .now _, _ => False
  | .ask (.store c) next, stored => ∀ x, Lasts key now ttl (next x) ((c.stored? key x).or stored)
  | .ask _ next, stored => ∀ x, Lasts key now ttl (next x) stored

section

variable {s : CoordinatorSettings} {key : SessionKey} {payload : Json} {ttl : Span} {now : Instant}
  {stored : Option Record}

/-- A call on the store whose failures end the operation. -/
theorem Lasts.storeCall {c : StoreCall} {next : c.Outcome → Operation (Outcome Record)}
    (h : ∀ o, Lasts key now ttl (next o) ((c.stored? key (some (.ok o))).or stored)) :
    Lasts key now ttl (Coordinator.storeCall s c next) stored := by
  intro x
  rcases x with _ | f | o
  · trivial
  · trivial
  · exact h o

/-- What has been stored is what is answered. -/
theorem Lasts.commit {r : Record} (hr : r.expiresAt = now.plus ttl) (earlier : List Change)
    (own : Change) : Lasts key now ttl (Coordinator.commit r.key r earlier own) (some r) :=
  fun _ _ _ _ => ⟨rfl, hr⟩

theorem StoreCall.stored_insert {r : Record} (hr : r.key = key) :
    (StoreCall.insert r).stored? key (some (.ok .inserted)) = some r :=
  if_pos hr

theorem StoreCall.stored_swap (key : SessionKey) (expected : Version) (r : Record) :
    (StoreCall.swap key expected r).stored? key (some (.ok .applied)) = some r :=
  if_pos rfl

/-- In all rounds of a creation the lifetime counts from the same reading of the clock. -/
theorem createFrom_lasts (s : CoordinatorSettings) (key : SessionKey) (payload : Json) (ttl : Span)
    (now : Instant) (rounds : Nat) :
    ∀ t, Lasts key now ttl (Coordinator.createFrom s key payload ttl now rounds t) none := by
  induction rounds with
  | zero => exact fun _ => trivial
  | succ rounds ih =>
    intro t
    have hfresh : (Coordinator.fresh s key payload ttl now t).key = key ∧
        (Coordinator.fresh s key payload ttl now t).expiresAt = now.plus ttl := by
      cases t <;> exact ⟨rfl, rfl⟩
    refine .storeCall fun o => ?_
    cases o with
    | inserted =>
      rw [StoreCall.stored_insert hfresh.1, Option.some_or]
      exact Lasts.commit hfresh.2 _ _
    | tombstoned v => exact ih _
    | occupied existing =>
      simp only
      split
      · trivial
      · -- the record in the way has expired, and is replaced by one that lasts as long
        refine .storeCall fun o => ?_
        cases o with
        | applied =>
          rw [StoreCall.stored_swap, Option.some_or]
          exact Lasts.commit rfl _ _
        | conflict latest => trivial
        | missing => exact ih _

end

/-! ## Creations in a run -/

section

variable {σ : Type} {S : Surroundings σ} {within : σ → Prop} {w w' : σ} {es : List (Exchange σ)}
  {p p' : Operation (Outcome Record)} {key : SessionKey} {now : Instant} {ttl : Span}
  {stored : Option Record}

theorem lastStored_append (key : SessionKey) (es fs : List (Exchange σ)) :
    lastStored key (es ++ fs) = (lastStored key fs).or (lastStored key es) := by
  unfold lastStored
  rw [List.filterMap_append, List.getLast?_append]

/-- What takes no time neither reads the clock again nor stores anything. -/
theorem Settles.lasts (h : Settles S w p es w' p') :
    Lasts key now ttl p stored →
      readings es = [] ∧ es.filterMap (Exchange.stored? key) = [] ∧ Lasts key now ttl p' stored := by
  induction h with
  | rest => exact fun hp => ⟨rfl, rfl, hp⟩
  | @ask _ q _ _ _ _ _ _ hq _ _ ih =>
    intro hp
    cases q with
    | now => exact absurd hp id
    | announce earlier own => exact ih (hp _)
    | beginForget k => exact ih (hp _)
    | _ => cases hq

/-- A creation begins: it reads the clock, unless its lifetime or its payload is refused. -/
theorem creation_starts {s : CoordinatorSettings} {payload : Json}
    (hs : Settles S w (Coordinator.create s key payload ttl) es w' p) :
    (∃ e, p = .done (.error e)) ∨
      ∃ now, readings es = [now] ∧ Lasts key now ttl p (lastStored key es) := by
  unfold Coordinator.create at hs
  split at hs
  · exact .inl ⟨_, (hs.of_rest rfl).2⟩
  · split at hs
    · exact .inl ⟨_, (hs.of_rest rfl).2⟩
    · cases hs with
      | rest hrest => cases hrest
      | @ask _ _ _ now w₁ es _ _ _ _ hs =>
        obtain ⟨hread, hnone, hlasts⟩ := hs.lasts (createFrom_lasts s key payload ttl now _ none)
        refine .inr ⟨now, congrArg (now :: ·) hread, ?_⟩
        have hstored : lastStored key (⟨w, .now, now, w₁⟩ :: es) = none :=
          congrArg List.getLast? hnone
        rwa [hstored]

/-- A poll of a creation that has read the clock: it does not read it again, and what it stores is
    known. -/
theorem Lasts.poll {q : Request} {next : q.Answer → Operation (Outcome Record)} {x : q.Answer} {w₁ : σ}
    (hp : Lasts key now ttl (.ask q next) stored) (hs : Settles S w₁ (next x) es w' p') :
    readings (⟨w, q, x, w₁⟩ :: es) = [] ∧
      Lasts key now ttl p' ((lastStored key (⟨w, q, x, w₁⟩ :: es)).or stored) := by
  have hlast (hnone : es.filterMap (Exchange.stored? key) = []) :
      lastStored key (⟨w, q, x, w₁⟩ :: es) = Exchange.stored? key ⟨w, q, x, w₁⟩ := by
    unfold lastStored
    rw [List.filterMap_cons]
    cases Exchange.stored? key ⟨w, q, x, w₁⟩ with
    | none => rw [hnone]; rfl
    | some r => rw [hnone]; rfl
  cases q with
  | now => exact absurd hp id
  | store c =>
    obtain ⟨hread, hnone, hlasts⟩ := hs.lasts (hp x)
    rw [hlast hnone]
    exact ⟨hread, hlasts⟩
  | _ =>
    obtain ⟨hread, hnone, hlasts⟩ := hs.lasts (hp x)
    rw [hlast hnone]
    exact ⟨hread, hlasts⟩

/-- **Every creation has read the clock once**, all along, unless it was refused at once. -/
theorem Leads.creation {c : Cluster σ} (h : Leads S within (.idle w) c) {i : Nat}
    {s : CoordinatorSettings} {payload : Json} {made : List (Exchange σ)}
    {rest : Operation (Outcome Record)}
    (hp : c.calls i = some ⟨.create s key payload ttl, made, rest⟩) :
    (∃ e, rest = .done (.error e)) ∨
      ∃ now, readings made = [now] ∧ Lasts key now ttl rest (lastStored key made) := by
  induction h generalizing i s key payload ttl made rest with
  -- nothing runs yet
  | refl => cases hp
  | @tail c c' hc hst ih =>
    obtain ⟨_, call, es, hs⟩ := hst
    cases hs.progressed hp with
    -- the call begins: it is refused at once, or reads the clock in this very poll
    | begun hset => exact creation_starts hset
    -- the call goes on: a refused one has ended, and any other reads the clock no more
    | resumed hi ha hset =>
      rcases ih hi with ⟨e, herror⟩ | ⟨now, hread, hlasts⟩
      · cases herror
      · obtain ⟨hnone, hlater⟩ := hlasts.poll hset
        refine .inr ⟨now, by rw [readings_append, hread, hnone, List.append_nil], ?_⟩
        rwa [lastStored_append]
    | stayed hi => exact ih hi

end

/-- A record that a call has put there is in the store, under its key. -/
theorem Slots.live?_of_stored {s : Slots} {c : StoreCall} {key : SessionKey} {r : Record}
    (h : c.stored? key (some (.ok (s.apply c).1)) = some r) :
    (s.apply c).2.1.live? key = some r := by
  -- what was put under the key is what is found there
  have hput {k : SessionKey} {r' : Record} (hr : (if k = key then some r' else none) = some r) :
      (s.put k (.live r')).live? key = some r := by
    split at hr
    · rename_i hk
      cases hr
      rw [hk, live?_put, if_pos rfl]
      rfl
    · cases hr
  -- only an insertion or a swap puts a record there, and only when it is applied
  cases c with
  | insert r' =>
    revert h
    simp only [apply]
    cases s.insertOutcome r' with
    | inserted => exact hput
    | occupied existing =>
      intro h
      cases h
    | tombstoned v =>
      intro h
      cases h
  | swap k expected r' =>
    revert h
    simp only [apply]
    cases s.writeOutcome k expected with
    | applied => exact hput
    | conflict current =>
      intro h
      cases h
    | missing =>
      intro h
      cases h
  | remove k expected => cases h
  | get k => cases h
  | scan now limit => cases h
  | ping => cases h

/-- What puts a record under a key writes that key. -/
theorem StoreCall.written_of_stored {c : StoreCall} {key : SessionKey} {o : c.Outcome} {r : Record}
    (h : c.stored? key (some (.ok o)) = some r) : c.written? o = some key := by
  have hsome {k : SessionKey} {r' : Record} (hr : (if k = key then some r' else none) = some r) :
      some k = some key := by
    split at hr
    · rename_i hk
      exact congrArg some hk
    · cases hr
  cases c with
  | insert r' =>
    cases o with
    | inserted => exact hsome h
    | occupied existing => cases h
    | tombstoned v => cases h
  | swap k expected r' =>
    cases o with
    | applied => exact hsome h
    | conflict latest => cases h
    | missing => cases h
  | remove k expected => cases h
  | get k => cases h
  | scan now limit => cases h
  | ping => cases h

/-- An exchange of a creation that has read the clock: it has put a record into the store under its key,
    and the record expires its lifetime from that reading, or at the last instant there is. -/
structure Exchange.Stores (e : Exchange World) (key : SessionKey) (ttl : Span) (now : Instant)
    (r : Record) : Prop where
  written : e.written? = some key
  live : e.after.slots.live? key = some r
  expiry : r.expiresAt = now.plus ttl
  /-- Outside of leap seconds, the expiry is exact. -/
  exact : now.inLeapSecond = false → r.expiresAt.Follows now ttl.millis

section

variable {within : World → Prop} {w : World} {c : Cluster World} {i : Nat}

/-- What was stored in an exchange of a call is in the store after it. -/
theorem Leads.stored (h : Leads World.Answers within (.idle w) c) {p : Progress World}
    (hp : c.calls i = some p) {e : Exchange World} (he : e ∈ p.made) {key : SessionKey} {r : Record}
    (hr : e.stored? key = some r) :
    AnsweredIn World.Answers within w c i p.call e ∧ e.written? = some key ∧
      e.after.slots.live? key = some r := by
  obtain ⟨before, q, x, after⟩ := e
  cases q with
  | store call =>
    have hanswered := h.answered hp he rfl
    refine ⟨hanswered, ?_⟩
    obtain ⟨c₁, _, _, c₂, es, _, _, _, hbefore, hs, _⟩ := hanswered
    obtain ⟨-, ha⟩ := hs.await_first (List.mem_cons_self ..) rfl
    rcases ha with ⟨rfl, rfl⟩ | ⟨hfails, -⟩
    · exact ⟨StoreCall.written_of_stored hr, Slots.live?_of_stored hr⟩
    · -- a call on the store that has failed has stored nothing
      rcases x with _ | f | o
      · cases call <;> cases hr
      · cases call <;> cases hr
      · exact absurd rfl (hfails o)
  | _ => cases hr

variable {s : CoordinatorSettings} {key : SessionKey} {payload : Json} {ttl : Span}
  {made : List (Exchange World)} {k : Committed Record}

/-- **A creation that succeeds has stored what it answers**, and this expires its lifetime from its one
    reading of the clock. -/
theorem Leads.created (h : Leads World.Answers within (.idle w) c)
    (hp : c.calls i = some ⟨.create s key payload ttl, made, .done (.ok k)⟩) :
    ∃ now, readings made = [now] ∧ ∃ e ∈ made,
      AnsweredIn World.Answers within w c i (.create s key payload ttl) e ∧
        e.Stores key ttl now k.value := by
  rcases h.creation hp with ⟨e, herror⟩ | ⟨now, hread, hlast, hexpiry⟩
  · cases herror
  · obtain ⟨e, he, hr⟩ := List.mem_filterMap.mp (List.mem_of_getLast? hlast)
    obtain ⟨hanswered, hwritten, hlive⟩ := h.stored hp he hr
    refine ⟨now, hread, e, he, hanswered, hwritten, hlive, hexpiry, fun hnow => ?_⟩
    rw [hexpiry]
    exact Instant.plus_follows hnow ttl

end

/-! ## Both -/

/-- **The check of a lifetime is exact** where no bits are lost: a creation and a touch have nothing
    against a lifetime of a millisecond or more that is no longer than the longest one, and refuse any
    other at once.  And **a creation that succeeds** has stored a record that expires its lifetime, in
    whole milliseconds, from its reading of the clock, or at the last instant there is: in every
    run, whatever others do, and however long the lifetime. -/
theorem lifetimes_are_exact (s : CoordinatorSettings) (key : SessionKey) (payload : Json)
    (d : Span) :
    (s.Counts d →
      Judges "ttl_ms" s.maxTtl.millis d.millis (Coordinator.create s key payload d) ∧
      Judges "extend_by_ms" s.maxTtl.millis d.millis (Coordinator.touch s key d)) ∧
    ∀ (within : World → Prop) (w : World) (c : Cluster World) (i : Nat)
      (made : List (Exchange World)) (k : Committed Record),
      Leads World.Answers within (.idle w) c →
      c.calls i = some ⟨.create s key payload d, made, .done (.ok k)⟩ →
        ∃ now, readings made = [now] ∧ ∃ e ∈ made,
          AnsweredIn World.Answers within w c i (.create s key payload d) e ∧
            e.Stores key d now k.value := by
  refine ⟨fun hd => ⟨?_, ?_⟩, fun within w c i made k h hp => h.created hp⟩
  · exact (create_judges s key payload d).exact hd
  · exact (touch_judges s key d).exact hd

namespace Sample

/-- A session is created for five seconds. -/
def creating : List Action :=
  [.start 0 (.create settings key .null (.ofMillis 5000)) (second 0), .resume 0 (second 0) false,
   .resume 0 (second 0) false, .resume 0 (second 0) false]

/-- The settings of a node whose sessions may last for 2⁶⁴ milliseconds and 384 more. -/
def patient : CoordinatorSettings := { settings with maxTtl := .ofSeconds 18446744073709552 }

end Sample

open Sample in
/-- A lifetime of five seconds passes, and its session expires five seconds later; one of no time, or of
    more than a week, is refused. -/
theorem sample_lifetimes_are_exact :
    Approves "ttl_ms" (Coordinator.create settings key .null (.ofMillis 5000)) ∧
    Coordinator.create settings key .null .zero =
      .done (.error (.ofField (.outOfRange "ttl_ms" 1 604800000 0))) ∧
    Coordinator.touch settings key (.ofMillis 604800001) =
      .done (.error (.ofField (.outOfRange "extend_by_ms" 1 604800000 604800001))) ∧
    ∃ made k now e, ((Cluster.idle {}).follow creating).calls 0 =
        some ⟨.create settings key .null (.ofMillis 5000), made, .done (.ok k)⟩ ∧
      readings made = [now] ∧ now = second 0 ∧ e ∈ made ∧
      e.Stores key (.ofMillis 5000) now k.value ∧ k.value.expiresAt.Follows (second 0) 5000 := by
  -- the sample's lifetimes are far below what their count of milliseconds can hold
  have hcounts (d : Span) (hd : d.millis < 18446744073709551616) : settings.Counts d :=
    ⟨hd, by decide +kernel⟩
  have hruns : Runs (.idle {}) ((Cluster.idle {}).follow creating) :=
    Cluster.runs_follow creating _ (by decide +kernel)
  obtain ⟨made, k, hp, hread⟩ : ∃ made k, ((Cluster.idle {}).follow creating).calls 0 =
      some ⟨.create settings key .null (.ofMillis 5000), made, .done (.ok k)⟩ ∧
      readings made = [second 0] := ⟨_, _, rfl, rfl⟩
  obtain ⟨hjudges, hcreated⟩ := lifetimes_are_exact settings key .null (.ofMillis 5000)
  obtain ⟨now, hnow, e, he, -, hstores⟩ := hcreated _ _ _ _ _ _ hruns hp
  -- the reading that the theorem speaks of is the one of the sample
  obtain rfl : second 0 = now := (List.cons.inj (hread.symm.trans hnow)).1
  refine ⟨?_, ?_, ?_, made, k, second 0, e, hp, hnow, rfl, he, hstores, hstores.exact rfl⟩
  · exact (hjudges (hcounts _ (by decide))).1.approves_iff.mpr (by decide +kernel)
  · have hnone := (lifetimes_are_exact settings key .null .zero).1 (hcounts _ (by decide))
    exact hnone.1.refuses (by decide)
  · have hlong := (lifetimes_are_exact settings key .null (.ofMillis 604800001)).1
      (hcounts _ (by decide))
    exact hlong.2.refuses (by decide +kernel)

open Sample in
/-- **The check may be mistaken**, both ways.  A lifetime of 2⁶⁴ milliseconds and one more passes where the
    longest one is a week; and a lifetime of a second is refused where the longest one is more than
    2⁶⁴ milliseconds. -/
theorem lifetimes_mistaken :
    (Approves "ttl_ms" (Coordinator.create settings key .null unseen) ∧
      Approves "extend_by_ms" (Coordinator.touch settings key unseen) ∧
      ¬ unseen.millis ≤ settings.maxTtl.millis) ∧
    Coordinator.create patient key .null (.ofMillis 1000) =
      .done (.error (.ofField (.outOfRange "ttl_ms" 1 384 1000))) ∧
    1 ≤ (Span.ofMillis 1000).millis ∧ (Span.ofMillis 1000).millis ≤ patient.maxTtl.millis := by
  have hseen : 1 ≤ Coordinator.wordMillis unseen ∧
      Coordinator.wordMillis unseen ≤ Coordinator.wordMillis settings.maxTtl := by decide +kernel
  refine ⟨⟨?_, ?_, by decide +kernel⟩, ?_, by decide, by decide +kernel⟩
  · exact (create_judges settings key .null unseen).approves_iff.mpr hseen
  · exact (touch_judges settings key unseen).approves_iff.mpr hseen
  · exact (create_judges patient key .null (.ofMillis 1000)).refuses (by decide +kernel)

end SessionCluster
