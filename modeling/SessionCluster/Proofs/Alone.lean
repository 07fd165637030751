/-
  Alone — calls that are made one after the other.

  When nobody acts in between, a call has no need of its second thoughts: the record that it has
  loaded is the one that it replaces, and an insertion is refused for what is there and not for
  what has come meanwhile.  What it says is then a function of the content of the store and the
  clock, its VERDICT, and the one-step specifications give it.

  The cache takes no part in this.  Removals from it take effect, but looks and copies may fail, and
  copies are served for as long as time likes.  Still every copy is the live record of its key, from
  one call to the next (`Solo.Sound`), and so a look into the cache answers what the store would.

  * `Comes` — what has to hold for an operation to come to a good end, along the operation;
  * `Call.verdict` — what a call says alone, the content after it, and the changes it announces;
  * `comes_update`, `comes_delete`, `comes_touch`, `comes_get`, `comes_create` — each session call comes
    to its verdict.
-/
import SessionCluster.Proofs.Copies
import SessionCluster.Proofs.OneStep
import SessionCluster.Proofs.Pipelines

namespace SessionCluster

/-! ## Operations without interruption -/

/-- What an operation comes to when nobody acts in between: its answer, and the state then. -/
inductive Finishes {σ α : Type} (S : Surroundings σ) : σ → Operation α → α → σ → Prop where
  | done {w a} : Finishes S w (.done a) a w
  | ask {w q next x w₁ a w₂} (hx : S w q x w₁) (h : Finishes S w₁ (next x) a w₂) :
      Finishes S w (.ask q next) a w₂

/-- What has to hold of a state for an operation that goes on there alone to end in `Q`. -/
def Comes {σ α : Type} (S : Surroundings σ) (Q : α → σ → Prop) : Operation α → σ → Prop
  | .done a, w => Q a w
  | .ask q next, w => ∀ x w₁, S w q x w₁ → Comes S Q (next x) w₁

section

variable {σ α : Type} {S : Surroundings σ} {Q : α → σ → Prop}

theorem Finishes.comes {w w' : σ} {p : Operation α} {a : α} (h : Finishes S w p a w')
    (hp : Comes S Q p w) : Q a w' := by
  induction h with
  | done => exact hp
  | ask hx _ ih => exact ih (hp _ _ hx)

theorem Comes.imp {Q' : α → σ → Prop} (hQ : ∀ a w, Q a w → Q' a w) {p : Operation α} :
    ∀ {w : σ}, Comes S Q p w → Comes S Q' p w := by
  induction p with
  | done a => exact fun h => hQ a _ h
  | ask q next ih => exact fun h x w₁ hx => ih x (h x w₁ hx)

/-- **Every operation comes to an end**, where every question is answered. -/
theorem exists_finishes (hS : ∀ w q, ∃ x w₁, S w q x w₁) (p : Operation α) :
    ∀ w, ∃ a w', Finishes S w p a w' := by
  induction p with
  | done a => exact fun w => ⟨a, w, .done⟩
  | ask q next ih =>
    intro w
    obtain ⟨x, w₁, hx⟩ := hS w q
    obtain ⟨a, w', h⟩ := ih x w₁
    exact ⟨a, w', .ask hx h⟩

end

/-! ## What callers share who wait for each other -/

/-- The content of the store, the cache in memory, the keys whose removal was started, and the
    changes announced so far. -/
structure Solo where
  slots : Slots := {}
  cache : MemoryCache := {}
  leaving : List SessionKey := []
  announced : List Change := []

namespace Solo

/-- The state after a call on the cache at a tick. -/
def afterCache (w : Solo) (tick : Nat) (q : CacheCall) : Solo :=
  { w with cache := (w.cache.call tick q).1 }

/-- What a look into the cache finds at a tick. -/
def found (w : Solo) (tick : Nat) (key : SessionKey) : Option Record :=
  match (w.cache.call tick (.get key)).2 with
  | .ok r => r
  | .error _ => none

/-- What questions can be answered while the clock shows a reading.  The store takes effect, and so do
    removals from the cache; looks into it and copies may fail. -/
def Answers (now : Instant) (w : Solo) : (q : Request) → q.Answer → Solo → Prop
  | .now, t, w' => t = now ∧ w' = w
  | .store c, x, w' =>
    x = some (.ok (w.slots.apply c).1) ∧ w' = { w with slots := (w.slots.apply c).2.1 }
  | .cached key, x, w' =>
    x = none ∧ w' = w ∨ ∃ tick, x = w.found tick key ∧ w' = w.afterCache tick (.get key)
  | .cache r freshFor, _, w' => w' = w ∨ ∃ tick, w' = w.afterCache tick (.set r freshFor)
  | .announce earlier own, x, w' =>
    x.2.change = own ∧ w' = { w with announced := w.announced ++ (earlier ++ [own]) }
  | .beginForget key, ticket, w' =>
    ticket = w.leaving.length ∧ w' = { w with leaving := w.leaving ++ [key] }
  | .forgotten ticket, _, w' =>
    ∃ tick, w' = match w.leaving[ticket]? with
      | some key => w.afterCache tick (.remove key)
      | none => w
  | .forget key, _, w' => ∃ tick, w' = w.afterCache tick (.remove key)
  | .warnings _, _, w' => w' = w

/-- A store in memory that is available answers so. -/
theorem answers_call {store : MemoryStore} (hu : store.unavailable = false) (w : Solo)
    (now : Instant) (c : StoreCall) :
    Answers now { w with slots := store.slots } (.store c) (some (store.call c).2)
      { w with slots := (store.call c).1.slots } := by
  rw [MemoryStore.call_answer hu, MemoryStore.call_slots hu]
  exact ⟨rfl, rfl⟩

/-- Every question is answered. -/
theorem exists_answer (now : Instant) (w : Solo) (q : Request) : ∃ x w₁, w.Answers now q x w₁ := by
  cases q with
  | now => exact ⟨now, w, rfl, rfl⟩
  | store c =>
    have hstore : ({ slots := w.slots } : MemoryStore).unavailable = false := rfl
    exact ⟨_, _, answers_call hstore w now c⟩
  | cached key => exact ⟨none, w, .inl ⟨rfl, rfl⟩⟩
  | cache r freshFor => exact ⟨(), w, .inl rfl⟩
  | announce earlier own => exact ⟨([], ⟨"", own⟩), _, rfl, rfl⟩
  | beginForget key => exact ⟨w.leaving.length, _, rfl, rfl⟩
  | forgotten ticket => exact ⟨(), _, 0, rfl⟩
  | forget key => exact ⟨(), _, 0, rfl⟩
  | warnings pending => exact ⟨([] : List Warning), w, rfl⟩

/-- What holds between calls: every record is under its own key, and every copy is the live record
    of its key.  While a call is under way, the copies of one key may be an exception. -/
structure Sound (w : Solo) (but : Option SessionKey := none) : Prop where
  keyed : w.slots.Keyed
  distinct : (w.slots.entries.map Prod.fst).Nodup
  available : w.cache.unavailable = false
  /-- A copy is never behind the store. -/
  current : ∀ x ∈ w.cache.entries, some x.1 ≠ but → w.slots.live? x.1 = some x.2.record

theorem sound_empty : ({} : Solo).Sound where
  keyed := by
    rintro key r ⟨⟩
  distinct := .nil
  available := rfl
  current := by
    rintro x ⟨⟩

end Solo

/-! ## Contents with distinct keys -/

namespace Slots

/-- A slot that is put keeps the place of its key, or comes last. -/
theorem keys_putEntry (key : SessionKey) (slot : Slot) (es : List (SessionKey × Slot)) :
    (putEntry key slot es).map Prod.fst =
      if key ∈ es.map Prod.fst then es.map Prod.fst else es.map Prod.fst ++ [key] := by
  induction es with
  | nil => simp [putEntry]
  | cons e es ih =>
    obtain ⟨k, old⟩ := e
    by_cases hk : k = key
    · simp [putEntry, hk]
    · have hk' : ¬ key = k := fun h => hk h.symm
      by_cases hmem : key ∈ es.map Prod.fst
      · rw [if_pos hmem] at ih
        simp only [putEntry, if_neg hk, List.map_cons, ih]
        rw [if_pos (List.mem_cons_of_mem _ hmem)]
      · rw [if_neg hmem] at ih
        simp only [putEntry, if_neg hk, List.map_cons, ih]
        rw [if_neg (by simpa [hk'] using hmem)]
        rfl

/-- Keys stay distinct. -/
theorem nodup_put {s : Slots} (h : (s.entries.map Prod.fst).Nodup) (key : SessionKey)
    (slot : Slot) : ((s.put key slot).entries.map Prod.fst).Nodup := by
  show ((putEntry key slot s.entries).map Prod.fst).Nodup
  rw [keys_putEntry]
  split
  · exact h
  · rename_i hnot
    refine List.nodup_append.mpr ⟨h, by simp, ?_⟩
    intro a ha b hb
    rw [List.mem_singleton.mp hb]
    rintro rfl
    exact hnot ha

variable {s : Slots} {key : SessionKey} {slot : Slot}

theorem mem_of_get? (h : s.get? key = some slot) : (key, slot) ∈ s.entries := by
  obtain ⟨before, after, heq, _⟩ :=
    List.lookup_eq_some_iff.mp (show s.entries.lookup key = some slot from h)
  rw [heq]
  simp

/-- An entry is what its key holds, if keys are distinct. -/
theorem get?_of_mem (hd : (s.entries.map Prod.fst).Nodup) (h : (key, slot) ∈ s.entries) :
    s.get? key = some slot := by
  unfold get?
  generalize s.entries = es at hd h
  induction es with
  | nil => cases h
  | cons e es ih =>
    obtain ⟨hnot, hrest⟩ := List.nodup_cons.mp hd
    rcases List.mem_cons.mp h with rfl | hmem
    · simp
    · have hne : key ≠ e.1 := by
        rintro rfl
        exact hnot (List.mem_map.mpr ⟨_, hmem, rfl⟩)
      rw [List.lookup_cons, beq_false_of_ne hne]
      exact ih hrest hmem

end Slots

/-! ## Verdicts -/

/-- What a call says alone, the content after it, and the changes that it announces. -/
structure Verdict (β : Type) where
  said : β
  slots : Slots
  told : List Change := []

/-- A call that has said something and left a state has come to a verdict. -/
structure Solo.Settled {β : Type} (w : Solo) (v : Verdict β) (b : β) (w' : Solo) : Prop where
  said : b = v.said
  slots : w'.slots = v.slots
  /-- What others are told comes after what they were told before. -/
  told : w'.announced = w.announced ++ v.told
  sound : w'.Sound

namespace Verdict

variable {α β : Type}

/-- A refusal, which changes nothing. -/
def refused (e : SessionError) (s : Slots) : Verdict (Except SessionError β) := ⟨.error e, s, []⟩

/-- The verdict of a specification: a change is announced as it is. -/
def ofStep (x : Except SessionError (α × Change) × Slots) :
    Verdict (Except SessionError (α × Change)) where
  said := x.1
  slots := x.2
  told := match x.1 with
    | .ok (_, c) => [c]
    | .error _ => []

/-- A verdict after a check of the arguments. -/
def checked (check : Except SessionError Unit) (s : Slots) (v : Verdict (Except SessionError β)) :
    Verdict (Except SessionError β) :=
  match check with
  | .ok () => v
  | .error e => refused e s

/-- The verdict of a specification of creations: the end of an expired record that is in the way is
    announced before the creation. -/
def created (slots : Slots) (key : SessionKey) (now : Instant)
    (x : Except SessionError (α × Change) × Slots) : Verdict (Except SessionError (α × Change)) where
  said := x.1
  slots := x.2
  told := match x.1, slots.live? key with
    | .ok (_, c), some r => [r.expiry now, c]
    | .ok (_, c), none => [c]
    | .error _, _ => []

/-- The verdict on a creation. -/
def create (s : CoordinatorSettings) (key : SessionKey) (payload : Json) (ttl : Span)
    (now : Instant) (slots : Slots) : Verdict (Except SessionError (Record × Change)) :=
  checked (Coordinator.checkLifetime s "ttl_ms" ttl) slots
    (checked (Coordinator.checkPayload s payload) slots
      (created slots key now (OneStep.create s.node key payload ttl now slots)))

/-- The verdict on an update. -/
def update (s : CoordinatorSettings) (key : SessionKey) (expected : Version) (payload : Json)
    (now : Instant) (slots : Slots) : Verdict (Except SessionError (Record × Change)) :=
  checked (Coordinator.checkPayload s payload) slots
    (ofStep (OneStep.update s.node key expected payload now slots))

/-- The verdict on a removal. -/
def delete (key : SessionKey) (expected : Version) (now : Instant) (slots : Slots) :
    Verdict (Except SessionError (Unit × Change)) :=
  ofStep (OneStep.delete key expected now slots)

/-- The verdict on a touch: the version that it expects is the one that it finds. -/
def touch (s : CoordinatorSettings) (key : SessionKey) (extendBy : Span) (now : Instant)
    (slots : Slots) : Verdict (Except SessionError (Record × Change)) :=
  checked (Coordinator.checkLifetime s "extend_by_ms" extendBy) slots
    (match OneStep.present slots key now with
    | some r => ofStep (OneStep.touch s key r.version extendBy now slots)
    | none => refused (.notFound key) slots)

end Verdict

namespace Slots

/-- The content after the end of a record. -/
def end_ (s : Slots) (r : Record) : Slots := s.put r.key (.tombstone r.tombstoneVersion)

/-- The content after the expired records have ended, at most so many of them. -/
def swept (s : Slots) (now : Instant) (limit : Nat) : Slots := (s.expired now limit).foldl end_ s

end Slots

namespace Call

/-- What a call says to whom has made it: a value and a change, but not how the change was delivered.
    A sweep says nothing to callers. -/
def Said : Call → Type
  | .create .. | .update .. | .touch .. => Except SessionError (Record × Change)
  | .delete .. => Except SessionError (Unit × Change)
  | .get .. => Except SessionError Record
  | .sweep _ => Unit

/-- What is heard from the answer of a call. -/
def heard : (c : Call) → c.Answer → c.Said
  | .create .., a | .update .., a | .touch .., a | .delete .., a => said a
  | .get .., a => a
  | .sweep _, _ => ()

/-- The verdict on a call that is made alone. -/
def verdict : (c : Call) → Instant → Slots → Verdict c.Said
  | .create s key payload ttl, now, slots => .create s key payload ttl now slots
  | .get _ key, now, slots => ⟨(OneStep.get key now slots).1, slots, []⟩
  | .update s key expected payload, now, slots => .update s key expected payload now slots
  | .delete _ key expected, now, slots => .delete key expected now slots
  | .touch s key extendBy, now, slots => .touch s key extendBy now slots
  | .sweep s, now, slots =>
    ⟨(), slots.swept now (s.batchSize * max 1 s.maxBatches),
      (slots.expired now (s.batchSize * max 1 s.maxBatches)).map (·.expiry now)⟩

end Call

namespace Solo

variable {α : Type} {now : Instant} {w w' : Solo} {key : SessionKey} {s : CoordinatorSettings}

/-! ## Parts of operations -/

theorem comes_now {Q : α → Solo → Prop} {next : Instant → Operation α}
    (h : Comes (Answers now) Q (next now) w) :
    Comes (Answers now) Q (.ask .now next) w := by
  rintro _ _ ⟨rfl, rfl⟩
  exact h

theorem comes_storeCall {Q : Except SessionError α → Solo → Prop} {c : StoreCall}
    {next : c.Outcome → Operation (Except SessionError α)}
    (h : Comes (Answers now) Q (next (w.slots.apply c).1)
      { w with slots := (w.slots.apply c).2.1 }) :
    Comes (Answers now) Q (Coordinator.storeCall s c next) w := by
  rintro x w₁ ⟨rfl, rfl⟩
  exact h

/-- A call on the store that changes nothing. -/
theorem comes_unchanged {Q : Except SessionError α → Solo → Prop} {c : StoreCall} {o : c.Outcome}
    {next : c.Outcome → Operation (Except SessionError α)} {notice : Option Notice}
    (ho : w.slots.apply c = (o, w.slots, notice)) (h : Comes (Answers now) Q (next o) w) :
    Comes (Answers now) Q (Coordinator.storeCall s c next) w := by
  refine comes_storeCall ?_
  rw [ho]
  exact h

/-- Loading the record of a key: what is present, or nothing. -/
theorem comes_loadLive {Q : Except SessionError α → Solo → Prop}
    {next : Record → Operation (Except SessionError α)}
    (hnone : OneStep.present w.slots key now = none → Q (.error (.notFound key)) w)
    (hsome : ∀ r, w.slots.live? key = some r → r.isExpiredAt now = false →
      Comes (Answers now) Q (next r) w) :
    Comes (Answers now) Q (Coordinator.loadLive s key now next) w := by
  refine comes_unchanged (c := .get key) (o := w.slots.live? key) rfl ?_
  cases hl : w.slots.live? key with
  | none => exact hnone (OneStep.present_of_none hl)
  | some r =>
    simp only
    cases he : r.isExpiredAt now with
    | true =>
      rw [if_pos rfl]
      exact hnone (OneStep.present_of_expired hl he)
    | false =>
      rw [if_neg nofun]
      exact hsome r hl he

/-- A removal from the cache ends the exception. -/
theorem Sound.removed (hw : w.Sound (some key)) (tick : Nat) :
    (w.afterCache tick (.remove key)).Sound := by
  unfold afterCache
  rw [MemoryCache.call_remove hw.available]
  refine ⟨hw.keyed, hw.distinct, hw.available, fun x hx _ => ?_⟩
  obtain ⟨hmem, hne⟩ := List.mem_filter.mp hx
  refine hw.current x hmem ?_
  rintro ⟨⟩
  simp at hne

/-- What follows a write that was applied: it is announced, and the copy of its key is removed. -/
theorem comes_commit {Q : Outcome α → Solo → Prop} {value : α} {earlier : List Change}
    {own : Change} (hw : w.Sound (some key))
    (h : ∀ (c : Committed α) (w' : Solo), c.value = value → c.event.change = own →
      w'.slots = w.slots → w'.announced = w.announced ++ (earlier ++ [own]) → w'.Sound →
      Q (.ok c) w') :
    Comes (Answers now) Q (Coordinator.commit key value earlier own) w := by
  rintro ⟨pending, event⟩ _ ⟨hown, rfl⟩
  rintro ticket _ ⟨rfl, rfl⟩
  rintro _ _ ⟨tick, rfl⟩
  rintro warnings _ rfl
  -- the ticket is that of the key whose removal was started last
  have hkey : (w.leaving ++ [key])[w.leaving.length]? = some key := by simp
  refine h _ _ rfl hown ?_ ?_ ?_
  · simp only [hkey]
    rfl
  · simp only [hkey]
    rfl
  · simp only [hkey]
    have hsame : Solo.Sound
        { w with announced := w.announced ++ (earlier ++ [own]), leaving := w.leaving ++ [key] }
        (some key) := ⟨hw.keyed, hw.distinct, hw.available, hw.current⟩
    exact hsame.removed tick

/-- A slot is written under its own key: only copies of that key are no longer current. -/
theorem Sound.put (hw : w.Sound) {slot : Slot} (hslot : ∀ r, slot = .live r → r.key = key) :
    Sound { w with slots := w.slots.put key slot } (some key) := by
  refine ⟨hw.keyed.put hslot, Slots.nodup_put hw.distinct key slot, hw.available, fun x hx hne => ?_⟩
  show (w.slots.put key slot).live? x.1 = _
  rw [Slots.live?_put, if_neg (fun h => hne (by rw [h]))]
  exact hw.current x hx nofun

/-! ## Session calls -/

/-- A refusal settles. -/
theorem settled_refused {β : Type} (hw : w.Sound) (e : SessionError) :
    w.Settled (.refused e w.slots) (.error e : Except SessionError β) w :=
  ⟨rfl, rfl, (List.append_nil _).symm, hw⟩

/-- A refusal of a change at an expected version settles. -/
theorem settled_ofRefusal (hw : w.Sound) {e : SessionError}
    {x : Except SessionError (α × Change) × Slots} (hx : x = (.error e, w.slots)) :
    w.Settled (.ofStep x) (.error e) w := by
  subst hx
  exact settled_refused hw e

/-- A write that was applied and what follows it settle, if that is the verdict. -/
theorem comes_settled (hw : w.Sound) {value : α} {earlier : List Change} {own : Change}
    {slot : Slot} {v : Verdict (Except SessionError (α × Change))}
    (hslot : ∀ r, slot = .live r → r.key = key)
    (hv : v = ⟨.ok (value, own), w.slots.put key slot, earlier ++ [own]⟩) :
    Comes (Answers now) (fun a w' => w.Settled v (said a) w')
      (Coordinator.commit key value earlier own) { w with slots := w.slots.put key slot } := by
  refine comes_commit (hw.put hslot) ?_
  intro c w' hvalue hown hslots htold hsound
  subst hv
  refine ⟨?_, hslots, htold, hsound⟩
  show Except.ok (c.value, c.event.change) = _
  rw [hvalue, hown]

/-- A replacement at the version of the live record. -/
theorem comes_swap (hw : w.Sound) {r next : Record} (hl : w.slots.live? key = some r)
    (hkey : next.key = key) {x : Except SessionError (Record × Change) × Slots}
    (hx : x = (.ok (next, Coordinator.changeOf next .updated now), w.slots.put key (.live next))) :
    Comes (Answers now) (fun a w' => w.Settled (.ofStep x) (said a) w')
      (Coordinator.swap s key r.version next now) w := by
  refine comes_storeCall ?_
  rw [Slots.apply_swap_applied hl rfl]
  subst hkey
  refine comes_settled hw ?_ (by rw [hx]; rfl)
  rintro r' ⟨⟩
  rfl

/-- **An update by itself** settles as the one step has it. -/
theorem comes_update (hw : w.Sound) (expected : Version) (payload : Json) :
    Comes (Answers now)
      (fun a w' => w.Settled (.update s key expected payload now w.slots) (said a) w')
      (Coordinator.update s key expected payload) w := by
  unfold Coordinator.update Verdict.update
  cases Coordinator.checkPayload s payload with
  | error e => exact settled_refused hw e
  | ok u =>
    refine comes_now ?_
    refine comes_loadLive ?_ ?_
    · -- nothing is there, or it has expired: the call is refused
      intro hnone
      exact settled_ofRefusal hw (OneStep.refuses_absent hnone Record .updated _)
    · intro r hl he
      -- the record that is read stays, since nobody else writes before the swap
      have hp := OneStep.present_of_live hl he
      by_cases hv : r.version = expected
      · subst hv
        rw [if_neg (not_not_intro rfl)]
        have hkey : (r.withPayload payload s.node now).key = key := hw.keyed key r hl
        refine comes_swap hw hl hkey ?_
        show OneStep.update s.node key r.version payload now w.slots = _
        rw [OneStep.update, OneStep.atVersion_same hp rfl, Coordinator.changeOf]
        simp only [Record.withPayload, hw.keyed key r hl]
      · -- another version: refused, and the store is never asked to write
        rw [if_pos hv]
        exact settled_ofRefusal hw (OneStep.refuses_other hp hv Record .updated _)

/-- **A deletion by itself** settles as the one step has it. -/
theorem comes_delete (hw : w.Sound) (expected : Version) :
    Comes (Answers now)
      (fun a w' => w.Settled (.delete key expected now w.slots) (said a) w')
      (Coordinator.delete s key expected) w := by
  refine comes_now ?_
  refine comes_loadLive ?_ ?_
  · -- nothing is there, or it has expired: the call is refused
    intro hnone
    exact settled_ofRefusal hw (OneStep.refuses_absent hnone Unit .deleted _)
  · intro r hl he
    -- the record that is read stays, so the removal meets its version
    have hp := OneStep.present_of_live hl he
    by_cases hv : r.version = expected
    · subst hv
      rw [if_neg (not_not_intro rfl)]
      refine comes_storeCall ?_
      rw [Slots.apply_remove_applied hl rfl]
      -- a tombstone holds no record, so the keys of records stay right
      have hslot : ∀ r', Slot.tombstone r.tombstoneVersion = .live r' → r'.key = key := by
        rintro r' ⟨⟩
      have hstep : OneStep.delete key r.version now w.slots =
          (.ok ((), ⟨key, r.version.next, .deleted, now⟩),
            w.slots.put key (.tombstone r.version.next)) := by
        rw [OneStep.delete, OneStep.atVersion_same hp rfl]
      refine comes_settled hw hslot ?_
      rw [Verdict.delete, hstep]
      rfl
    · -- another version: refused, and the store is never asked to write
      rw [if_pos hv]
      exact settled_ofRefusal hw (OneStep.refuses_other hp hv Unit .deleted _)

/-- **A touch by itself** settles as the one step has it. -/
theorem comes_touch (hw : w.Sound) (extendBy : Span) :
    Comes (Answers now)
      (fun a w' => w.Settled (.touch s key extendBy now w.slots) (said a) w')
      (Coordinator.touch s key extendBy) w := by
  unfold Coordinator.touch Verdict.touch
  cases Coordinator.checkLifetime s "extend_by_ms" extendBy with
  | error e => exact settled_refused hw e
  | ok u =>
    refine comes_now ?_
    refine comes_loadLive ?_ ?_
    · intro hnone
      rw [hnone]
      exact settled_refused hw _
    · intro r hl he
      have hp := OneStep.present_of_live hl he
      rw [hp]
      have hkey : (r.extended extendBy (now.plus s.maxTtl) s.node now).key = key :=
        hw.keyed key r hl
      refine comes_swap hw hl hkey ?_
      show OneStep.touch s key r.version extendBy now w.slots = _
      rw [OneStep.touch, OneStep.atVersion_same hp rfl, Coordinator.changeOf]
      simp only [Record.extended, hw.keyed key r hl]

/-! ## Reading -/

/-- A look into the cache leaves everything sound. -/
theorem Sound.looked (hw : w.Sound) (tick : Nat) : (w.afterCache tick (.get key)).Sound := by
  refine ⟨hw.keyed, hw.distinct, ?_, fun x hx hne => ?_⟩
  · show (w.cache.call tick (.get key)).1.unavailable = false
    cases hf : w.cache.fresh? tick key with
    | none =>
      rw [MemoryCache.call_get_miss hw.available hf]
      exact hw.available
    | some r =>
      rw [MemoryCache.call_get_hit hw.available hf]
      exact hw.available
  · exact hw.current x ((w.cache.call_get tick key).1 x hx) hne

/-- What is found is the live record. -/
theorem Sound.live_of_found (hw : w.Sound) {tick : Nat} {r : Record}
    (h : w.found tick key = some r) : w.slots.live? key = some r := by
  unfold found at h
  cases hcall : (w.cache.call tick (.get key)).2 with
  | error f =>
    rw [hcall] at h
    cases h
  | ok x =>
    rw [hcall] at h
    obtain ⟨e, hmem, rfl, _⟩ := (w.cache.call_get tick key).2 r (by rw [hcall, ← h])
    exact hw.current _ ((w.cache.call_get tick key).1 _ hmem) nofun

/-- A copy of the live record leaves everything sound. -/
theorem Sound.copied (hw : w.Sound) {r : Record} (hl : w.slots.live? r.key = some r) (tick : Nat)
    (freshFor : Span) : (w.afterCache tick (.set r freshFor)).Sound := by
  unfold afterCache
  rw [MemoryCache.call_set hw.available]
  refine ⟨hw.keyed, hw.distinct, hw.available, fun x hx hne => ?_⟩
  rcases List.mem_cons.mp hx with rfl | hx
  · exact hl
  · exact hw.current x (MemoryCache.mem_without hx) hne

/-- **A reading by itself** answers as the one step, and leaves everything else as it is. -/
theorem comes_get (hw : w.Sound) :
    Comes (Answers now)
      (fun a w' => w.Settled ⟨(OneStep.get key now w.slots).1, w.slots, []⟩ a w')
      (Coordinator.get s key) w := by
  refine comes_now ?_
  -- what the store would answer, whatever state of the cache it is asked in
  have hload {w₁ : Solo} (hw₁ : w₁.Sound) (hslots : w₁.slots = w.slots)
      (htold : w₁.announced = w.announced) :
      Comes (Answers now)
        (fun a w' => w.Settled ⟨(OneStep.get key now w.slots).1, w.slots, []⟩ a w')
        (Coordinator.loadLive s key now fun r =>
          let freshFor := s.cacheTtl.shorter (r.expiresAt.remaining now)
          if freshFor.isZero then .done (.ok r)
          else .ask (.cache r freshFor) fun _ => .done (.ok r)) w₁ := by
    refine comes_loadLive ?_ ?_
    · intro hnone
      rw [hslots] at hnone
      refine ⟨?_, hslots, by rw [htold, List.append_nil], hw₁⟩
      simp only [OneStep.get, hnone]
    · intro r hl he
      have hp : OneStep.present w.slots key now = some r :=
        OneStep.present_of_live (hslots ▸ hl) he
      have hsaid : Except.ok r = (OneStep.get key now w.slots).1 := by simp only [OneStep.get, hp]
      simp only
      split
      · exact ⟨hsaid, hslots, by rw [htold, List.append_nil], hw₁⟩
      · rintro _ _ (rfl | ⟨tick, rfl⟩)
        · exact ⟨hsaid, hslots, by rw [htold, List.append_nil], hw₁⟩
        · have hkey : r.key = key := hw₁.keyed key r hl
          refine ⟨hsaid, hslots, ?_, hw₁.copied (hkey ▸ hl) tick _⟩
          show w₁.announced = w.announced ++ []
          rw [htold, List.append_nil]
  rintro copy w₁ (⟨rfl, rfl⟩ | ⟨tick, rfl, rfl⟩)
  · exact hload hw rfl rfl
  · cases hfound : w.found tick key with
    | none => exact hload (hw.looked tick) rfl rfl
    | some r =>
      -- a copy is judged as the record in the store would be
      have hl := hw.live_of_found hfound
      refine ⟨?_, rfl, (List.append_nil _).symm, hw.looked tick⟩
      cases he : r.isExpiredAt now with
      | true =>
        rw [if_pos rfl]
        simp only [OneStep.get, OneStep.present_of_expired hl he]
      | false =>
        rw [if_neg nofun]
        simp only [OneStep.get, OneStep.present_of_live hl he]

/-! ## Creating -/

/-- Versions low enough that two more can follow. -/
def InRange (w : Solo) : Prop := ∀ key, w.slots.versionOf key < 18446744073709551614

/-- The record that a creation makes at a version. -/
def made (s : CoordinatorSettings) (key : SessionKey) (payload : Json) (ttl : Span) (now : Instant)
    (v : Version) : Record := ⟨key, payload, v, s.node, now, now, now.plus ttl⟩

section

variable {payload : Json} {ttl : Span}

/-- Where nothing is present, a creation makes a record over what the key holds. -/
theorem create_eq_made (h : OneStep.present w.slots key now = none) :
    OneStep.create s.node key payload ttl now w.slots =
      (.ok (made s key payload ttl now (OneStep.versionOver (w.slots.get? key)),
        Coordinator.changeOf (made s key payload ttl now (OneStep.versionOver (w.slots.get? key)))
          .created now),
        w.slots.put key
          (.live (made s key payload ttl now (OneStep.versionOver (w.slots.get? key))))) := by
  simp only [OneStep.create, h]
  rfl

/-- An insertion that is applied. -/
theorem comes_inserted (hw : w.Sound) {rounds : Nat} {tombstone : Option Version}
    (hl : w.slots.live? key = none)
    (hr : Coordinator.fresh s key payload ttl now tombstone =
      made s key payload ttl now (OneStep.versionOver (w.slots.get? key)))
    (happ : ∀ r : Record, r.key = key → r.version = OneStep.versionOver (w.slots.get? key) →
      w.slots.apply (.insert r) = (.inserted, w.slots.put r.key (.live r), some (.ofRecord r))) :
    Comes (Answers now)
      (fun a w' => w.Settled
        (.created w.slots key now (OneStep.create s.node key payload ttl now w.slots)) (said a) w')
      (Coordinator.createFrom s key payload ttl now (rounds + 1) tombstone) w := by
  unfold Coordinator.createFrom
  rw [hr]
  refine comes_storeCall ?_
  rw [happ _ rfl rfl]
  refine comes_settled hw ?_ ?_
  · rintro r' ⟨⟩
    rfl
  · rw [create_eq_made (OneStep.present_of_none hl), Verdict.created, hl]
    rfl

/-- Over a tombstone, the second insertion is applied, or the first one if the tombstone is no match
    for it. -/
theorem comes_createAbove (hw : w.Sound) {v : Version}
    (hslot : w.slots.get? key = some (.tombstone v)) (hv : v.number < 18446744073709551615) :
    Comes (Answers now)
      (fun a w' => w.Settled
        (.created w.slots key now (OneStep.create s.node key payload ttl now w.slots)) (said a) w')
      (Coordinator.createFrom s key payload ttl now Coordinator.createRounds none) w := by
  have hl : w.slots.live? key = none := Slots.live?_eq_none.mpr (.inr ⟨v, hslot⟩)
  have hnext : v.next.number = v.number + 1 := Version.next_number (by omega)
  have habove (r : Record) (hk : r.key = key)
      (hver : r.version = OneStep.versionOver (w.slots.get? key)) :
      w.slots.apply (.insert r) = (.inserted, w.slots.put r.key (.live r), some (.ofRecord r)) := by
    subst hk
    refine Slots.apply_insert_above hslot ?_
    show ¬ r.version.number ≤ v.number
    rw [hver, hslot, OneStep.versionOver, hnext]
    omega
  by_cases hlow : Version.initial ≤ v
  · -- the first insertion meets the tombstone, the second one is above it
    unfold Coordinator.createRounds Coordinator.createFrom
    refine comes_unchanged (Slots.apply_insert_below hslot hlow) ?_
    exact comes_inserted hw hl (by rw [hslot]; rfl) habove
  · have hzero : v.next = Version.initial := by
      have hlow' : ¬ 1 ≤ v.number := hlow
      unfold Version.next Version.initial
      congr 1
      omega
    refine comes_inserted hw hl ?_ habove
    rw [hslot, OneStep.versionOver, hzero]
    rfl

/-- Over a tombstone with the last version nothing is above, so nothing is inserted. -/
theorem comes_createBelow (hw : w.Sound) {v : Version}
    (hslot : w.slots.get? key = some (.tombstone v)) (hv : 18446744073709551615 ≤ v.number)
    (rounds : Nat) :
    ∀ tombstone, tombstone = none ∨ tombstone = some v →
      Comes (Answers now)
        (fun a w' => w.Settled (.refused (.alreadyExists key) w.slots) (said a) w')
        (Coordinator.createFrom s key payload ttl now rounds tombstone) w := by
  induction rounds with
  | zero => exact fun _ _ => settled_refused hw _
  | succ rounds ih =>
    intro tombstone ht
    unfold Coordinator.createFrom
    refine comes_unchanged (Slots.apply_insert_below (v := v) ?_ ?_) (ih (some v) (.inr rfl))
    · rcases ht with rfl | rfl <;> exact hslot
    · rcases ht with rfl | rfl
      · show 1 ≤ v.number
        omega
      · show min (v.number + 1) 18446744073709551615 ≤ v.number
        omega

/-- A live record is in the way: it has expired, and is replaced, or nothing is created. -/
theorem comes_createOver (hw : w.Sound) {r : Record} (hl : w.slots.live? key = some r) :
    Comes (Answers now)
      (fun a w' => w.Settled
        (.created w.slots key now (OneStep.create s.node key payload ttl now w.slots)) (said a) w')
      (Coordinator.createFrom s key payload ttl now Coordinator.createRounds none) w := by
  unfold Coordinator.createRounds Coordinator.createFrom
  refine comes_unchanged (Slots.apply_insert_live hl) ?_
  simp only
  cases he : r.isExpiredAt now with
  | false =>
    -- it lives still: nothing is created
    rw [if_pos (by rfl)]
    have hp := OneStep.present_of_live hl he
    simp only [OneStep.create, hp]
    exact settled_refused hw _
  | true =>
    -- it has expired: two versions above it, as the one step has it
    rw [if_neg nofun]
    have hkey : r.key = key := hw.keyed key r hl
    refine comes_storeCall ?_
    rw [Slots.apply_swap_applied hl rfl]
    have hmade : Record.createOver r payload ttl s.node now =
        made s key payload ttl now (OneStep.versionOver (w.slots.get? key)) := by
      rw [Slots.live?_eq_some.mp hl, ← hkey]
      rfl
    simp only [hmade]
    refine comes_settled hw ?_ ?_
    · rintro r' ⟨⟩
      rfl
    · rw [create_eq_made (OneStep.present_of_expired hl he), Verdict.created, hl]
      subst hkey
      rfl

/-- The rounds of a creation settle as the one step has it: nobody else writes, so the first round
    is enough, or the second over a tombstone. -/
theorem comes_createFrom (hw : w.Sound)
    (hrange : ∀ v, w.slots.get? key = some (.tombstone v) → v.number < 18446744073709551615) :
    Comes (Answers now)
      (fun a w' => w.Settled
        (.created w.slots key now (OneStep.create s.node key payload ttl now w.slots)) (said a) w')
      (Coordinator.createFrom s key payload ttl now Coordinator.createRounds none) w := by
  cases hl : w.slots.live? key with
  | some r => exact comes_createOver hw hl
  | none =>
    rcases Slots.live?_eq_none.mp hl with hslot | ⟨v, hslot⟩
    · -- the key was never used
      refine comes_inserted hw hl (by rw [hslot]; rfl) ?_
      rintro r rfl _
      exact Slots.apply_insert_unused hslot
    · exact comes_createAbove hw hslot (hrange v hslot)

/-- **A creation by itself** settles as the one step has it. -/
theorem comes_create (hw : w.Sound) (hrange : w.InRange) :
    Comes (Answers now)
      (fun a w' => w.Settled (.create s key payload ttl now w.slots) (said a) w')
      (Coordinator.create s key payload ttl) w := by
  unfold Coordinator.create Verdict.create
  cases Coordinator.checkLifetime s "ttl_ms" ttl with
  | error e => exact settled_refused hw e
  | ok u =>
    cases Coordinator.checkPayload s payload with
    | error e => exact settled_refused hw e
    | ok u =>
      refine comes_now (comes_createFrom hw fun v hslot => ?_)
      have hv := hrange key
      rw [Slots.versionOf_of_get hslot] at hv
      exact Nat.lt_succ_of_lt hv

end

end Solo

end SessionCluster
