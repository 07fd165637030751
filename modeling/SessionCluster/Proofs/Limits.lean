/-
  Limits — what holds of every record that is ever stored.

  Two limits are common to all nodes: the longest lifetime, and the size of a payload.  They are
  looked at where something comes in from a caller: a creation has a lifetime and a payload, an
  update has a payload, and a touch has a ceiling.  All else of a record is carried over from the
  one before, so every operation has to do with records that keep the limits, and offers the
  store only such records (`Confines`).

  A record may outlive the reading of the clock that it was written with by the longest lifetime,
  and by no more.  So a `Timed` run has a log of what the clocks have shown, and to which call.

  * `limits_hold` — **every record in the store keeps the limits**, whatever the clocks show, and
    whatever calls fail or are dropped, for lifetimes of less than 2⁶⁴ milliseconds;
  * `longest_lifetime_exceeded` — a creation with a longer one may pass the check, and then its
    record outlives every limit.
-/
import SessionCluster.Proofs.Freshness
import SessionCluster.Proofs.Schedules

namespace SessionCluster

/-! ## Runs with a log of the clocks -/

/-- What the clocks have shown, each time to which call. -/
abbrev ClockLog := List (Call × Instant)

/-- The readings of the clock in the course of some exchanges of a call. -/
def Call.noted {σ : Type} (call : Call) (es : List (Exchange σ)) : ClockLog :=
  (readings es).map fun t => (call, t)

/-- A run of calls of some kind over a store that was empty at first, through worlds that are `within`
    what is considered, with a log of the clocks. -/
inductive Timed (within : World → Prop) (allowed : Call → Prop) :
    ClockLog → Cluster World → Prop where
  | idle : Timed within allowed [] (.idle {})
  | step {log : ClockLog} {c c' : Cluster World} {call : Call} {es : List (Exchange World)}
      (h : Timed within allowed log c) (hin : within c.world) (hcall : allowed call)
      (hs : Step World.Answers c call es c') : Timed within allowed (log ++ call.noted es) c'

theorem Timed.leads {within : World → Prop} {allowed : Call → Prop} {log : ClockLog}
    {c : Cluster World} (h : Timed within allowed log c) :
    Leads World.Answers within (.idle {}) c := by
  induction h with
  | idle => exact .refl
  | step _ hin _ hs ih => exact ih.tail ⟨hin, _, _, hs⟩

/-! ## The limits -/

/-- The limits that all nodes have in common. -/
structure Limits where
  maxTtl : Span
  maxPayloadBytes : Nat

/-- Settings with these limits. -/
structure CoordinatorSettings.HasLimits (s : CoordinatorSettings) (L : Limits) : Prop where
  maxTtl : s.maxTtl = L.maxTtl
  maxPayloadBytes : s.maxPayloadBytes = L.maxPayloadBytes

/-- A call of a node with these limits. -/
def Call.HasLimits (L : Limits) : Call → Prop
  | .create s _ _ _ | .get s _ | .update s _ _ _ | .delete s _ _ | .touch s _ _ => s.HasLimits L
  | .sweep _ => True

/-- The lifetime of a creation has less than 2⁶⁴ milliseconds, so that the check loses no bits. -/
def Call.FitsWord : Call → Prop
  | .create _ _ _ ttl => ttl.millis < 18446744073709551616
  | .get .. | .update .. | .delete .. | .touch .. | .sweep _ => True

/-- A call of a node with these limits, by which no bits are lost. -/
structure Call.Moderate (L : Limits) (call : Call) : Prop where
  limits : call.HasLimits L
  fits : call.FitsWord

instance (s : CoordinatorSettings) (L : Limits) : Decidable (s.HasLimits L) :=
  decidable_of_iff (s.maxTtl = L.maxTtl ∧ s.maxPayloadBytes = L.maxPayloadBytes)
    ⟨fun h => ⟨h.1, h.2⟩, fun h => ⟨h.1, h.2⟩⟩

instance (L : Limits) : (call : Call) → Decidable (call.HasLimits L)
  | .create s _ _ _ | .get s _ | .update s _ _ _ | .delete s _ _ | .touch s _ _ =>
    inferInstanceAs (Decidable (s.HasLimits L))
  | .sweep _ => .isTrue trivial

instance : (call : Call) → Decidable call.FitsWord
  | .create _ _ _ ttl => inferInstanceAs (Decidable (ttl.millis < 18446744073709551616))
  | .get .. | .update .. | .delete .. | .touch .. | .sweep _ => .isTrue trivial

instance (L : Limits) (call : Call) : Decidable (call.Moderate L) :=
  decidable_of_iff (call.HasLimits L ∧ call.FitsWord) ⟨fun h => ⟨h.1, h.2⟩, fun h => ⟨h.1, h.2⟩⟩

/-- Whether a call may set the expiry of a key by its own clock. -/
def Call.SetsExpiry : Call → SessionKey → Prop
  | .create _ own _ _, key | .touch _ own _, key => own = key
  | .get .., _ | .update .., _ | .delete .., _ | .sweep _, _ => False

/-- A record of a key that keeps the limits: it sits under its own key, has a version from one on and a
    payload within the limit; and there is a reading of the clock by a creation or a touch of the key
    that it outlives by the longest lifetime at most. -/
structure Record.KeepsLimits (L : Limits) (log : ClockLog) (key : SessionKey) (r : Record) :
    Prop where
  key_eq : r.key = key
  version : 1 ≤ r.version.number
  payload : Coordinator.payloadBytes r.payload ≤ L.maxPayloadBytes
  expiry : ∃ x ∈ log, x.1.SetsExpiry key ∧
    (x.2.inLeapSecond = false → r.expiresAt ≤ x.2.plus L.maxTtl)

/-- All records of a store keep the limits. -/
def World.KeepsLimits (L : Limits) (log : ClockLog) (w : World) : Prop :=
  ∀ key r, w.slots.live? key = some r → r.KeepsLimits L log key

theorem Record.KeepsLimits.mono {L : Limits} {log log' : ClockLog} {key : SessionKey} {r : Record}
    (h : r.KeepsLimits L log key) (hlog : log ⊆ log') : r.KeepsLimits L log' key := by
  obtain ⟨x, hx, hsets⟩ := h.expiry
  exact { h with expiry := ⟨x, hlog hx, hsets⟩ }

theorem World.KeepsLimits.mono {L : Limits} {log log' : ClockLog} {w : World}
    (h : w.KeepsLimits L log) (hlog : log ⊆ log') : w.KeepsLimits L log' :=
  fun key r hl => (h key r hl).mono hlog

/-! ## What a call on the store offers and shows -/

/-- The record that a call offers the store, with the key that it is for. -/
def StoreCall.offers? : StoreCall → Option (SessionKey × Record)
  | .insert r => some (r.key, r)
  | .swap key _ r => some (key, r)
  | _ => none

/-- What a call on the store is shown keeps the limits. -/
def StoreCall.ShowsLimits (L : Limits) (log : ClockLog) : (c : StoreCall) → c.Outcome → Prop
  | .get key, some r => r.KeepsLimits L log key
  | .insert offered, .occupied r => r.KeepsLimits L log offered.key
  | _, _ => True

/-- A record that is in the store after a call was there before, or was offered for its key. -/
theorem Slots.live?_offered {s : Slots} {c : StoreCall} {key : SessionKey} {r : Record}
    (h : (s.apply c).2.1.live? key = some r) :
    s.live? key = some r ∨ c.offers? = some (key, r) := by
  -- the replaced slot holds the record that was offered, and the others what they held
  have hput {k : SessionKey} {r' : Record} (hl : (s.put k (.live r')).live? key = some r) :
      s.live? key = some r ∨ some (k, r') = some (key, r) := by
    rw [live?_put] at hl
    split at hl
    · rename_i hk
      cases hl
      exact .inr (by rw [hk])
    · exact .inl hl
  cases c with
  -- calls that only read leave the store as it was
  | get k => exact .inl h
  | scan now limit => exact .inl h
  | ping => exact .inl h
  | insert r' =>
    revert h
    simp only [apply]
    cases s.insertOutcome r' with
    | inserted => exact hput
    | occupied existing => exact .inl
    | tombstoned v => exact .inl
  | swap k expected r' =>
    revert h
    simp only [apply]
    cases s.writeOutcome k expected with
    | applied => exact hput
    | conflict current => exact .inl
    | missing => exact .inl
  | remove k expected =>
    -- a removal puts no record anywhere, whatever its outcome
    rcases live?_after h with hl | hput
    · exact .inl hl
    · cases ho : (s.apply (.remove k expected)).1 <;> rw [ho] at hput <;> cases hput

/-- A key that is occupied holds the record that the outcome names. -/
theorem Slots.live?_of_occupied {s : Slots} {r existing : Record}
    (h : s.insertOutcome r = .occupied existing) : s.live? r.key = some existing := by
  unfold insertOutcome at h
  split at h
  · rename_i hget
    cases h
    exact live?_eq_some.mpr hget
  · split at h <;> cases h
  · cases h

/-- A store whose records keep the limits shows such records only. -/
theorem World.KeepsLimits.shows {L : Limits} {log : ClockLog} {w : World}
    (h : w.KeepsLimits L log) (c : StoreCall) : c.ShowsLimits L log (w.slots.apply c).1 := by
  cases c with
  | get key =>
    show StoreCall.ShowsLimits L log (.get key) (w.slots.live? key)
    cases hl : w.slots.live? key with
    | none => trivial
    | some r => exact h key r hl
  | insert r =>
    simp only [Slots.apply]
    cases hout : w.slots.insertOutcome r with
    | occupied existing => exact h r.key existing (Slots.live?_of_occupied hout)
    | inserted => trivial
    | tombstoned v => trivial
  | swap key expected r => trivial
  | remove key expected => trivial
  | scan now limit => trivial
  | ping => trivial

/-! ## Operations that keep within limits -/

/-- An operation offers the store only records that keep the limits, by the readings of the clock so
    far, as long as it is shown only such records.  Readings may be added whenever it waits. -/
def Confines (L : Limits) (call : Call) {α : Type} : Operation α → ClockLog → Prop
  | .done _, _ => True
  | .ask .now next, log => ∀ t : Instant, Confines L call (next t) (log ++ [(call, t)])
  | .ask (.store c) next, log =>
    (∀ key r, c.offers? = some (key, r) → r.KeepsLimits L log key) ∧
      ∀ log', log ⊆ log' → ∀ x, (∀ o, x = some (.ok o) → c.ShowsLimits L log' o) →
        Confines L call (next x) log'
  | .ask _ next, log => ∀ x, Confines L call (next x) log

section

variable {L : Limits} {call : Call} {α : Type} {log : ClockLog}

/-- What keeps to a log of the clock keeps to a longer one. -/
theorem Confines.mono (p : Operation α) :
    ∀ {log log' : ClockLog}, Confines L call p log → log ⊆ log' → Confines L call p log' := by
  induction p with
  | done a => exact fun _ _ => trivial
  | ask q next ih =>
    intro log log' h hlog
    cases q with
    | now =>
      refine fun t => ih t (h t) ?_
      exact List.append_subset.mpr
        ⟨List.Subset.trans hlog (List.subset_append_left ..), List.subset_append_right ..⟩
    | store c =>
      exact ⟨fun key r hr => (h.1 key r hr).mono hlog,
        fun log'' hlater x hx => h.2 log'' (List.Subset.trans hlog hlater) x hx⟩
    | _ => exact fun x => ih x (h x) hlog

/-- A call on the store whose failures end the operation. -/
theorem Confines.storeCall {s : CoordinatorSettings} {c : StoreCall}
    {next : c.Outcome → Operation (Except SessionError α)}
    (hoffers : ∀ key r, c.offers? = some (key, r) → r.KeepsLimits L log key)
    (hnext : ∀ log', log ⊆ log' → ∀ o, c.ShowsLimits L log' o → Confines L call (next o) log') :
    Confines L call (Coordinator.storeCall s c next) log := by
  refine ⟨hoffers, fun log' hlog x hx => ?_⟩
  rcases x with _ | f | o
  · trivial
  · trivial
  · exact hnext log' hlog o (hx o rfl)

/-- Reading the record: what is read is within limits, and what follows may count on that. -/
theorem Confines.loadLive {s : CoordinatorSettings} {key : SessionKey} {now : Instant}
    {next : Record → Operation (Except SessionError α)}
    (hnext : ∀ log', log ⊆ log' → ∀ r : Record, r.KeepsLimits L log' key →
      Confines L call (next r) log') :
    Confines L call (Coordinator.loadLive s key now next) log := by
  refine .storeCall (fun _ _ hr => by cases hr) fun log' hlog found hfound => ?_
  cases found with
  | none => trivial
  | some r =>
    simp only
    split
    · trivial
    · exact hnext log' hlog r hfound

theorem Confines.commit (key : SessionKey) (value : α) (earlier : List Change) (own : Change) :
    Confines L call (Coordinator.commit key value earlier own) log := fun _ _ _ _ => trivial

/-- A record that keeps the limits replaces the one of an expected version. -/
theorem Confines.swap (s : CoordinatorSettings) {key : SessionKey} (expected : Version)
    {r : Record} (now : Instant) (hr : r.KeepsLimits L log key) :
    Confines L call (Coordinator.swap s key expected r now) log := by
  refine .storeCall (fun key' r' h => ?_) fun log' _ o _ => ?_
  · cases h
    exact hr
  · cases o with
    | applied => exact Confines.commit _ _ _ _
    | conflict latest => trivial
    | missing => trivial

end

/-! ## Every call keeps within limits -/

section

variable {L : Limits} {call : Call} {log : ClockLog}

theorem Version.one_le_next (v : Version) : 1 ≤ v.next.number := by
  unfold next
  simp only
  omega

/-- What a creation makes keeps the limits, if its lifetime and its payload passed the checks. -/
theorem Record.KeepsLimits.made {key : SessionKey} {ttl : Span} {now : Instant} {r : Record}
    (hlog : (call, now) ∈ log) (hsets : call.SetsExpiry key) (httl : ttl.millis ≤ L.maxTtl.millis)
    (hkey : r.key = key) (hversion : 1 ≤ r.version.number)
    (hpayload : Coordinator.payloadBytes r.payload ≤ L.maxPayloadBytes)
    (hexpiry : r.expiresAt = now.plus ttl) : r.KeepsLimits L log key where
  key_eq := hkey
  version := hversion
  payload := hpayload
  expiry := ⟨(call, now), hlog, hsets, fun hnow => hexpiry ▸ Instant.plus_le_of_millis_le hnow httl⟩

/-- All rounds of a creation put records of the same lifetime, from the same reading of the clock.
    -/
theorem createFrom_confines (s : CoordinatorSettings) {key : SessionKey} {payload : Json}
    {ttl : Span} {now : Instant} (hsets : call.SetsExpiry key)
    (httl : ttl.millis ≤ L.maxTtl.millis)
    (hpayload : Coordinator.payloadBytes payload ≤ L.maxPayloadBytes) (rounds : Nat) :
    ∀ t {log : ClockLog}, (call, now) ∈ log →
      Confines L call (Coordinator.createFrom s key payload ttl now rounds t) log := by
  induction rounds with
  | zero => exact fun _ _ _ => trivial
  | succ rounds ih =>
    intro t log hmem
    refine .storeCall (fun key' r hr => ?_) fun log₁ hlog₁ o ho => ?_
    · obtain ⟨rfl, rfl⟩ := Prod.mk.inj (Option.some.inj hr)
      cases t with
      | none => exact .made hmem hsets httl rfl (Nat.le_refl 1) hpayload rfl
      | some v => exact .made hmem hsets httl rfl v.one_le_next hpayload rfl
    · cases o with
      | inserted => exact Confines.commit _ _ _ _
      | tombstoned v => exact ih _ (hlog₁ hmem)
      | occupied existing =>
        have hkey : existing.key = key := by
          cases t <;> exact Record.KeepsLimits.key_eq ho
        simp only
        split
        · trivial
        · -- the record in the way has expired, and is replaced
          refine .storeCall (fun key' r hr => ?_) fun log₂ hlog₂ o _ => ?_
          · obtain ⟨rfl, rfl⟩ := Prod.mk.inj (Option.some.inj hr)
            exact .made (hlog₁ hmem) hsets httl hkey (Version.one_le_next _) hpayload rfl
          · cases o with
            | applied => exact Confines.commit _ _ _ _
            | conflict latest => trivial
            | missing => exact ih _ (hlog₂ (hlog₁ hmem))

/-- A batch puts no record anywhere. -/
theorem evict_confines {α : Type} (s : SweeperSettings) (now : Instant)
    {next : Nat → Sweeper.Progress → Operation (Except SessionError α)}
    (hnext : ∀ n p log, Confines L call (next n p) log) (batch : List Record) :
    ∀ removed p log, Confines L call (Sweeper.evict s now next batch removed p) log := by
  induction batch with
  | nil => exact hnext
  | cons r batch ih =>
    intro removed p log
    refine ⟨fun _ _ hr => (by cases hr), fun log' _ x _ => ?_⟩
    rcases x with _ | f | o
    · trivial
    · trivial
    · cases o with
      | applied => exact fun _ _ => ih _ _ _
      | conflict latest => exact ih _ _ _
      | missing => exact ih _ _ _

/-- Neither do all batches. -/
theorem batches_confines (s : SweeperSettings) (now : Instant) (rounds : Nat) :
    ∀ p log, Confines L call (Sweeper.batches s now rounds p) log := by
  have hreport (p : Sweeper.Progress) (log : ClockLog) :
      Confines L call (Sweeper.report p) log := fun _ => trivial
  induction rounds with
  | zero => exact hreport
  | succ rounds ih =>
    intro p log
    refine ⟨fun _ _ hr => (by cases hr), fun log' _ x _ => ?_⟩
    rcases x with _ | f | batch
    · trivial
    · trivial
    · refine evict_confines s now (fun removed p log => ?_) batch 0 p log'
      simp only
      split
      · exact hreport _ _
      · exact ih _ _

/-- A lifetime that passes the check is no longer than the longest one, where no bits are lost. -/
theorem millis_le_of_checkLifetime {s : CoordinatorSettings} {field : String} {d : Span} {u : Unit}
    (h : Coordinator.checkLifetime s field d = .ok u) (hd : d.millis < 18446744073709551616)
    (hmost : s.maxTtl.millis < 18446744073709551616) : d.millis ≤ s.maxTtl.millis := by
  unfold Coordinator.checkLifetime Coordinator.wordMillis at h
  simp only [Nat.mod_eq_of_lt hd, Nat.mod_eq_of_lt hmost] at h
  split at h
  · cases h
  · omega

/-- A payload that passes its check is no larger than it may be. -/
theorem payloadBytes_le_of_checkPayload {s : CoordinatorSettings} {payload : Json} {u : Unit}
    (h : Coordinator.checkPayload s payload = .ok u) :
    Coordinator.payloadBytes payload ≤ s.maxPayloadBytes := by
  unfold Coordinator.checkPayload at h
  simp only at h
  split at h
  · cases h
  · omega

/-- A creation within limits puts a record within limits. -/
theorem create_confines (hL : L.maxTtl.millis < 18446744073709551616) {s : CoordinatorSettings}
    (hs : s.HasLimits L) (key : SessionKey) (payload : Json) {ttl : Span}
    (hfits : ttl.millis < 18446744073709551616) :
    Confines L (.create s key payload ttl) (Coordinator.create s key payload ttl) log := by
  unfold Coordinator.create
  cases hlife : Coordinator.checkLifetime s "ttl_ms" ttl with
  | error e => trivial
  | ok u =>
    cases hsize : Coordinator.checkPayload s payload with
    | error e => trivial
    | ok u =>
      -- both checks have passed, so what comes in keeps the limits
      have hmillis := millis_le_of_checkLifetime hlife hfits (hs.maxTtl ▸ hL)
      have hbytes := payloadBytes_le_of_checkPayload hsize
      rw [hs.maxTtl] at hmillis
      rw [hs.maxPayloadBytes] at hbytes
      have hsets : (Call.create s key payload ttl).SetsExpiry key := rfl
      exact fun now => createFrom_confines s hsets hmillis hbytes _ none
        (List.mem_append_right _ (List.mem_singleton_self _))

/-- A reading call offers the store nothing. -/
theorem get_confines (s : CoordinatorSettings) (key : SessionKey) :
    Confines L call (Coordinator.get s key) log := by
  refine fun now copy => ?_
  cases copy with
  | some r => trivial
  | none =>
    refine .loadLive fun log' _ r _ => ?_
    simp only
    split
    · trivial
    · exact fun _ => trivial

/-- An update brings a payload, and carries the expiry over. -/
theorem update_confines {s : CoordinatorSettings} (hs : s.HasLimits L) (key : SessionKey)
    (expected : Version) (payload : Json) :
    Confines L call (Coordinator.update s key expected payload) log := by
  unfold Coordinator.update
  cases hsize : Coordinator.checkPayload s payload with
  | error e => trivial
  | ok u =>
    have hbytes := payloadBytes_le_of_checkPayload hsize
    rw [hs.maxPayloadBytes] at hbytes
    refine fun now => .loadLive fun log' _ r hr => ?_
    split
    · trivial
    · exact .swap s expected now ⟨hr.key_eq, Version.one_le_next _, hbytes, hr.expiry⟩

/-- Neither does a removal offer anything. -/
theorem delete_confines (s : CoordinatorSettings) (key : SessionKey) (expected : Version) :
    Confines L call (Coordinator.delete s key expected) log := by
  refine fun now => .loadLive fun log' _ r _ => ?_
  split
  · trivial
  · refine .storeCall (fun _ _ hr => by cases hr) fun log'' _ o _ => ?_
    cases o with
    | applied => exact Confines.commit _ _ _ _
    | conflict latest => trivial
    | missing => trivial

/-- A touch carries the payload over, and has a ceiling for the expiry. -/
theorem touch_confines {s : CoordinatorSettings} (hs : s.HasLimits L) (key : SessionKey)
    (extendBy : Span) :
    Confines L (.touch s key extendBy) (Coordinator.touch s key extendBy) log := by
  unfold Coordinator.touch
  cases Coordinator.checkLifetime s "extend_by_ms" extendBy with
  | error e => trivial
  | ok u =>
    refine fun now => .loadLive fun log' hlog r hr => ?_
    have hmem : (Call.touch s key extendBy, now) ∈ log' :=
      hlog (List.mem_append_right _ (List.mem_singleton_self _))
    refine .swap s r.version now ⟨hr.key_eq, Version.one_le_next _, hr.payload, ?_⟩
    -- the ceiling counts from the clock of the touch, so that reading is the witness
    refine ⟨_, hmem, rfl, fun _ => ?_⟩
    rw [← hs.maxTtl]
    exact min_le_right _ _

/-- **Every call keeps within the limits** of its node. -/
theorem Call.confines (hL : L.maxTtl.millis < 18446744073709551616) (hcall : call.Moderate L)
    (log : ClockLog) : Confines L call call.operation log := by
  obtain ⟨hs, hfits⟩ := hcall
  cases call with
  | create s key payload ttl => exact create_confines hL hs key payload hfits
  | get s key => exact get_confines s key
  | update s key expected payload => exact update_confines hs key expected payload
  | delete s key expected => exact delete_confines s key expected
  | touch s key extendBy => exact touch_confines hs key extendBy
  | sweep s => exact fun now => batches_confines s now _ _ _

end

/-! ## Stores within limits -/

section

variable {L : Limits} {call : Call} {α : Type} {log : ClockLog} {w w' : World}
  {p p' : Operation α} {es : List (Exchange World)}

/-- What takes no time adds readings of the clock. -/
theorem Settles.confines (h : Settles World.Answers w p es w' p') :
    ∀ {log : ClockLog}, Confines L call p log → Confines L call p' (log ++ call.noted es) := by
  induction h with
  | rest =>
    intro log hp
    show Confines L call _ (log ++ [])
    rw [List.append_nil]
    exact hp
  | @ask w q next x w₁ es w₂ p hq _ _ ih =>
    intro log hp
    cases q with
    | now =>
      show Confines L call p (log ++ ((call, x) : Call × Instant) :: call.noted es)
      rw [List.append_cons]
      exact ih (hp x)
    | announce earlier own => exact ih (hp x)
    | beginForget key => exact ih (hp x)
    | _ => cases hq

/-- A poll that begins with an answer leaves the store within limits, and the call too. -/
theorem Confines.poll {q : Request} {next : q.Answer → Operation α} {x : q.Answer} {w₁ : World}
    (hw : w.KeepsLimits L log) (hp : Confines L call (.ask q next) log) (ha : w.Answers q x w₁)
    (hs : Settles World.Answers w₁ (next x) es w' p') :
    w'.KeepsLimits L log ∧ Confines L call p' (log ++ call.noted (⟨w, q, x, w₁⟩ :: es)) := by
  have hslots := hs.slots_eq.1
  have hkept (hsame : w₁.slots = w.slots) : w'.KeepsLimits L log := by
    intro key r hl
    rw [hslots, hsame] at hl
    exact hw key r hl
  cases q with
  | store c =>
    -- the store answered, or the answer was lost and the call goes on as if it had failed
    rcases ha with ⟨rfl, rfl⟩ | ⟨hx, rfl⟩
    · refine ⟨fun key r hl => ?_, hs.confines (hp.2 log (fun _ h => h) _ fun o ho => ?_)⟩
      · rw [hslots] at hl
        rcases Slots.live?_offered hl with hold | hnew
        · exact hw key r hold
        · exact hp.1 key r hnew
      · cases ho
        exact hw.shows c
    · exact ⟨hkept rfl, hs.confines (hp.2 log (fun _ h => h) x fun o ho => absurd ho (hx o))⟩
  | now =>
    -- a reading of the clock goes into the log, so what follows may be measured by it
    obtain rfl := ha
    refine ⟨hkept rfl, ?_⟩
    show Confines L call p' (log ++ ((call, x) : Call × Instant) :: call.noted es)
    rw [List.append_cons]
    exact hs.confines (hp x)
  | cached key =>
    obtain ⟨_, rfl⟩ := ha
    exact ⟨hkept rfl, hs.confines (hp x)⟩
  | announce earlier own =>
    obtain ⟨_, rfl⟩ := ha
    exact ⟨hkept rfl, hs.confines (hp x)⟩
  | _ =>
    obtain rfl := ha
    exact ⟨hkept rfl, hs.confines (hp x)⟩

end

/-- A cluster whose store keeps the limits, and whose calls keep within them. -/
structure Cluster.KeepsLimits (L : Limits) (log : ClockLog) (c : Cluster World) : Prop where
  world : c.world.KeepsLimits L log
  calls : ∀ i p, c.calls i = some p → Confines L p.call p.rest log

section

variable {L : Limits} {within : World → Prop} {log : ClockLog} {c c' : Cluster World} {call : Call}
  {es : List (Exchange World)}

/-- **Every step keeps the limits.** -/
theorem Cluster.KeepsLimits.step (hL : L.maxTtl.millis < 18446744073709551616)
    (h : c.KeepsLimits L log) (hcall : call.Moderate L) (hs : Step World.Answers c call es c') :
    c'.KeepsLimits L (log ++ call.noted es) := by
  -- the log of the clock only grows, and whoever kept to it does so still
  have hlog : log ⊆ log ++ call.noted es := List.subset_append_left ..
  constructor
  case world =>
    cases hs with
    | start j hj hs =>
      -- a first poll puts nothing into the store
      intro key r hl
      rw [hs.slots_eq.1] at hl
      exact (h.world key r hl).mono hlog
    | resume j hj ha hs => exact (Confines.poll h.world (h.calls j _ hj) ha hs).1.mono hlog
    | drop j hj => exact h.world.mono hlog
  case calls =>
    intro i p hp
    cases hs.progressed hp with
    | begun hset => exact hset.confines (Call.confines hL hcall log)
    | resumed hi ha hset => exact (Confines.poll h.world (h.calls i _ hi) ha hset).2
    | stayed hi => exact (h.calls i p hi).mono _ hlog

/-- At any time, every record in the store keeps the limits. -/
theorem Timed.keepsLimits (hL : L.maxTtl.millis < 18446744073709551616)
    (h : Timed within (Call.Moderate L) log c) : c.KeepsLimits L log := by
  induction h with
  | idle =>
    refine ⟨?_, ?_⟩
    · rintro key r ⟨⟩
    · rintro i p ⟨⟩
  | step _ _ hcall hs ih => exact ih.step hL hcall hs

/-- **Limits hold of everything that is ever stored.**  For nodes that have their limits in common, and
    lifetimes of which the check loses no bits, in every run, whatever the clocks show and whatever
    calls fail or are dropped: every record in the store sits under its own key, has a version from
    one on and a payload within the limit; it outlives some reading of the clock by a creation or a
    touch of its key by the longest lifetime at most, and so it does the latest reading of all, if
    none lies in a leap second. -/
theorem limits_hold (hL : L.maxTtl.millis < 18446744073709551616)
    (h : Timed (fun _ => True) (Call.Moderate L) log c) {key : SessionKey} {r : Record}
    (hr : c.world.slots.live? key = some r) :
    r.KeepsLimits L log key ∧
      ∀ latest ∈ log, (∀ x ∈ log, x.2 ≤ latest.2 ∧ x.2.inLeapSecond = false) →
        r.expiresAt ≤ latest.2.plus L.maxTtl := by
  have hkeeps := (h.keepsLimits hL).world key r hr
  refine ⟨hkeeps, fun latest hlatest hall => ?_⟩
  obtain ⟨x, hx, _, hexpiry⟩ := hkeeps.expiry
  obtain ⟨hle, hordinary⟩ := hall x hx
  exact le_trans (hexpiry hordinary)
    (Instant.plus_le_plus hordinary (hall latest hlatest).2 hle L.maxTtl)

end

/-! ## Schedules -/

/-- All calls of a run were allowed to begin. -/
theorem Timed.allowed {within : World → Prop} {allowed : Call → Prop} {log : ClockLog}
    {c : Cluster World} (h : Timed within allowed log c) {i : Nat} {p : Progress World}
    (hp : c.calls i = some p) : allowed p.call := by
  induction h generalizing i p with
  | idle => cases hp
  | step _ _ hcall hs ih =>
    cases hs.progressed hp with
    | begun => exact hcall
    | resumed => exact hcall
    | stayed hi => exact ih hi

/-- What the clocks show in the course of a schedule, and to which call. -/
def Cluster.clockLog (c : Cluster World) : List Action → ClockLog
  | [] => []
  | a :: rest =>
    ((c.actor a).elim [] fun call => call.noted (c.asked a)) ++ (c.act a).clockLog rest

/-- The call that an action begins. -/
def Action.begins? : Action → Option Call
  | .start _ call _ => some call
  | .resume .. | .drop _ => none

/-- A schedule that can be followed is a run, with its log of the clocks. -/
theorem Timed.follow {within : World → Prop} {allowed : Call → Prop}
    (hwithin : ∀ w : World, w.InRange → within w) (schedule : List Action) :
    ∀ {log : ClockLog} {c : Cluster World}, Timed within allowed log c →
      (∀ call ∈ schedule.filterMap Action.begins?, allowed call) →
      c.admitsAll schedule = true →
        Timed within allowed (log ++ c.clockLog schedule) (c.follow schedule) := by
  induction schedule with
  | nil =>
    intro log c h _ _
    rw [Cluster.clockLog, List.append_nil]
    exact h
  | cons a rest ih =>
    intro log c h hstarts hall
    obtain ⟨hfirst, hrest⟩ := Bool.and_eq_true_iff.mp hall
    obtain ⟨ha, hin⟩ := Bool.and_eq_true_iff.mp hfirst
    obtain ⟨call, hactor, hs⟩ := Cluster.step_actor ha
    -- whoever acts began with an allowed call: either now, or when it was begun in the run
    have hcall : allowed call := by
      cases a with
      | start i own now =>
        obtain rfl : own = call := Option.some.inj hactor
        exact hstarts own (List.mem_cons_self ..)
      | resume i now fails =>
        obtain ⟨p, hp, rfl⟩ := Option.map_eq_some_iff.mp hactor
        exact h.allowed hp
      | drop i =>
        obtain ⟨p, hp, rfl⟩ := Option.map_eq_some_iff.mp hactor
        exact h.allowed hp
    -- what is begun later was allowed too
    have hothers : ∀ later ∈ rest.filterMap Action.begins?, allowed later := by
      intro later hmem
      obtain ⟨b, hb, hbegins⟩ := List.mem_filterMap.mp hmem
      exact hstarts later (List.mem_filterMap.mpr ⟨b, List.mem_cons_of_mem _ hb, hbegins⟩)
    have hlater := ih (h.step (hwithin _ (World.inRange_sound hin)) hcall hs) hothers hrest
    rw [List.append_assoc] at hlater
    rw [Cluster.clockLog, hactor]
    exact hlater

namespace Sample

/-- The limits of a node as it is set up by default. -/
def limits : Limits := ⟨settings.maxTtl, settings.maxPayloadBytes⟩

/-- A session is created for five seconds, and touched for a week a second later. -/
def prolonged : List Action :=
  [.start 0 (.create settings key .null (.ofMillis 5000)) (second 0), .resume 0 (second 0) false,
   .start 1 (.touch settings key (.ofSeconds 604800)) (second 1), .resume 1 (second 1) false,
   .resume 1 (second 1) false]

/-- A lifetime of which the check sees a millisecond only: 2⁶⁴ milliseconds, and another one. -/
def unseen : Span := ⟨18446744073709551617000000, by decide⟩

/-- A session is created for longer than a word of milliseconds. -/
def endless : List Action :=
  [.start 0 (.create settings key .null unseen) (second 0), .resume 0 (second 0) false]

end Sample

open Sample in
/-- The session that was touched lasts for a week from then. -/
theorem sample_limits_hold : Sample.limits.maxTtl.millis < 18446744073709551616 ∧
    ∃ log c r, Timed (fun _ => True) (Call.Moderate Sample.limits) log c ∧
      c.world.slots.live? Sample.key = some r ∧
      r.expiresAt = (Sample.second 1).plus Sample.limits.maxTtl ∧
      r.KeepsLimits Sample.limits log Sample.key := by
  have hL : limits.maxTtl.millis < 18446744073709551616 := by decide +kernel
  have h : Timed (fun _ => True) (Call.Moderate limits) _ _ :=
    Timed.follow (fun _ _ => trivial) prolonged .idle (by decide +kernel) (by decide +kernel)
  obtain ⟨r, hr, hexpiry⟩ : ∃ r, ((Cluster.idle {}).follow prolonged).world.slots.live? key = some r ∧
      r.expiresAt = (second 1).plus limits.maxTtl := ⟨_, rfl, by decide +kernel⟩
  exact ⟨hL, _, _, r, h, hr, hexpiry, (limits_hold hL h hr).1⟩

open Sample in
/-- **A record may outlive every limit.**  A creation for a millisecond more than a word can count
    passes the check, and its record lasts until the end of time. -/
theorem longest_lifetime_exceeded : Sample.limits.maxTtl.millis < 18446744073709551616 ∧
    ∃ log c r latest, Timed (fun _ => True) (Call.HasLimits Sample.limits) log c ∧
      c.world.slots.live? Sample.key = some r ∧ latest ∈ log ∧
      (∀ x ∈ log, x.2 ≤ latest.2 ∧ x.2.inLeapSecond = false) ∧
      ¬ r.expiresAt ≤ latest.2.plus Sample.limits.maxTtl := by
  have h : Timed (fun _ => True) (Call.HasLimits limits)
      [(.create settings key .null unseen, second 0)] ((Cluster.idle {}).follow endless) :=
    Timed.follow (fun _ _ => trivial) endless .idle (by decide +kernel) (by decide +kernel)
  obtain ⟨r, hr, hexpiry⟩ : ∃ r, ((Cluster.idle {}).follow endless).world.slots.live? key = some r ∧
      r.expiresAt = .last := ⟨_, rfl, by decide +kernel⟩
  refine ⟨by decide +kernel, _, _, r, _, h, hr, List.mem_singleton_self _, by decide +kernel, ?_⟩
  rw [hexpiry]
  decide +kernel

end SessionCluster
