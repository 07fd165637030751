/-
  Freshness — a record has not expired at the reading that its writer announces it with.

  A creation makes a record that lasts a millisecond or more, an update keeps the expiry of a record
  that it has found unexpired, and a touch moves such an expiry on.  So each record that is put into
  the store is FRESH at the reading of its writer's clock: it has not expired by any clock that
  shows no more than that reading, as long as that clock has not reached the last instant there is.

  Operations announce what they put in the poll in which they put it (`Vouches`); so at any time
  every record in the store has been announced with a reading at which it was fresh
  (`Leads.vouched`).  Nothing is assumed of the clocks.
-/
import SessionCluster.Proofs.Instants
import SessionCluster.Proofs.Interleaving
import SessionCluster.Proofs.SharedStore

namespace SessionCluster

/-! ## What a call puts into the store -/

/-- The record that a call on the store has put there, by its outcome. -/
def StoreCall.puts? : (c : StoreCall) → c.Outcome → Option Record
  | .insert r, .inserted => some r
  | .swap _ _ r, .applied => some r
  | _, _ => none

/-- A record that is in the store after a call was there before, or was put there. -/
theorem Slots.live?_after {s : Slots} {c : StoreCall} {key : SessionKey} {r : Record}
    (h : (s.apply c).2.1.live? key = some r) :
    s.live? key = some r ∨ c.puts? (s.apply c).1 = some r := by
  -- what stands after one slot was replaced: the new record, or what stood before
  have hput {k : SessionKey} {slot : Slot} (hl : (s.put k slot).live? key = some r) :
      slot.record? = some r ∨ s.live? key = some r := by
    rw [live?_put] at hl
    split at hl
    · exact .inl hl
    · exact .inr hl
  cases c with
  -- calls that only read leave the store as it was
  | get k => exact .inl h
  | scan now limit => exact .inl h
  | ping => exact .inl h
  | insert r' =>
    -- the outcome decides whether the store was written at all
    revert h
    simp only [apply]
    cases s.insertOutcome r' with
    | inserted => exact fun h => (hput h).symm
    | occupied existing => exact .inl
    | tombstoned v => exact .inl
  | swap k expected r' =>
    revert h
    simp only [apply]
    cases s.writeOutcome k expected with
    | applied => exact fun h => (hput h).symm
    | conflict current => exact .inl
    | missing => exact .inl
  | remove k expected =>
    revert h
    simp only [apply]
    cases s.get? k with
    | none => exact .inl
    | some slot =>
      cases slot with
      | tombstone v => exact .inl
      | live current =>
        simp only
        split
        · -- the tombstone that is left holds no record, so what is found stood before
          intro h
          rcases hput h with hr | hl
          · cases hr
          · exact .inl hl
        · exact .inl

/-! ## Fresh records -/

/-- A record that has not expired by any clock that shows no more than a reading, short of the last
    instant. -/
def Record.FreshAt (r : Record) (t : Instant) : Prop :=
  ∀ now : Instant, now.before .last = true → t.before now = false → r.isExpiredAt now = false

namespace Record.FreshAt

variable {r : Record} {t : Instant} {d : Span}

/-- A record that lasts a millisecond or more. -/
theorem of_made (hd : 1 ≤ d.millis) (h : r.expiresAt = t.plus d) : r.FreshAt t := by
  intro now hlast ht
  rw [not_expired_iff, h]
  exact Instant.before_plus hlast ht hd

/-- A record that has not expired. -/
theorem of_unexpired (h : r.isExpiredAt t = false) : r.FreshAt t := by
  intro now _ ht
  rw [not_expired_iff] at *
  exact Instant.before_of_not_before ht h

/-- A record whose expiry is moved on, or brought back to a millisecond or more from now. -/
theorem extended (h : r.isExpiredAt t = false) (hd : 1 ≤ d.millis) (extension : Span)
    (node : NodeName) : (r.extended extension (t.plus d) node t).FreshAt t := by
  intro now hlast ht
  have hold : now.before r.expiresAt = true :=
    not_expired_iff.mp (of_unexpired h now hlast ht)
  rw [not_expired_iff]
  exact Instant.before_earlier (Instant.before_plus_of_before hlast hold extension)
    (Instant.before_plus hlast ht hd)

end Record.FreshAt

/-- A lifetime that passes the check is a millisecond or more, and so is the longest one. -/
theorem millis_of_checkLifetime {s : CoordinatorSettings} {field : String} {d : Span} {u : Unit}
    (h : Coordinator.checkLifetime s field d = .ok u) : 1 ≤ d.millis ∧ 1 ≤ s.maxTtl.millis := by
  unfold Coordinator.checkLifetime at h
  simp only at h
  split at h
  · cases h
  · rename_i hbounds
    have hd : Coordinator.wordMillis d ≤ d.millis := Nat.mod_le _ _
    have hmost : Coordinator.wordMillis s.maxTtl ≤ s.maxTtl.millis := Nat.mod_le _ _
    omega

/-! ## Operations that vouch -/

/-- A change that announces a record with a reading at which it was fresh. -/
structure Change.VouchesFor (change : Change) (r : Record) : Prop where
  key_eq : change.key = r.key
  version_eq : change.version = r.version
  fresh : r.FreshAt change.time

/-- What is left of an operation begins with the announcement of a record, in the poll that is under
    way. -/
def Owes {α : Type} (r : Record) (p : Operation α) : Prop :=
  ∃ earlier own next, p = .ask (.announce earlier own) next ∧ own.VouchesFor r

/-- An operation announces each record that it puts into the store, right after it has put it there
    and with a reading at which the record was fresh. -/
def Vouches {α : Type} : Operation α → Prop
  | .done _ => True
  | .ask (.store c) next =>
    (∀ x, Vouches (next x)) ∧ ∀ o r, c.puts? o = some r → Owes r (next (some (.ok o)))
  | .ask _ next => ∀ x, Vouches (next x)

section

variable {α : Type}

theorem Vouches.next {q : Request} {next : q.Answer → Operation α} (h : Vouches (.ask q next))
    (x : q.Answer) : Vouches (next x) := by
  cases q with
  | store c => exact h.1 x
  | _ => exact h x

/-- A call on the store whose failures end the operation. -/
theorem Vouches.storeCall {s : CoordinatorSettings} {c : StoreCall}
    {next : c.Outcome → Operation (Except SessionError α)} (h : ∀ o, Vouches (next o))
    (hputs : ∀ o r, c.puts? o = some r → Owes r (next o)) :
    Vouches (Coordinator.storeCall s c next) := by
  refine ⟨fun x => ?_, hputs⟩
  cases x with
  | none => trivial
  | some r =>
    cases r with
    | error f => trivial
    | ok o => exact h o

/-- Reading the record: what follows is vouched for, for any record that is live. -/
theorem Vouches.loadLive {s : CoordinatorSettings} {key : SessionKey} {now : Instant}
    {next : Record → Operation (Except SessionError α)}
    (h : ∀ r : Record, r.isExpiredAt now = false → Vouches (next r)) :
    Vouches (Coordinator.loadLive s key now next) := by
  refine .storeCall (fun o => ?_) (fun o r ho => by cases ho)
  cases o with
  | none => trivial
  | some r =>
    simp only
    cases he : r.isExpiredAt now with
    | true => exact trivial
    | false => exact h r he

theorem Vouches.commit (key : SessionKey) (value : α) (earlier : List Change) (own : Change) :
    Vouches (Coordinator.commit key value earlier own) := fun _ _ _ _ => trivial

theorem Owes.commit (key : SessionKey) (value : α) (earlier : List Change) {own : Change}
    {r : Record} (h : own.VouchesFor r) : Owes r (Coordinator.commit key value earlier own) :=
  ⟨earlier, own, _, rfl, h⟩

/-- A record that is fresh replaces the one of an expected version. -/
theorem Vouches.swap (s : CoordinatorSettings) (key : SessionKey) (expected : Version)
    {r : Record} {now : Instant} (hr : r.FreshAt now) :
    Vouches (Coordinator.swap s key expected r now) := by
  refine .storeCall (fun o => ?_) (fun o r' ho => ?_)
  · cases o with
    | applied => exact Vouches.commit _ _ _ _
    | conflict latest => trivial
    | missing => trivial
  · cases o with
    | applied =>
      cases ho
      exact .commit _ _ _ ⟨rfl, rfl, hr⟩
    | conflict latest => cases ho
    | missing => cases ho

end

/-- **A creation vouches** for the record that it puts there. -/
theorem createFrom_vouches (s : CoordinatorSettings) (key : SessionKey) (payload : Json)
    {ttl : Span} (now : Instant) (httl : 1 ≤ ttl.millis) (rounds : Nat) :
    ∀ t, Vouches (Coordinator.createFrom s key payload ttl now rounds t) := by
  induction rounds with
  | zero => exact fun _ => trivial
  | succ rounds ih =>
    intro t
    refine .storeCall (fun o => ?_) (fun o r ho => ?_)
    · cases o with
      | inserted => exact Vouches.commit _ _ _ _
      | tombstoned v => exact ih _
      | occupied existing =>
        simp only
        split
        · trivial
        · -- the record in the way has expired, and is replaced
          refine .storeCall (fun o => ?_) (fun o r ho => ?_)
          · cases o with
            | applied => exact Vouches.commit _ _ _ _
            | conflict latest => trivial
            | missing => exact ih _
          · cases o with
            | applied =>
              cases ho
              exact .commit _ _ _ ⟨rfl, rfl, .of_made httl rfl⟩
            | conflict latest => cases ho
            | missing => cases ho
    · cases o with
      | inserted =>
        cases ho
        refine .commit _ _ _ ⟨rfl, rfl, .of_made httl ?_⟩
        cases t <;> rfl
      | tombstoned v => cases ho
      | occupied existing => cases ho

/-- A batch puts nothing there, so it has nothing to vouch for. -/
theorem evict_vouches {α : Type} (s : SweeperSettings) (now : Instant)
    {next : Nat → Sweeper.Progress → Operation (Except SessionError α)}
    (hnext : ∀ n p, Vouches (next n p)) (batch : List Record) :
    ∀ removed p, Vouches (Sweeper.evict s now next batch removed p) := by
  induction batch with
  | nil => exact hnext
  | cons r batch ih =>
    intro removed p
    refine ⟨fun x => ?_, fun o r ho => by cases o <;> cases ho⟩
    rcases x with _ | f | o
    · trivial
    · trivial
    · cases o with
      | applied => exact fun _ _ => ih _ _
      | conflict latest => exact ih _ _
      | missing => exact ih _ _

/-- Neither have all batches. -/
theorem batches_vouches (s : SweeperSettings) (now : Instant) (rounds : Nat) :
    ∀ p, Vouches (Sweeper.batches s now rounds p) := by
  have hreport (p : Sweeper.Progress) : Vouches (Sweeper.report p) := fun _ => trivial
  induction rounds with
  | zero => exact hreport
  | succ rounds ih =>
    intro p
    refine ⟨fun x => ?_, fun o r ho => by cases ho⟩
    rcases x with _ | f | batch
    · trivial
    · trivial
    · refine evict_vouches s now (fun removed p => ?_) batch 0 p
      simp only
      split
      · exact hreport _
      · exact ih _

/-- **Every call vouches** for the records that it puts into the store. -/
theorem Call.vouches (c : Call) : Vouches c.operation := by
  cases c with
  | create s key payload ttl =>
    simp only [operation, Coordinator.create]
    cases hlife : Coordinator.checkLifetime s "ttl_ms" ttl with
    | error e => trivial
    | ok u =>
      cases Coordinator.checkPayload s payload with
      | error e => trivial
      | ok u =>
        exact fun now =>
          createFrom_vouches s key payload now (millis_of_checkLifetime hlife).1 _ none
  | get s key =>
    refine fun now copy => ?_
    cases copy with
    | some r => trivial
    | none =>
      refine .loadLive fun r _ => ?_
      simp only
      split
      · trivial
      · exact fun _ => trivial
  | update s key expected payload =>
    simp only [operation, Coordinator.update]
    cases Coordinator.checkPayload s payload with
    | error e => trivial
    | ok u =>
      refine fun now => .loadLive fun r he => ?_
      split
      · trivial
      · -- the expiry stays as it is
        exact .swap s key expected (Record.FreshAt.of_unexpired (r := r.withPayload payload s.node now) he)
  | delete s key expected =>
    refine fun now => .loadLive fun r _ => ?_
    split
    · trivial
    · refine .storeCall (fun o => ?_) (fun o r ho => by cases o <;> cases ho)
      cases o with
      | applied => exact Vouches.commit _ _ _ _
      | conflict latest => trivial
      | missing => trivial
  | touch s key extendBy =>
    simp only [operation, Coordinator.touch]
    cases hlife : Coordinator.checkLifetime s "extend_by_ms" extendBy with
    | error e => trivial
    | ok u =>
      exact fun now => .loadLive fun r he =>
        .swap s key r.version (.extended he (millis_of_checkLifetime hlife).2 extendBy s.node)
  | sweep s => exact fun now => batches_vouches s now _ _

/-! ## Stores of announced records -/

/-- Every record in the store has been announced with a reading at which it was fresh. -/
def World.Vouched (w : World) : Prop :=
  ∀ key r, w.slots.live? key = some r → ∃ change ∈ w.announced, change.VouchesFor r

section

variable {α : Type} {w w' : World} {p p' : Operation α} {es : List (Exchange World)}

/-- What takes no time leaves the store as it is, and what was announced. -/
theorem Settles.slots_eq (h : Settles World.Answers w p es w' p') :
    w'.slots = w.slots ∧ ∀ change ∈ w.announced, change ∈ w'.announced := by
  induction h with
  | rest => exact ⟨rfl, fun _ hc => hc⟩
  | @ask w q _ _ w₁ _ _ _ hq ha _ ih =>
    have hfirst : w₁.slots = w.slots ∧ ∀ change ∈ w.announced, change ∈ w₁.announced := by
      cases q with
      | now =>
        obtain rfl := ha
        exact ⟨rfl, fun _ hc => hc⟩
      | beginForget key =>
        obtain rfl := ha
        exact ⟨rfl, fun _ hc => hc⟩
      | announce earlier own =>
        obtain ⟨_, rfl⟩ := ha
        exact ⟨rfl, fun _ hc => List.mem_append_left _ hc⟩
      | _ => cases hq
    exact ⟨ih.1.trans hfirst.1, fun change hc => ih.2 change (hfirst.2 change hc)⟩

theorem Settles.vouches (h : Settles World.Answers w p es w' p') : Vouches p → Vouches p' := by
  induction h with
  | rest => exact id
  | ask _ _ _ ih => exact fun hp => ih (hp.next _)

/-- What is owed is announced in the poll. -/
theorem Owes.announced {r : Record} (hp : Owes r p) (h : Settles World.Answers w p es w' p') :
    ∃ change ∈ w'.announced, change.VouchesFor r := by
  obtain ⟨earlier, own, next, rfl, hown⟩ := hp
  cases h with
  | rest hrest => cases hrest
  | ask _ ha hs =>
    obtain ⟨_, rfl⟩ := ha
    refine ⟨own, hs.slots_eq.2 own ?_, hown⟩
    exact List.mem_append_right _ (List.mem_append_right _ (List.mem_singleton_self own))

/-- A poll after a wait keeps the store vouched. -/
theorem World.Vouched.poll {q : Request} {next : q.Answer → Operation α} {x : q.Answer} {w₁ : World}
    (hw : w.Vouched) (hp : Vouches (.ask q next)) (ha : w.Answers q x w₁)
    (hs : Settles World.Answers w₁ (next x) es w' p') : w'.Vouched := by
  obtain ⟨hslots, htold⟩ := hs.slots_eq
  -- an answer that leaves the store alone, and forgets no announcement, leaves it vouched
  have hkept (hsame : w₁.slots = w.slots) (hmore : ∀ change ∈ w.announced, change ∈ w₁.announced) :
      w'.Vouched := by
    intro key r hl
    rw [hslots, hsame] at hl
    obtain ⟨change, hc, hv⟩ := hw key r hl
    exact ⟨change, htold change (hmore change hc), hv⟩
  cases q with
  | store c =>
    rcases ha with ⟨rfl, rfl⟩ | ⟨_, rfl⟩
    · -- what the call put there is vouched by what the rest of the poll announces
      intro key r hl
      rw [hslots] at hl
      rcases Slots.live?_after hl with hold | hnew
      · obtain ⟨change, hc, hv⟩ := hw key r hold
        exact ⟨change, htold change hc, hv⟩
      · exact (hp.2 _ r hnew).announced hs
    · exact hkept rfl fun _ hc => hc
  | announce earlier own =>
    obtain ⟨_, rfl⟩ := ha
    -- the broker's answer adds announcements in front of those that stood
    exact hkept rfl fun _ hc => List.mem_append_left _ hc
  | cached key =>
    obtain ⟨_, rfl⟩ := ha
    exact hkept rfl fun _ hc => hc
  | _ =>
    obtain rfl := ha
    exact hkept rfl fun _ hc => hc

end

/-- A cluster whose store is vouched for, and whose calls go on to vouch. -/
structure Cluster.Vouched (c : Cluster World) : Prop where
  world : c.world.Vouched
  calls : ∀ i p, c.calls i = some p → Vouches p.rest

variable {within : World → Prop} {c c' : Cluster World} {call : Call} {es : List (Exchange World)}

/-- **A step keeps the store vouched**, and every call to its duty. -/
theorem Cluster.Vouched.step (h : c.Vouched) (hs : Step World.Answers c call es c') :
    c'.Vouched where
  world := by
    cases hs with
    | start j hj hs =>
      -- no store call is answered in a first poll, so what stands was vouched before
      obtain ⟨hslots, htold⟩ := hs.slots_eq
      intro key r hl
      obtain ⟨change, hc, hv⟩ := h.world key r (hslots ▸ hl)
      exact ⟨change, htold change hc, hv⟩
    -- the poll after an answer: the call's own duty vouches for what the answer wrote
    | resume j hj ha hs => exact h.world.poll (h.calls j _ hj) ha hs
    | drop j hj => exact h.world
  calls i p hp := by
    cases hs.progressed hp with
    | begun hset => exact hset.vouches call.vouches
    | resumed hi ha hset => exact hset.vouches ((h.calls i _ hi).next _)
    | stayed hi => exact h.calls i p hi

/-- **At any time, every record in the store is vouched for.** -/
theorem Leads.vouched (h : Leads World.Answers within (.idle {}) c) : c.Vouched := by
  induction h with
  | refl =>
    refine ⟨?_, ?_⟩
    · rintro key r ⟨⟩
    · rintro i p ⟨⟩
  | tail _ hstep ih =>
    obtain ⟨_, _, _, hs⟩ := hstep
    exact ih.step hs

end SessionCluster
