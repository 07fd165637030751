/-
  Contest — creations of one key that run side by side.

  The clock stands still below the last instant, the store does not fail, and at first nothing is
  present under the key: it was never used, or holds a tombstone or a record that has expired.
  Any number of creations of the key begin, at any moments; calls that have nothing to do with the
  key may run beside them.

  As long as the key is OPEN, it holds what it held at first, and every creation CONTENDS: its next
  call on the store will succeed, or bring it nearer to success.  The first write that is applied
  decides the contest.  From then on the key holds the PRIZE, a record that has not expired and has a
  higher version than anything before it, and all others lose with their next call.

  * `Contends` — what a creation has ahead of it, as long as the key is open and once it is decided;
  * `Cluster.Move.decided` — every move leaves the contest open or decided, for the same winner;
  * `contest_ends` — every contest can come to an end, whatever has happened so far;
  * `one_creation_wins` — at the end one creation has succeeded, and all others have not.
-/
import Mathlib.Data.List.Induction
import SessionCluster.Proofs.Freshness
import SessionCluster.Proofs.OneStep
import SessionCluster.Proofs.Schedules

namespace SessionCluster

/-! ## The rules -/

/-- What questions can be answered while the clock stands still and the store does not fail. -/
def World.Calm (now : Instant) (w : World) : (q : Request) → q.Answer → World → Prop
  | .now, t, w' => t = now ∧ w' = w
  | .store c, x, w' => x = some (.ok (w.slots.apply c).1) ∧ w' = w.after c
  | q, x, w' => w.Answers q x w'

/-- A creation of a key with valid arguments. -/
def Call.Competes (key : SessionKey) : Call → Prop
  | .create s own payload ttl => own = key ∧ Coordinator.checkLifetime s "ttl_ms" ttl = .ok () ∧
      Coordinator.checkPayload s payload = .ok ()
  | _ => False

/-- A move in a contest: a creation of the key goes on, or some other call does something that is of
    no concern to the key.  No creation is dropped. -/
inductive Cluster.Move (now : Instant) (key : SessionKey) (c c' : Cluster World) : Prop where
  | compete {call : Call} {es : List (Exchange World)} (hc : call.Competes key)
      (h : Step (World.Calm now) c call es c')
      (hkept : ∀ i, (c.calls i).isSome = true → (c'.calls i).isSome = true)
  | aside {call : Call} {es : List (Exchange World)} (hc : ¬ call.Competes key)
      (h : Step World.Answers c call es c')
      (hslot : c'.world.slots.get? key = c.world.slots.get? key)
      (hstory : c'.world.story key = c.world.story key)

/-- Any number of moves. -/
def Contest (now : Instant) (key : SessionKey) : Cluster World → Cluster World → Prop :=
  Relation.ReflTransGen (Cluster.Move now key)

/-- A creation of a key, and what is left of it. -/
inductive Entry (key : SessionKey) : Progress World → Operation (Outcome Record) → Prop where
  | mk {s : CoordinatorSettings} {payload : Json} {ttl : Span} {made : List (Exchange World)}
      {rest : Operation (Outcome Record)} (hc : (Call.create s key payload ttl).Competes key) :
      Entry key ⟨.create s key payload ttl, made, rest⟩ rest

theorem Entry.competes {key : SessionKey} {p : Progress World} {rest : Operation (Outcome Record)}
    (h : Entry key p rest) : p.call.Competes key := by
  cases h with
  | mk hc => exact hc

/-! ## Creations in a contest -/

section

variable (now : Instant) (key : SessionKey) (first : Option Slot)

/-- A record that wins: it has not expired, and is above all that the key held at first. -/
structure Prize (r : Record) : Prop where
  key_eq : r.key = key
  live : r.isExpiredAt now = false
  above : Slot.numberOf first < r.version.number

/-- The end of the expired record that the key held at first, if it held one. -/
def ending : List Change := ((first.bind Slot.record?).map (·.expiry now)).toList

/-- What is announced of a record that wins. -/
def triumph (r : Record) : List Change :=
  ending now first ++ [Coordinator.changeOf r .created now]

/-- A creation whose next call on the store loses against a prize. -/
def Loses : Operation (Outcome Record) → Prop
  | .ask (.store c) next =>
    ∀ (t : Slots) (r : Record), t.live? key = some r → Prize now key first r →
      (t.apply c).2.1 = t ∧ next (some (.ok (t.apply c).1)) = .done (.error (.alreadyExists key))
  | _ => False

/-- What a creation has ahead of it.  While the key is open, its next call on the store changes
    nothing and leaves it contending, or wins; once a prize is there, it loses. -/
def Contends : Operation (Outcome Record) → Prop
  | .ask (.store c) next =>
    Loses now key first (.ask (.store c) next) ∧ ∀ t : Slots, t.get? key = first →
      (t.apply c).2.1 = t ∧ Contends (next (some (.ok (t.apply c).1))) ∨
        ∃ r, Prize now key first r ∧ (t.apply c).2.1 = t.put key (.live r) ∧
          next (some (.ok (t.apply c).1)) =
            Coordinator.commit key r (ending now first) (Coordinator.changeOf r .created now)
  | _ => False

/-- An operation that has made a record, and only waits to say so. -/
def Certain (r : Record) : Operation (Outcome Record) → Prop
  | .done a => ∃ event warnings, a = .ok ⟨r, event, warnings⟩ ∧
      event.change = Coordinator.changeOf r .created now
  | .ask (.forgotten _) next => ∀ x, Certain r (next x)
  | .ask (.warnings _) next => ∀ x, Certain r (next x)
  | _ => False

end

/-- What a key holds at first, if nothing is present there and two more versions can follow. -/
structure Vacancy (now : Instant) (key : SessionKey) (first : Option Slot) : Prop where
  expired : ∀ r, first = some (.live r) → r.isExpiredAt now = true
  keyed : ∀ r, first = some (.live r) → r.key = key
  low : Slot.numberOf first < 18446744073709551614

/-- The rounds that a creation still has beside the one that is under way, and the tombstone that it
    knows of: over a tombstone that it does not know, it needs another round. -/
inductive Chance (first : Option Slot) : Nat → Option Version → Prop where
  | unburied {n : Nat} (h : ∀ v, first ≠ some (.tombstone v)) : Chance first n none
  | known {n : Nat} {v : Version} (h : first = some (.tombstone v)) : Chance first n (some v)
  | unknown {n : Nat} {v : Version} (h : first = some (.tombstone v))
      (hknown : Chance first n (some v)) : Chance first (n + 1) none

section

variable {now : Instant} {key : SessionKey} {first : Option Slot} {s : CoordinatorSettings}
  {payload : Json} {ttl : Span}

/-- A call on the store contends, if it loses where another has won, and as long as nobody has, goes
    on or wins. -/
theorem contends_storeCall {c : StoreCall} {next : c.Outcome → Operation (Outcome Record)}
    (hloses : Loses now key first (Coordinator.storeCall s c next))
    (hopen : ∀ t : Slots, t.get? key = first →
      (t.apply c).2.1 = t ∧ Contends now key first (next (t.apply c).1) ∨
        ∃ r, Prize now key first r ∧ (t.apply c).2.1 = t.put key (.live r) ∧
          next (t.apply c).1 =
            Coordinator.commit key r (ending now first) (Coordinator.changeOf r .created now)) :
    Contends now key first (Coordinator.storeCall s c next) := ⟨hloses, hopen⟩

theorem fresh_key (tombstone : Option Version) :
    (Coordinator.fresh s key payload ttl now tombstone).key = key := by
  cases tombstone <;> rfl

/-- An insertion loses against a prize, whatever it knows. -/
theorem loses_createFrom (n : Nat) (tombstone : Option Version) :
    Loses now key first (Coordinator.createFrom s key payload ttl now (n + 1) tombstone) := by
  unfold Coordinator.createFrom
  intro t r hl hr
  have hl' : t.live? (Coordinator.fresh s key payload ttl now tombstone).key = some r := by
    rw [fresh_key]
    exact hl
  rw [Slots.apply_insert_live hl']
  refine ⟨rfl, ?_⟩
  simp only [hr.live]
  rfl

/-- A record that is made now, above what the key held at first, is a prize. -/
theorem Prize.of_made {r : Record} (hlast : now.before .last = true)
    (hc : (Call.create s key payload ttl).Competes key) (hkey : r.key = key)
    (hexpires : r.expiresAt = now.plus ttl) (habove : Slot.numberOf first < r.version.number) :
    Prize now key first r := by
  have hself : now.before now = false := show now ≤ now from le_refl now
  have hmillis := (millis_of_checkLifetime hc.2.1).1
  exact ⟨hkey, Record.FreshAt.of_made hmillis hexpires now hlast hself, habove⟩

variable (hlast : now.before .last = true) (hc : (Call.create s key payload ttl).Competes key)
  (hfirst : Vacancy now key first)

include hlast hc hfirst

/-- The replacement of the expired record that the key held at first, whatever comes after it if the
    record is no longer there. -/
theorem contends_replace {e : Record} (he : first = some (.live e))
    {next : WriteOutcome → Operation (Outcome Record)}
    (happlied : next .applied =
      Coordinator.commit (Record.createOver e payload ttl s.node now).key
        (Record.createOver e payload ttl s.node now) [⟨key, e.tombstoneVersion, .expired, now⟩]
        (Coordinator.changeOf (Record.createOver e payload ttl s.node now) .created now))
    (hconflict : ∀ latest, next (.conflict latest) = .done (.error (.alreadyExists key))) :
    Contends now key first
      (Coordinator.storeCall s
        (.swap key e.version (Record.createOver e payload ttl s.node now)) next) := by
  subst he
  have hkey := hfirst.keyed e rfl
  -- two more versions fit below the last, so the new record's number is two above the old
  have hlow : e.version.number < 18446744073709551614 := hfirst.low
  have hnext : e.version.next.number = e.version.number + 1 := Version.next_number (by omega)
  have hnumber : (Record.createOver e payload ttl s.node now).version.number =
      e.version.number + 2 := by
    show e.version.next.next.number = _
    rw [Version.next_number (by omega), hnext]
  refine contends_storeCall ?_ ?_
  · -- another record is there by now: it lies above the expired one, and the swap names that
    intro t r hl hr
    have hother : r.version ≠ e.version := by
      intro h
      have habove : e.version.number < r.version.number := hr.above
      rw [h] at habove
      omega
    rw [Slots.apply_swap_conflict hl hother]
    exact ⟨rfl, hconflict r⟩
  · -- the expired record is still there, and the swap puts the new one over it
    intro t ht
    have hl : t.live? key = some e := Slots.live?_eq_some.mpr ht
    have habove : Slot.numberOf (some (.live e)) <
        (Record.createOver e payload ttl s.node now).version.number := by
      show e.version.number < _
      omega
    rw [Slots.apply_swap_applied hl rfl]
    refine .inr ⟨Record.createOver e payload ttl s.node now,
      .of_made hlast hc hkey rfl habove, rfl, ?_⟩
    rw [happlied]
    show Coordinator.commit e.key _ [⟨key, _, _, _⟩] _ =
      Coordinator.commit key _ [⟨e.key, _, _, _⟩] _
    rw [hkey]

omit hfirst in
/-- An insertion that is applied makes a prize. -/
theorem wins_insert {tombstone : Option Version} {t : Slots}
    (hnone : first.bind Slot.record? = none)
    (habove : Slot.numberOf first <
      (Coordinator.fresh s key payload ttl now tombstone).version.number) :
    ∃ r, Prize now key first r ∧
      t.put (Coordinator.fresh s key payload ttl now tombstone).key
        (.live (Coordinator.fresh s key payload ttl now tombstone)) = t.put key (.live r) ∧
      Coordinator.commit key (Coordinator.fresh s key payload ttl now tombstone) []
        (Coordinator.changeOf (Coordinator.fresh s key payload ttl now tombstone) .created now) =
      Coordinator.commit key r (ending now first) (Coordinator.changeOf r .created now) := by
  refine ⟨Coordinator.fresh s key payload ttl now tombstone, ?_, ?_, ?_⟩
  · refine .of_made hlast hc (fresh_key tombstone) ?_ habove
    cases tombstone <;> rfl
  · rw [fresh_key]
  · unfold ending
    rw [hnone]
    rfl

/-- **A creation with a chance contends.** -/
theorem contends_createFrom {n : Nat} {tombstone : Option Version} (h : Chance first n tombstone) :
    Contends now key first (Coordinator.createFrom s key payload ttl now (n + 1) tombstone) := by
  have hlow := hfirst.low
  induction h with
  | @unburied n h =>
    refine contends_storeCall (loses_createFrom n none) fun t ht => ?_
    cases hslot : first with
    | none =>
      -- the key was never used
      rw [Slots.apply_insert_unused (ht.trans hslot)]
      refine .inr (wins_insert hlast hc rfl ?_)
      exact Nat.one_pos
    | some slot =>
      cases slot with
      | tombstone v => exact absurd hslot (h v)
      | live e =>
        have hl : t.live? key = some e := Slots.live?_eq_some.mpr (ht.trans hslot)
        rw [Slots.apply_insert_live (r := Coordinator.fresh s key payload ttl now none) hl]
        refine .inl ⟨rfl, ?_⟩
        simp only [hfirst.expired e hslot]
        rw [if_neg nofun]
        subst hslot
        exact contends_replace hlast hc hfirst rfl rfl fun latest => rfl
  | @known n v h =>
    have hnext : v.next.number = v.number + 1 := by
      refine Version.next_number ?_
      subst h
      exact Nat.lt_succ_of_lt hlow
    refine contends_storeCall (loses_createFrom n (some v)) fun t ht => ?_
    have habove : ¬ (Coordinator.fresh s key payload ttl now (some v)).version ≤ v := by
      show ¬ v.next.number ≤ v.number
      omega
    rw [Slots.apply_insert_above (ht.trans h) habove]
    refine .inr (wins_insert hlast hc ?_ ?_)
    · rw [h]
      rfl
    · rw [h]
      show v.number < v.next.number
      omega
  | @unknown n v h _ ih =>
    refine contends_storeCall (loses_createFrom (n + 1) none) fun t ht => ?_
    by_cases hbelow : (Coordinator.fresh s key payload ttl now none).version ≤ v
    · rw [Slots.apply_insert_below (ht.trans h) hbelow]
      exact .inl ⟨rfl, ih⟩
    · -- the tombstone is below the first version
      rw [Slots.apply_insert_above (ht.trans h) hbelow]
      refine .inr (wins_insert hlast hc ?_ ?_)
      · rw [h]
        rfl
      · rw [h]
        exact Nat.lt_of_not_le hbelow

/-- **A creation contends from its start.** -/
theorem contends_create :
    Contends now key first
      (Coordinator.createFrom s key payload ttl now Coordinator.createRounds none) := by
  refine contends_createFrom hlast hc hfirst ?_
  cases hslot : first with
  | none => exact .unburied nofun
  | some slot =>
    cases slot with
    | live e => exact .unburied nofun
    | tombstone v => exact .unknown rfl (.known rfl)

end

/-! ## Polls of a creation -/

section

variable {now : Instant} {key : SessionKey} {first : Option Slot} {w w₁ w₂ : World}
  {es : List (Exchange World)} {p : Operation (Outcome Record)} {r : Record} {q : Request}
  {next : q.Answer → Operation (Outcome Record)} {x : q.Answer}

theorem Contends.loses (h : Contends now key first p) : Loses now key first p := by
  cases p with
  | done a => exact h.elim
  | ask q next =>
    cases q with
    | store c => exact h.1
    | _ => exact h.elim

theorem Loses.atRest (h : Loses now key first p) : p.atRest = true := by
  cases p with
  | done a => rfl
  | ask q next =>
    cases q with
    | store c => rfl
    | _ => exact h.elim

/-- A creation begins with a look at the clock, and then waits for its first insertion. -/
theorem settles_create {s : CoordinatorSettings} {payload : Json} {ttl : Span}
    (hc : (Call.create s key payload ttl).Competes key)
    (h : Settles (World.Calm now) w (Coordinator.create s key payload ttl) es w₂ p) :
    w₂ = w ∧ p = Coordinator.createFrom s key payload ttl now Coordinator.createRounds none := by
  obtain ⟨_, hlife, hpayload⟩ := hc
  unfold Coordinator.create at h
  rw [hlife, hpayload] at h
  cases h with
  | rest hp => cases hp
  | ask _ ha hs =>
    obtain ⟨rfl, rfl⟩ := ha
    exact hs.of_rest rfl

/-- What follows the write of a prize: it is announced, and what is left is certain. -/
theorem settles_commit {earlier : List Change}
    (h : Settles (World.Calm now) w
      (Coordinator.commit key r earlier (Coordinator.changeOf r .created now)) es w₂ p) :
    w₂ = w.announce (earlier ++ [Coordinator.changeOf r .created now]) ∧ Certain now r p := by
  cases h with
  | rest hp => cases hp
  | @ask _ _ _ x _ _ _ _ _ ha hs =>
    obtain ⟨pending, event⟩ := x
    obtain ⟨hevent, rfl⟩ := ha
    cases hs with
    | rest hp => cases hp
    | ask _ ha hs =>
      obtain rfl := ha
      obtain ⟨rfl, rfl⟩ := hs.of_rest rfl
      exact ⟨rfl, fun _ warnings => ⟨event, warnings, rfl, hevent⟩⟩

/-- **A poll of a creation that contends**, while the key is open, leaves everything as it is, or
    wins. -/
theorem Contends.poll (h : Contends now key first (.ask q next))
    (hslot : w.slots.get? key = first) (ha : w.Calm now q x w₁)
    (hs : Settles (World.Calm now) w₁ (next x) es w₂ p) :
    w₂ = w ∧ Contends now key first p ∨
      ∃ r, Prize now key first r ∧ w₂.slots = w.slots.put key (.live r) ∧
        w₂.announced = w.announced ++ triumph now first r ∧ Certain now r p := by
  cases q with
  | store c =>
    obtain ⟨rfl, rfl⟩ := ha
    rcases h.2 w.slots hslot with ⟨hsame, hcontends⟩ | ⟨r, hr, hput, hcommit⟩
    · obtain ⟨rfl, rfl⟩ := hs.of_rest hcontends.loses.atRest
      refine .inl ⟨?_, hcontends⟩
      unfold World.after
      rw [hsame]
    · rw [hcommit] at hs
      obtain ⟨rfl, hcertain⟩ := settles_commit hs
      exact .inr ⟨r, hr, hput, rfl, hcertain⟩
  | _ => exact h.elim

/-- **A poll of a creation that loses** leaves everything as it is. -/
theorem Loses.poll (h : Loses now key first (.ask q next)) (hl : w.slots.live? key = some r)
    (hr : Prize now key first r) (ha : w.Calm now q x w₁)
    (hs : Settles (World.Calm now) w₁ (next x) es w₂ p) :
    w₂ = w ∧ p = .done (.error (.alreadyExists key)) := by
  cases q with
  | store c =>
    obtain ⟨rfl, rfl⟩ := ha
    obtain ⟨hsame, hdone⟩ := h w.slots r hl hr
    rw [hdone] at hs
    obtain ⟨rfl, rfl⟩ := hs.of_rest rfl
    refine ⟨?_, rfl⟩
    unfold World.after
    rw [hsame]
  | _ => exact h.elim

/-- A poll of a creation that has won leaves everything as it is. -/
theorem Certain.poll (h : Certain now r (.ask q next)) (ha : w.Calm now q x w₁)
    (hs : Settles (World.Calm now) w₁ (next x) es w₂ p) : w₂ = w ∧ Certain now r p := by
  have hrest {p' : Operation (Outcome Record)} (h' : Certain now r p') : p'.atRest = true := by
    cases p' with
    | done a => rfl
    | ask q next =>
      cases q with
      | forgotten ticket => rfl
      | warnings pending => rfl
      | _ => exact h'.elim
  cases q with
  | forgotten ticket =>
    obtain rfl := ha
    obtain ⟨rfl, rfl⟩ := hs.of_rest (hrest (h x))
    exact ⟨rfl, h x⟩
  | warnings pending =>
    obtain rfl := ha
    obtain ⟨rfl, rfl⟩ := hs.of_rest (hrest (h x))
    exact ⟨rfl, h x⟩
  | _ => exact h.elim

end

/-! ## Moves -/

/-- While the key is open, it holds what it held at first, nothing has been announced of it since,
    and every creation of it contends. -/
structure Open (now : Instant) (key : SessionKey) (w : World) (c : Cluster World) : Prop where
  slot : c.world.slots.get? key = w.slots.get? key
  story : c.world.story key = w.story key
  contends : ∀ i p rest, c.calls i = some p → Entry key p rest →
    Contends now key (w.slots.get? key) rest

/-- Once a creation has won, the key holds its record, exactly this has been announced, and all other
    creations lose or have lost. -/
structure Decided (now : Instant) (key : SessionKey) (w : World) (i : Nat) (r : Record)
    (c : Cluster World) : Prop where
  /-- The record of the winner is one that could win. -/
  prize : Prize now key (w.slots.get? key) r
  /-- It is in the store. -/
  slot : c.world.slots.live? key = some r
  /-- The key's announcements are the winner's. -/
  story : c.world.story key = w.story key ++ triumph now (w.slots.get? key) r
  /-- The winner cannot fail any more. -/
  winner : ∃ p rest, c.calls i = some p ∧ Entry key p rest ∧ Certain now r rest
  /-- Nobody else can win. -/
  losers : ∀ j p rest, j ≠ i → c.calls j = some p → Entry key p rest →
    Loses now key (w.slots.get? key) rest ∨ rest = .done (.error (.alreadyExists key))

section

variable {now : Instant} {key : SessionKey} {w w' : World} {c c' : Cluster World} {i j : Nat}
  {r : Record} {new : Option (Progress World)}

/-- The contest stays open, if one call has gone on and nothing has become of the key. -/
theorem Open.update (h : Open now key w c)
    (hslot : w'.slots.get? key = c.world.slots.get? key)
    (hstory : w'.story key = c.world.story key)
    (hnew : ∀ p rest, new = some p → Entry key p rest →
      Contends now key (w.slots.get? key) rest) :
    Open now key w ⟨w', Function.update c.calls j new⟩ where
  slot := hslot.trans h.slot
  story := hstory.trans h.story
  contends i p rest hp he := by
    rcases update_eq_some hp with ⟨rfl, hr⟩ | hp
    · exact hnew p rest hr he
    · exact h.contends i p rest hp he

/-- The contest stays decided, if a call other than the winner has gone on. -/
theorem Decided.update (h : Decided now key w i r c) (hj : j ≠ i)
    (hslot : w'.slots.get? key = c.world.slots.get? key)
    (hstory : w'.story key = c.world.story key)
    (hnew : ∀ p rest, new = some p → Entry key p rest →
      Loses now key (w.slots.get? key) rest ∨ rest = .done (.error (.alreadyExists key))) :
    Decided now key w i r ⟨w', Function.update c.calls j new⟩ where
  prize := h.prize
  slot := (Slots.live?_congr hslot).trans h.slot
  story := hstory.trans h.story
  winner := by
    obtain ⟨p, rest, hp, he, hcertain⟩ := h.winner
    exact ⟨p, rest, (Function.update_of_ne hj.symm ..).trans hp, he, hcertain⟩
  losers k p rest hk hp he := by
    rcases update_eq_some hp with ⟨rfl, hr⟩ | hp
    · exact hnew p rest hr he
    · exact h.losers k p rest hk hp he

/-- A call that does not compete is not the winner. -/
theorem Decided.ne_winner (h : Decided now key w i r c)
    (hj : ∀ p, c.calls j = some p → ¬ p.call.Competes key) : j ≠ i := by
  rintro rfl
  obtain ⟨p, rest, hp, he, _⟩ := h.winner
  exact hj p hp he.competes

/-- The announcements of a key, when some of that key are added. -/
theorem story_append {cs : List Change} (h : w'.announced = w.announced ++ cs)
    (hkey : ∀ change ∈ cs, change.key = key) : w'.story key = w.story key ++ cs := by
  unfold World.story
  rw [h, List.filter_append, List.filter_eq_self.mpr fun change hc => decide_eq_true (hkey change hc)]

/-- All that a winner announces is about the key. -/
theorem triumph_key (hfirst : Vacancy now key (w.slots.get? key))
    (hr : Prize now key (w.slots.get? key) r) :
    ∀ change ∈ triumph now (w.slots.get? key) r, change.key = key := by
  intro change hc
  rcases List.mem_append.mp hc with hc | hc
  · -- the end of the record that was there
    obtain ⟨e, he, rfl⟩ := Option.map_eq_some_iff.mp (Option.mem_toList.mp hc)
    obtain ⟨slot, hslot, hlive⟩ := Option.bind_eq_some_iff.mp he
    cases slot with
    | tombstone v => cases hlive
    | live e' =>
      cases hlive
      exact hfirst.keyed e hslot
  · rw [List.mem_singleton.mp hc]
    exact hr.key_eq

/-- A creation that contends has gone on: the contest is still open, or it has won. -/
theorem Open.go_on (h : Open now key w c) (hfirst : Vacancy now key (w.slots.get? key))
    {p : Progress World} {rest : Operation (Outcome Record)} (he : Entry key p rest)
    (hpoll : w' = c.world ∧ Contends now key (w.slots.get? key) rest ∨
      ∃ r, Prize now key (w.slots.get? key) r ∧ w'.slots = c.world.slots.put key (.live r) ∧
        w'.announced = c.world.announced ++ triumph now (w.slots.get? key) r ∧
        Certain now r rest) :
    Open now key w ⟨w', Function.update c.calls j (some p)⟩ ∨
      ∃ r, Decided now key w j r ⟨w', Function.update c.calls j (some p)⟩ := by
  have hentry {p' : Progress World} {rest' : Operation (Outcome Record)} (hp : some p = some p')
      (he' : Entry key p' rest') : rest' = rest := by
    cases hp
    cases he
    cases he'
    rfl
  rcases hpoll with ⟨rfl, hcontends⟩ | ⟨r, hr, hput, htold, hcertain⟩
  · refine .inl (h.update rfl rfl ?_)
    intro p' rest' hp he'
    rw [hentry hp he']
    exact hcontends
  · refine .inr ⟨r, hr, ?_, ?_, ⟨p, rest, Function.update_self .., he, hcertain⟩, ?_⟩
    · rw [hput, Slots.live?_put, if_pos rfl]
      rfl
    · rw [story_append htold (triumph_key hfirst hr), h.story]
    · -- the others go on contending, and will lose
      intro k p' rest' hk hp he'
      have hp' : c.calls k = some p' := by
        rw [← hp]
        exact (Function.update_of_ne hk ..).symm
      exact .inl (h.contends k p' rest' hp' he').loses

/-- A move in which a creation goes on does not drop it. -/
theorem not_dropped {p : Progress World} (hj : c.calls j = some p)
    (hkept : ∀ i, (c.calls i).isSome = true → (Function.update c.calls j none i).isSome = true) :
    False := by
  have hlost := hkept j (by rw [hj]; rfl)
  rw [Function.update_self] at hlost
  cases hlost

/-- **A move in an open contest** leaves it open, or decides it. -/
theorem Open.move (h : Open now key w c) (hlast : now.before .last = true)
    (hfirst : Vacancy now key (w.slots.get? key)) (hmove : Cluster.Move now key c c') :
    Open now key w c' ∨ ∃ i r, Decided now key w i r c' := by
  cases hmove with
  | aside hc hstep hslot hstory =>
    left
    -- what does not compete is no entry
    cases hstep with
    | start j hj hs =>
      refine h.update hslot hstory ?_
      rintro p rest ⟨⟩ he
      exact absurd he.competes hc
    | resume j hj ha hs =>
      refine h.update hslot hstory ?_
      rintro p rest ⟨⟩ he
      exact absurd he.competes hc
    | drop j hj =>
      refine h.update hslot hstory ?_
      rintro p rest ⟨⟩
  | @compete call es hc hstep hkept =>
    cases call with
    | create s own payload ttl =>
      obtain rfl := hc.1
      cases hstep with
      | start j hj hs =>
        obtain ⟨rfl, rfl⟩ := settles_create hc hs
        exact (h.go_on hfirst (.mk hc) (.inl ⟨rfl, contends_create hlast hc hfirst⟩)).imp id
          fun ⟨r, hr⟩ => ⟨j, r, hr⟩
      | resume j hj ha hs =>
        have hcontends := h.contends j _ _ hj (.mk hc)
        exact (h.go_on hfirst (.mk hc) (hcontends.poll h.slot ha hs)).imp id
          fun ⟨r, hr⟩ => ⟨j, r, hr⟩
      | drop j hj => exact (not_dropped hj hkept).elim
    | _ => exact hc.elim

/-- **A move in a decided contest** leaves it decided, for the same winner. -/
theorem Decided.move (h : Decided now key w i r c) (hlast : now.before .last = true)
    (hfirst : Vacancy now key (w.slots.get? key)) (hmove : Cluster.Move now key c c') :
    Decided now key w i r c' := by
  cases hmove with
  | aside hc hstep hslot hstory =>
    cases hstep with
    | start j hj hs =>
      have hne : j ≠ i := h.ne_winner fun p hp => by rw [hj] at hp; cases hp
      refine h.update hne hslot hstory ?_
      rintro p rest ⟨⟩ he
      exact absurd he.competes hc
    | resume j hj ha hs =>
      have hne : j ≠ i := h.ne_winner fun p hp => by rw [hj] at hp; cases hp; exact hc
      refine h.update hne hslot hstory ?_
      rintro p rest ⟨⟩ he
      exact absurd he.competes hc
    | drop j hj =>
      have hne : j ≠ i := h.ne_winner fun p hp => by rw [hj] at hp; cases hp; exact hc
      refine h.update hne hslot hstory ?_
      rintro p rest ⟨⟩
  | @compete call es hc hstep hkept =>
    cases call with
    | create s own payload ttl =>
      obtain rfl := hc.1
      cases hstep with
      | start j hj hs =>
        have hne : j ≠ i := h.ne_winner fun p hp => by rw [hj] at hp; cases hp
        obtain ⟨rfl, rfl⟩ := settles_create hc hs
        refine h.update hne rfl rfl ?_
        rintro p rest ⟨⟩ ⟨_⟩
        exact .inl (contends_create hlast hc hfirst).loses
      | @resume j _ _ made q next x w₁ es w₂ p hj ha hs =>
        by_cases hne : j = i
        · -- the winner goes on
          subst hne
          obtain ⟨p', rest, hp, he, hcertain⟩ := h.winner
          rw [hj] at hp
          cases hp
          cases he
          obtain ⟨rfl, hcertain'⟩ := hcertain.poll ha hs
          refine ⟨h.prize, h.slot, h.story, ⟨_, _, Function.update_self .., .mk hc, hcertain'⟩, ?_⟩
          intro k p'' rest' hk hp he'
          have hother : c.calls k = some p'' := (Function.update_of_ne hk ..).symm.trans hp
          exact h.losers k p'' rest' hk hother he'
        · rcases h.losers j _ _ hne hj (.mk hc) with hloses | hdone
          · obtain ⟨rfl, rfl⟩ := hloses.poll h.slot h.prize ha hs
            refine h.update hne rfl rfl ?_
            rintro p rest ⟨⟩ ⟨_⟩
            exact .inr rfl
          · cases hdone
      | drop j hj => exact (not_dropped hj hkept).elim
    | _ => exact hc.elim

/-- **A contest is open or decided**, all along. -/
theorem Contest.state (hlast : now.before .last = true)
    (hfirst : Vacancy now key (w.slots.get? key)) (h : Contest now key (.idle w) c) :
    Open now key w c ∨ ∃ i r, Decided now key w i r c := by
  induction h with
  | refl =>
    refine .inl ⟨rfl, rfl, ?_⟩
    rintro i p rest ⟨⟩
  | tail _ hmove ih =>
    rcases ih with hopen | ⟨i, r, hdecided⟩
    · exact hopen.move hlast hfirst hmove
    · exact .inr ⟨i, r, hdecided.move hlast hfirst hmove⟩

end

/-! ## The end of a contest -/

/-- Whether all creations of a key have answered. -/
def Cluster.AllAnswered (key : SessionKey) (c : Cluster World) : Prop :=
  ∀ i p rest, c.calls i = some p → Entry key p rest → ∃ a, rest = .done a

section

variable {now : Instant} {key : SessionKey} {w : World} {c c' : Cluster World}

/-- In the contest's world the clock stands, and the store answers. -/
theorem calm_obey (now : Instant) (w : World) (q : Request) :
    w.Calm now q (w.obey now false q).1 (w.obey now false q).2 := by
  cases q with
  | now => exact ⟨rfl, rfl⟩
  | store c =>
    have hanswer := MemoryStore.call_answer (s := { slots := w.slots }) (c := c) rfl
    have hslots := MemoryStore.call_slots (s := { slots := w.slots }) (c := c) rfl
    exact ⟨congrArg some hanswer, congrArg (fun slots => { w with slots }) hslots⟩
  | cached key => exact ⟨rfl, rfl⟩
  | announce earlier own => exact ⟨rfl, rfl⟩
  | cache r freshFor => rfl
  | beginForget key => rfl
  | forgotten ticket => rfl
  | forget key => rfl
  | warnings pending => rfl

/-- A call that competes is an entry, whatever it is at. -/
theorem Entry.of_competes {p : Progress World} (h : p.call.Competes key) :
    ∃ rest, Entry key p rest := by
  obtain ⟨call, made, rest⟩ := p
  cases call with
  | create s own payload ttl =>
    obtain ⟨rfl, hchecks⟩ := h
    exact ⟨rest, .mk ⟨rfl, hchecks⟩⟩
  | _ => exact h.elim

/-- A place that is taken stays taken, whoever takes another. -/
theorem isSome_update {β : Type} {f : Nat → Option β} {i j : Nat} (x : β)
    (hj : (f j).isSome = true) : (Function.update f i (some x) j).isSome = true := by
  by_cases hij : j = i
  · subst hij
    rw [Function.update_self]
    rfl
  · rw [Function.update_of_ne hij]
    exact hj

/-- The cluster after one call has settled, as the clock and the store oblige. -/
def obliged (now : Instant) (c : Cluster World) (i : Nat) (call : Call)
    (made : List (Exchange World)) (rest : Operation call.Answer) (w : World) : Cluster World :=
  ⟨(settle (World.obey now false) rest w).2.1,
    Function.update c.calls i (some ⟨call, made, (settle (World.obey now false) rest w).2.2⟩)⟩

/-- A creation that waits can go on. -/
theorem contest_resume (now : Instant) {call : Call} (hc : call.Competes key) {i : Nat}
    {made : List (Exchange World)} {q : Request} {next : q.Answer → Operation call.Answer}
    (hi : c.calls i = some ⟨call, made, .ask q next⟩) :
    ∃ made', Contest now key c
      (obliged now c i call made' (next (c.world.obey now false q).1)
        (c.world.obey now false q).2) := by
  have hs := settles_settle (calm_obey now) (next (c.world.obey now false q).1)
    (c.world.obey now false q).2
  exact ⟨_, .single (.compete hc (.resume i hi (calm_obey now c.world q) hs)
    fun _ hj => isSome_update _ hj)⟩

/-- A creation that has settled can be driven to its answer, whatever is left of it. -/
theorem contest_drive {call : Call} (hc : call.Competes key) (i : Nat)
    (rest : Operation call.Answer) :
    ∀ (c : Cluster World) (w : World) (made : List (Exchange World)), ∃ c' made' a,
      Contest now key (obliged now c i call made rest w) c' ∧
        c'.calls = Function.update c.calls i (some ⟨call, made', .done a⟩) := by
  induction rest with
  | done a => exact fun c w made => ⟨_, made, a, .refl, rfl⟩
  | ask q next ih =>
    intro c w made
    unfold obliged settle
    by_cases hq : q.isAwait = true
    · rw [if_pos hq]
      let c₁ : Cluster World := ⟨w, Function.update c.calls i (some ⟨call, made, .ask q next⟩)⟩
      obtain ⟨made₁, hfirst⟩ := contest_resume now hc (c := c₁) (Function.update_self ..)
      obtain ⟨c', made', a, hrest, hcalls⟩ := ih _ c₁ (w.obey now false q).2 made₁
      refine ⟨c', made', a, hfirst.trans hrest, ?_⟩
      rw [hcalls]
      exact Function.update_idem ..
    · rw [if_neg hq]
      exact ih _ c _ made

/-- A creation can be driven to its answer. -/
theorem contest_finish (now : Instant) {call : Call} (hc : call.Competes key) {i : Nat}
    {made : List (Exchange World)} {rest : Operation call.Answer}
    (hi : c.calls i = some ⟨call, made, rest⟩) :
    ∃ c' made' a, Contest now key c c' ∧
      c'.calls = Function.update c.calls i (some ⟨call, made', .done a⟩) := by
  cases rest with
  | done a =>
    refine ⟨c, made, a, .refl, ?_⟩
    rw [← hi, Function.update_eq_self]
  | ask q next =>
    obtain ⟨made₁, hfirst⟩ := contest_resume now hc hi
    obtain ⟨c', made', a, hrest, hcalls⟩ := contest_drive hc i (next _) c _ made₁
    exact ⟨c', made', a, hfirst.trans hrest, hcalls⟩

/-- Only finitely many calls have begun. -/
theorem Contest.finite (h : Contest now key (.idle w) c) : ∃ n, ∀ i, n ≤ i → c.calls i = none := by
  induction h with
  | refl => exact ⟨0, fun _ _ => rfl⟩
  | tail _ hmove ih =>
    obtain ⟨n, hn⟩ := ih
    have hstep {S : Surroundings World} {c c' : Cluster World} {call : Call}
        {es : List (Exchange World)} (hs : Step S c call es c') (hn : ∀ i, n ≤ i → c.calls i = none) :
        ∃ n, ∀ i, n ≤ i → c'.calls i = none := by
      have hupdate (j : Nat) (new : Option (Progress World)) (i : Nat) (hi : max n (j + 1) ≤ i) :
          Function.update c.calls j new i = none := by
        rw [Function.update_of_ne (by omega)]
        exact hn i (by omega)
      cases hs with
      | start j => exact ⟨_, hupdate j _⟩
      | resume j => exact ⟨_, hupdate j _⟩
      | drop j => exact ⟨_, hupdate j _⟩
    cases hmove with
    | compete _ hs => exact hstep hs hn
    | aside _ hs => exact hstep hs hn

/-- **Every contest can come to an end**, without further calls. -/
theorem contest_ends (h : Contest now key (.idle w) c) :
    ∃ c', Contest now key c c' ∧ c'.AllAnswered key ∧
      ∀ i, (c'.calls i).map Progress.call = (c.calls i).map Progress.call := by
  obtain ⟨n, hn⟩ := h.finite
  -- one call after the other is driven to its end
  have hdrive (k : Nat) : ∃ c', Contest now key c c' ∧
      (∀ i, i < k → ∀ p rest, c'.calls i = some p → Entry key p rest → ∃ a, rest = .done a) ∧
      ∀ i, (c'.calls i).map Progress.call = (c.calls i).map Progress.call := by
    induction k with
    | zero => exact ⟨c, .refl, fun i hi => absurd hi (Nat.not_lt_zero i), fun _ => rfl⟩
    | succ k ih =>
      obtain ⟨c₁, hcontest, hdone, hcalls⟩ := ih
      by_cases hk : ∃ p, c₁.calls k = some p ∧ p.call.Competes key
      · obtain ⟨⟨call, made, rest⟩, hp, hc⟩ := hk
        obtain ⟨c₂, made', a, hfinish, hcalls₂⟩ := contest_finish now hc hp
        refine ⟨c₂, hcontest.trans hfinish, fun i hi p rest' hpi he => ?_, fun i => ?_⟩
        · rw [hcalls₂] at hpi
          by_cases hik : i = k
          · subst hik
            rw [Function.update_self] at hpi
            cases hpi
            cases he
            exact ⟨a, rfl⟩
          · rw [Function.update_of_ne hik] at hpi
            exact hdone i (by omega) p rest' hpi he
        · rw [← hcalls i, hcalls₂]
          by_cases hik : i = k
          · subst hik
            rw [Function.update_self, hp]
            rfl
          · rw [Function.update_of_ne hik]
      · refine ⟨c₁, hcontest, fun i hi p rest hp he => ?_, hcalls⟩
        by_cases hik : i = k
        · subst hik
          exact absurd ⟨p, hp, he.competes⟩ hk
        · exact hdone i (by omega) p rest hp he
  obtain ⟨c', hcontest, hdone, hcalls⟩ := hdrive n
  refine ⟨c', hcontest, fun i p rest hp he => ?_, hcalls⟩
  refine hdone i ?_ p rest hp he
  refine Nat.lt_of_not_le fun hi => ?_
  have hnone := hcalls i
  rw [hp, hn i hi] at hnone
  cases hnone

/-- Any creations of a key can take part in a contest. -/
theorem exists_contest (now : Instant) (w : World) (calls : List Call)
    (hall : ∀ call ∈ calls, call.Competes key) :
    ∃ c, Contest now key (.idle w) c ∧ ∀ i, (c.calls i).map Progress.call = calls[i]? := by
  induction calls using List.reverseRecOn with
  | nil => exact ⟨.idle w, .refl, fun i => rfl⟩
  | append_singleton calls call ih =>
    obtain ⟨c, hcontest, hcalls⟩ := ih fun call hc => hall call (List.mem_append_left _ hc)
    -- the calls are begun one after another, the last at the next free place
    have hc := hall call (by simp)
    have hnew : c.calls calls.length = none := by
      have hnone := hcalls calls.length
      rwa [List.getElem?_eq_none (Nat.le_refl _), Option.map_eq_none_iff] at hnone
    have hs := settles_settle (calm_obey now) call.operation c.world
    refine ⟨_, hcontest.tail (.compete hc (.start calls.length hnew hs)
      fun _ hj => isSome_update _ hj), fun i => ?_⟩
    -- the new call is the last of the list, and the others stay where they were
    by_cases hi : i = calls.length
    · subst hi
      simp
    · show (Function.update c.calls _ _ i).map Progress.call = _
      rw [Function.update_of_ne hi, hcalls i]
      rcases Nat.lt_or_gt_of_ne hi with hlt | hgt
      · rw [List.getElem?_append_left hlt]
      · rw [List.getElem?_eq_none (by omega), List.getElem?_eq_none]
        rw [List.length_append, List.length_singleton]
        omega

/-! ## Results -/

/-- **Of creations that run side by side, one wins.**  Any creations of a key with valid arguments
    begin, while the clock stands still below the last instant, the store does not fail and nobody
    else acts on the key, of which at first nothing is present.  Whatever has happened, all of
    them can come to answer.  And when they have, and there is at least one, then exactly one has
    succeeded, with the record that the key holds; all others have answered that it exists; and
    announced were the creation and, before it, the end of the expired record if there was one. -/
theorem one_creation_wins (hlast : now.before .last = true)
    (hfirst : Vacancy now key (w.slots.get? key)) (h : Contest now key (.idle w) c) :
    (∃ c', Contest now key c c' ∧ c'.AllAnswered key ∧
      ∀ i, (c'.calls i).map Progress.call = (c.calls i).map Progress.call) ∧
    (c.AllAnswered key → (∃ i p, c.calls i = some p ∧ p.call.Competes key) →
      ∃ i p r event warnings, c.calls i = some p ∧ Entry key p (.done (.ok ⟨r, event, warnings⟩)) ∧
        event.change = Coordinator.changeOf r .created now ∧
        c.world.slots.live? key = some r ∧
        c.world.story key = w.story key ++ ending now (w.slots.get? key) ++
          [Coordinator.changeOf r .created now] ∧
        ∀ j p' rest, j ≠ i → c.calls j = some p' → Entry key p' rest →
          rest = .done (.error (.alreadyExists key))) := by
  refine ⟨contest_ends h, ?_⟩
  rintro hall ⟨i, p, hp, hc⟩
  -- what has answered does not contend or lose any more
  have hover {rest : Operation (Outcome Record)} (hrest : ∃ a, rest = .done a) :
      ¬ Loses now key (w.slots.get? key) rest := by
    obtain ⟨a, rfl⟩ := hrest
    exact id
  rcases h.state hlast hfirst with hopen | ⟨j, r, hdecided⟩
  · obtain ⟨rest, he⟩ := Entry.of_competes hc
    exact absurd (hopen.contends i p rest hp he).loses (hover (hall i p rest hp he))
  · obtain ⟨p', rest, hp', he, hcertain⟩ := hdecided.winner
    obtain ⟨a, rfl⟩ := hall j p' rest hp' he
    obtain ⟨event, warnings, rfl, hevent⟩ := hcertain
    refine ⟨j, p', r, event, warnings, hp', he, hevent, hdecided.slot, ?_, ?_⟩
    · rw [hdecided.story, triumph, List.append_assoc]
    · intro k p'' rest hk hpk hek
      rcases hdecided.losers k p'' rest hk hpk hek with hloses | hlost
      · exact absurd hloses (hover (hall k p'' rest hpk hek))
      · exact hlost

end

namespace Sample

/-- A session that has expired and was not swept away. -/
def overdue : World := { slots := ({} : Slots).put key (.live
  ⟨key, .null, version 1, settings.node, second 0, second 0, second 5⟩) }

/-- Three nodes create the session again. -/
def rivals : List Call :=
  [.create settings key .null (.ofMillis 1000), .create settings key (.bool true) (.ofMillis 5000),
   .create settings key (.bool false) (.ofMillis 9000)]

/-- The sample's record has expired at the sixth second. -/
theorem overdue_vacancy : Vacancy (second 6) key (overdue.slots.get? key) where
  expired := by
    rintro r ⟨⟩
    rfl
  keyed := by
    rintro r ⟨⟩
    rfl
  low := by decide

theorem rivals_compete : ∀ call ∈ rivals, call.Competes key := by
  intro call hcall
  simp only [rivals, List.mem_cons, List.not_mem_nil, or_false] at hcall
  rcases hcall with rfl | rfl | rfl
  · exact ⟨rfl, rfl, rfl⟩
  · exact ⟨rfl, rfl, rfl⟩
  · exact ⟨rfl, rfl, rfl⟩

end Sample

/-- One of three nodes creates the session, and the two others learn that it exists. -/
theorem sample_one_creation_wins : ∃ c, Contest (Sample.second 6) Sample.key (.idle Sample.overdue) c ∧
    (∀ i, (c.calls i).map Progress.call = Sample.rivals[i]?) ∧
    ∃ i p r event warnings, c.calls i = some p ∧
      Entry Sample.key p (.done (.ok ⟨r, event, warnings⟩)) ∧
      ∀ j p' rest, j ≠ i → c.calls j = some p' → Entry Sample.key p' rest →
        rest = .done (.error (.alreadyExists Sample.key)) := by
  obtain ⟨c, hcontest, hcalls⟩ :=
    exists_contest (Sample.second 6) Sample.overdue Sample.rivals Sample.rivals_compete
  have hlast : (Sample.second 6).before .last = true := by decide
  obtain ⟨⟨c', hmore, hall, hsame⟩, _⟩ :=
    one_creation_wins hlast Sample.overdue_vacancy hcontest
  have hcalls' : ∀ i, (c'.calls i).map Progress.call = Sample.rivals[i]? :=
    fun i => (hsame i).trans (hcalls i)
  have hsome : ∃ i p, c'.calls i = some p ∧ p.call.Competes Sample.key := by
    obtain ⟨p, hp, hcall⟩ := Option.map_eq_some_iff.mp (hcalls' 0)
    refine ⟨0, p, hp, ?_⟩
    rw [hcall]
    exact Sample.rivals_compete _ (List.mem_cons_self ..)
  obtain ⟨i, p, r, event, warnings, hp, he, _, _, _, hothers⟩ :=
    (one_creation_wins hlast Sample.overdue_vacancy (hcontest.trans hmore)).2 hall hsome
  exact ⟨c', hcontest.trans hmore, hcalls', i, p, r, event, warnings, hp, he, hothers⟩

end SessionCluster
