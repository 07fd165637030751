/-
  Announcing — every write is announced in the poll in which it is made.

  Versions rise with every write, up to the last version, which is its own successor: `Rises` is
  the order in which they do, for all stores and not only for those that are far from the end.

  * `StoreCall.Announced` — what an applied write is announced as: the version of the slot that it
    has made, and the version in between if it has replaced an expired record;
  * `StoreCall.Announced.effect` — such a write raises the slot of one key, and what is announced
    lies above what the key held, in rising order, up to the slot that it holds now;
  * `Call.orderly` — all calls that change something, and sweeps, announce each write right after
    it was applied, and never put a copy into the cache.

  That a record is written under its own key depends on what the store answers: a record that is
  found is a record of the key that was asked for (`StoreCall.Plausible`).
-/
import SessionCluster.Proofs.Interleaving

namespace SessionCluster

/-! ## Rising versions -/

/-- The number of the last version. -/
def lastVersion : Nat := 18446744073709551615

/-- One number of a version comes after another: it is above it, or is the last one. -/
def Rises (a b : Nat) : Prop := a < b ∨ b = lastVersion

namespace Rises

variable {a b c : Nat}

theorem le (h : Rises a b) (ha : a ≤ lastVersion) : a ≤ b := by
  rcases h with h | h
  · exact Nat.le_of_lt h
  · rwa [h]

theorem of_le (h : a ≤ b) (h' : Rises b c) : Rises a c := by
  rcases h' with h' | h'
  · exact .inl (Nat.lt_of_le_of_lt h h')
  · exact .inr h'

/-- Below the last version, to rise is to be greater. -/
theorem lt (h : Rises a b) (hb : b < lastVersion) : a < b := by
  rcases h with h | h
  · exact h
  · omega

end Rises

namespace Version

theorem number_le (v : Version) : v.number ≤ lastVersion := by
  have hlt := v.number_lt
  unfold lastVersion
  omega

theorem rises_next (v : Version) : Rises v.number v.next.number := by
  have hle := v.number_le
  unfold Rises next lastVersion at *
  simp only
  omega

theorem le_next (v : Version) : v.number ≤ v.next.number := v.rises_next.le v.number_le

theorem next_pos (v : Version) : 0 < v.next.number := by
  unfold next
  simp only
  omega

end Version

theorem Slot.numberOf_le (slot : Option Slot) : Slot.numberOf slot ≤ lastVersion := by
  cases slot with
  | none => exact Nat.zero_le _
  | some slot => exact slot.version.number_le

/-! ## What a write is announced as -/

namespace StoreCall

/-- What an applied write is announced as. -/
inductive Announced : StoreCall → List Change → Prop where
  | inserted {r kind t} (hv : 0 < r.version.number) :
      Announced (.insert r) [⟨r.key, r.version, kind, t⟩]
  | swapped {key v r kind t} (hk : r.key = key) (hv : r.version = v.next) :
      Announced (.swap key v r) [⟨r.key, r.version, kind, t⟩]
  /-- The record that was replaced had expired: its end has the version in between. -/
  | replaced {key v r kind t kind' t'} (hk : r.key = key) (hv : r.version = v.next.next) :
      Announced (.swap key v r) [⟨key, v.next, kind, t⟩, ⟨r.key, r.version, kind', t'⟩]
  | removed {key v v' kind t} (hv : v' = v.next) :
      Announced (.remove key v) [⟨key, v', kind, t⟩]

/-- What a store that keeps every record under its own key may answer. -/
def Plausible : (c : StoreCall) → c.Outcome → Prop
  | .get key, some r => r.key = key
  | .insert r, .occupied existing => existing.key = r.key
  | _, _ => True

end StoreCall

/-- A slot that was written over what a key held, and the changes that announce it. -/
structure Slots.Written (s : Slots) (key : SessionKey) (slot : Slot) (cs : List Change) : Prop where
  keyed : ∀ r, slot = .live r → r.key = key
  about : ∀ c ∈ cs, c.key = key
  /-- Every change is above what the key held. -/
  above : ∀ c ∈ cs, Rises (s.versionOf key) c.version.number
  /-- No change is ahead of the slot that is left. -/
  upTo : ∀ c ∈ cs, c.version.number ≤ slot.version.number
  /-- In their order, the changes rise. -/
  rising : cs.Pairwise fun c c' => Rises c.version.number c'.version.number
  rises : Rises (s.versionOf key) slot.version.number

namespace Slots.Written

variable {s : Slots} {key : SessionKey} {slot : Slot} {c c' : Change}

/-- A slot that is announced as one change. -/
theorem single (hkeyed : ∀ r, slot = .live r → r.key = key) (habout : c.key = key)
    (hversion : c.version = slot.version)
    (hrises : Rises (s.versionOf key) slot.version.number) : s.Written key slot [c] := by
  refine ⟨hkeyed, ?_, ?_, ?_, List.pairwise_singleton _ _, hrises⟩
  · intro x hx
    rwa [List.mem_singleton.mp hx]
  · intro x hx
    rwa [List.mem_singleton.mp hx, hversion]
  · intro x hx
    have hsame : x.version = slot.version := by rw [List.mem_singleton.mp hx, hversion]
    exact Nat.le_of_eq (congrArg Version.number hsame)

/-- A slot that is announced as two changes, the first of them one in between. -/
theorem pair (hkeyed : ∀ r, slot = .live r → r.key = key) (habout : c.key = key)
    (habout' : c'.key = key) (hbetween : Rises (s.versionOf key) c.version.number)
    (hversion : c'.version = slot.version) (hrises : Rises c.version.number slot.version.number) :
    s.Written key slot [c, c'] := by
  have hle : s.versionOf key ≤ c.version.number := hbetween.le (Slot.numberOf_le _)
  refine ⟨hkeyed, ?_, ?_, ?_, ?_, hrises.of_le hle⟩
  · intro x hx
    rcases List.mem_cons.mp hx with rfl | hx
    · exact habout
    · rwa [List.mem_singleton.mp hx]
  · intro x hx
    rcases List.mem_cons.mp hx with rfl | hx
    · exact hbetween
    · rw [List.mem_singleton.mp hx, hversion]
      exact hrises.of_le hle
  · intro x hx
    rcases List.mem_cons.mp hx with rfl | hx
    · exact hrises.le x.version.number_le
    · have hsame : x.version = slot.version := by rw [List.mem_singleton.mp hx, hversion]
      exact Nat.le_of_eq (congrArg Version.number hsame)
  · rw [List.pairwise_pair, hversion]
    exact hrises

end Slots.Written

namespace StoreCall.Announced

/-- An insertion that is applied is above what the key held. -/
theorem insert_rises {s : Slots} {r : Record} (hv : 0 < r.version.number)
    (ho : (s.apply (.insert r)).1 = .inserted) :
    (s.apply (.insert r)).2.1 = s.put r.key (.live r) ∧ s.versionOf r.key < r.version.number := by
  cases hslot : s.get? r.key with
  | none =>
    rw [Slots.apply_insert_unused hslot]
    refine ⟨rfl, ?_⟩
    unfold Slots.versionOf
    rwa [hslot]
  | some slot =>
    cases slot with
    | live cur =>
      rw [Slots.apply_insert_live (Slots.live?_eq_some.mpr hslot)] at ho
      cases ho
    | tombstone v =>
      by_cases hle : r.version ≤ v
      · rw [Slots.apply_insert_below hslot hle] at ho
        cases ho
      · rw [Slots.apply_insert_above hslot hle]
        refine ⟨rfl, ?_⟩
        rw [Slots.versionOf_of_get hslot]
        exact Nat.lt_of_not_le hle

/-- A replacement that is applied is made over the record of the expected version. -/
theorem swap_over {s : Slots} {key : SessionKey} {v : Version} {r : Record}
    (ho : (s.apply (.swap key v r)).1 = .applied) :
    (s.apply (.swap key v r)).2.1 = s.put key (.live r) ∧ s.versionOf key = v.number := by
  rw [Slots.apply_swap_outcome] at ho
  obtain ⟨cur, hcur, hv⟩ := Slots.writeOutcome_eq_applied.mp ho
  rw [Slots.apply_swap_applied hcur hv, Slots.versionOf_of_live hcur, hv]
  exact ⟨rfl, rfl⟩

/-- A removal that is applied leaves a tombstone above the expected version. -/
theorem remove_over {s : Slots} {key : SessionKey} {v : Version}
    (ho : (s.apply (.remove key v)).1 = .applied) :
    (s.apply (.remove key v)).2.1 = s.put key (.tombstone v.next) ∧
      s.versionOf key = v.number := by
  rw [Slots.apply_remove_outcome] at ho
  obtain ⟨cur, hcur, rfl⟩ := Slots.writeOutcome_eq_applied.mp ho
  rw [Slots.apply_remove_applied hcur rfl, Slots.versionOf_of_live hcur]
  exact ⟨rfl, rfl⟩

/-- **An announced write raises the slot of one key**, through the versions that it announces. -/
theorem effect {s : Slots} {c : StoreCall} {cs : List Change} {key : SessionKey}
    (h : c.Announced cs) (hw : c.written? (s.apply c).1 = some key) :
    ∃ slot, (s.apply c).2.1 = s.put key slot ∧ s.Written key slot cs := by
  cases h with
  | @inserted r kind t hv =>
    -- only an insertion into a free slot writes, and that slot's version was lower
    cases ho : (s.apply (.insert r)).1 with
    | inserted =>
      rw [ho] at hw
      obtain rfl : r.key = key := Option.some.inj hw
      obtain ⟨hput, hlt⟩ := insert_rises hv ho
      refine ⟨.live r, hput, .single ?_ rfl rfl (.inl hlt)⟩
      rintro _ ⟨⟩
      rfl
    | occupied existing => rw [ho] at hw; cases hw
    | tombstoned v => rw [ho] at hw; cases hw
  | @swapped key' v r kind t hk hv =>
    -- a swap that is applied met exactly the version it names
    cases ho : (s.apply (.swap key' v r)).1 with
    | applied =>
      rw [ho] at hw
      obtain rfl : key' = key := Option.some.inj hw
      obtain ⟨hput, hover⟩ := swap_over ho
      refine ⟨.live r, hput, .single ?_ hk rfl ?_⟩
      · rintro _ ⟨⟩
        exact hk
      · show Rises _ r.version.number
        rw [hover, hv]
        exact v.rises_next
    | conflict latest => rw [ho] at hw; cases hw
    | missing => rw [ho] at hw; cases hw
  | @replaced key' v r kind t kind' t' hk hv =>
    -- the expired record's end is announced on the way: two versions, one after the other
    cases ho : (s.apply (.swap key' v r)).1 with
    | applied =>
      rw [ho] at hw
      obtain rfl : key' = key := Option.some.inj hw
      obtain ⟨hput, hover⟩ := swap_over ho
      refine ⟨.live r, hput, .pair ?_ rfl hk ?_ rfl ?_⟩
      · rintro _ ⟨⟩
        exact hk
      · rw [hover]
        exact v.rises_next
      · show Rises _ r.version.number
        rw [hv]
        exact v.next.rises_next
    | conflict latest => rw [ho] at hw; cases hw
    | missing => rw [ho] at hw; cases hw
  | @removed key' v v' kind t hv =>
    -- a removal leaves a tombstone one version on, under which no record stands
    cases ho : (s.apply (.remove key' v)).1 with
    | applied =>
      rw [ho] at hw
      obtain rfl : key' = key := Option.some.inj hw
      obtain ⟨hput, hover⟩ := remove_over ho
      subst hv
      have hnone : ∀ r, Slot.tombstone v.next = .live r → r.key = key' :=
        fun r h => by contradiction
      refine ⟨.tombstone v.next, hput, .single hnone rfl rfl ?_⟩
      show Rises _ v.next.number
      rw [hover]
      exact v.rises_next
    | conflict latest => rw [ho] at hw; cases hw
    | missing => rw [ho] at hw; cases hw

end StoreCall.Announced

/-! ## Operations that announce -/

/-- Questions that neither write, nor announce, nor fill the cache. -/
def Request.isPlain : Request → Bool
  | .now | .cached _ | .beginForget _ | .forgotten _ | .forget _ | .warnings _ => true
  | .store _ | .announce _ _ | .cache _ _ => false

/-- What is left of an operation announces every write right after it, and announces nothing
    else.  It may owe the announcement of a write that has just been applied. -/
inductive Orderly {α : Type} : Option StoreCall → Operation α → Prop where
  | done (a) : Orderly none (.done a)
  | plain {q next} (hq : q.isPlain = true) (h : ∀ x, Orderly none (next x)) :
      Orderly none (.ask q next)
  | store {c next}
      (hnone : ∀ x, (∀ o, x = some (.ok o) → c.Plausible o ∧ c.written? o = none) →
        Orderly none (next x))
      (hsome : ∀ o, (c.written? o).isSome = true → Orderly (some c) (next (some (.ok o)))) :
      Orderly none (.ask (.store c) next)
  | announce {c earlier own next} (ha : c.Announced (earlier ++ [own]))
      (h : ∀ x, Orderly none (next x)) : Orderly (some c) (.ask (.announce earlier own) next)

namespace Orderly

variable {α : Type}

/-- A call on the store whose failures end the operation. -/
theorem storeCall {s : CoordinatorSettings} {c : StoreCall}
    {next : c.Outcome → Operation (Except SessionError α)}
    (hnone : ∀ o, c.Plausible o → c.written? o = none → Orderly none (next o))
    (hsome : ∀ o, (c.written? o).isSome = true → Orderly (some c) (next o)) :
    Orderly none (Coordinator.storeCall s c next) := by
  refine .store ?_ hsome
  intro x hx
  cases x with
  | none => exact .done _
  | some r =>
    cases r with
    | error f => exact .done _
    | ok o => exact hnone o (hx o rfl).1 (hx o rfl).2

/-- Reading the live record of a key: it is a record of this key. -/
theorem loadLive {s : CoordinatorSettings} {key : SessionKey} {now : Instant}
    {next : Record → Operation (Except SessionError α)}
    (h : ∀ r : Record, r.key = key → Orderly none (next r)) :
    Orderly none (Coordinator.loadLive s key now next) := by
  refine storeCall ?_ ?_
  · intro o hp _
    cases o with
    | none => exact .done _
    | some r =>
      simp only
      split
      · exact .done _
      · exact h r hp
  · intro o ho
    cases ho

/-- What follows a write that was applied. -/
theorem commit {c : StoreCall} {key : SessionKey} {value : α} {earlier : List Change}
    {own : Change} (ha : c.Announced (earlier ++ [own])) :
    Orderly (some c) (Coordinator.commit key value earlier own) :=
  .announce ha fun _ => .plain rfl fun _ => .plain rfl fun _ => .plain rfl fun _ => .done _

/-- Replacing the record of an expected version by its successor. -/
theorem swap {s : CoordinatorSettings} {key : SessionKey} {expected : Version} {next : Record}
    {now : Instant} (hk : next.key = key) (hv : next.version = expected.next) :
    Orderly none (Coordinator.swap s key expected next now) := by
  refine storeCall ?_ ?_
  · intro o _ ho
    cases o with
    | applied => cases ho
    | conflict latest => exact .done _
    | missing => exact .done _
  · intro o ho
    cases o with
    | applied => exact .commit (.swapped hk hv)
    | conflict latest => cases ho
    | missing => cases ho

end Orderly

/-- The rounds of a creation. -/
theorem createFrom_orderly (s : CoordinatorSettings) (key : SessionKey) (payload : Json)
    (ttl : Span) (now : Instant) (rounds : Nat) :
    ∀ t : Option Version,
      Orderly none (Coordinator.createFrom s key payload ttl now rounds t) := by
  induction rounds with
  | zero => exact fun t => .done _
  | succ rounds ih =>
    intro t
    have hkey : (Coordinator.fresh s key payload ttl now t).key = key := by cases t <;> rfl
    have hpos : 0 < (Coordinator.fresh s key payload ttl now t).version.number := by
      cases t with
      | none => exact Nat.one_pos
      | some v => exact v.next_pos
    refine .storeCall ?_ ?_
    · intro o hp ho
      cases o with
      | inserted => cases ho
      | tombstoned v => exact ih _
      | occupied existing =>
        have hk : existing.key = key := by
          rw [← hkey]
          exact hp
        simp only
        split
        · exact .done _
        · -- the record in the way has expired, and is replaced
          refine .storeCall ?_ ?_
          · intro o _ ho
            cases o with
            | applied => cases ho
            | conflict latest => exact .done _
            | missing => exact ih _
          · intro o ho
            cases o with
            | applied => exact .commit (.replaced hk rfl)
            | conflict latest => cases ho
            | missing => cases ho
    · intro o ho
      cases o with
      | inserted => exact .commit (.inserted hpos)
      | tombstoned v => cases ho
      | occupied existing => cases ho

/-- Removing a batch of expired records. -/
theorem evict_orderly {α : Type} (s : SweeperSettings) (now : Instant)
    {next : Nat → Sweeper.Progress → Operation (Except SessionError α)}
    (hnext : ∀ n p, Orderly none (next n p)) (batch : List Record) :
    ∀ (removed : Nat) (p : Sweeper.Progress),
      Orderly none (Sweeper.evict s now next batch removed p) := by
  induction batch with
  | nil => exact fun removed p => hnext removed p
  | cons r batch ih =>
    intro removed p
    -- the answer decides: a conflict or a missing record is passed over, and nothing is announced
    refine .store ?_ ?_
    · intro x hx
      cases x with
      | none => exact .done _
      | some x =>
        cases x with
        | error f => exact .done _
        | ok o =>
          cases o with
          | applied => cases (hx _ rfl).2
          | conflict latest => exact ih _ _
          | missing => exact ih _ _
    · intro o ho
      -- a removal is the one answer that wrote, and it is announced before anything else
      cases o with
      | applied => exact .announce (.removed rfl) fun _ => .plain rfl fun _ => ih _ _
      | conflict latest => cases ho
      | missing => cases ho

/-- Batch after batch. -/
theorem batches_orderly (s : SweeperSettings) (now : Instant) (rounds : Nat) :
    ∀ p : Sweeper.Progress, Orderly none (Sweeper.batches s now rounds p) := by
  have hreport (p : Sweeper.Progress) : Orderly none (Sweeper.report p) :=
    .plain rfl fun _ => .done _
  induction rounds with
  | zero => exact hreport
  | succ rounds ih =>
    intro p
    -- the scan writes nothing, so only what follows it is to be shown
    refine .store ?_ ?_
    · intro x _
      cases x with
      | none => exact .done _
      | some x =>
        cases x with
        | error f => exact .done _
        | ok batch =>
          refine evict_orderly s now ?_ batch 0 p
          intro removed p
          simp only
          split
          · exact hreport _
          · exact ih _
    · intro o ho
      cases ho

/-- A sweep. -/
theorem sweep_orderly (s : SweeperSettings) : Orderly none (Sweeper.sweep s) :=
  .plain rfl fun now => batches_orderly s now _ _

/-- Whether a call only reads. -/
def Call.isRead : Call → Bool
  | .get _ _ => true
  | .create .. | .update .. | .delete .. | .touch .. | .sweep _ => false

/-- **Every call that changes something announces each of its writes** in the poll of the
    write. -/
theorem Call.orderly {c : Call} (hc : c.isRead = false) : Orderly none c.operation := by
  cases c with
  -- reads are left out by hypothesis
  | get s key => cases hc
  | create s key payload ttl =>
    simp only [operation, Coordinator.create]
    split
    · exact .done _
    · split
      · exact .done _
      · exact .plain rfl fun now => createFrom_orderly s key payload ttl now _ none
  | update s key expected payload =>
    simp only [operation, Coordinator.update]
    split
    · exact .done _
    · refine .plain rfl fun now => .loadLive fun r hk => ?_
      split
      · -- the version the record was read at is the expected one, and the swap names it
        exact .done _
      · rename_i hv
        have hsame : r.version = expected := Decidable.not_not.mp hv
        exact .swap hk (by rw [← hsame]; rfl)
  | delete s key expected =>
    refine .plain rfl fun now => .loadLive fun r hk => ?_
    split
    · exact .done _
    · rename_i hv
      have hsame : r.version = expected := Decidable.not_not.mp hv
      -- the removal: answers that write nothing end the call
      refine .storeCall ?_ ?_
      · intro o _ ho
        cases o with
        | applied => cases ho
        | conflict latest => exact .done _
        | missing => exact .done _
      · -- the answer that wrote is committed, one version above the one removed
        intro o ho
        cases o with
        | applied => exact .commit (.removed (by rw [← hsame]; rfl))
        | conflict latest => cases ho
        | missing => cases ho
  | touch s key extendBy =>
    simp only [operation, Coordinator.touch]
    split
    · exact .done _
    · exact .plain rfl fun now => .loadLive fun r hk => .swap hk rfl
  | sweep s => exact sweep_orderly s

end SessionCluster
