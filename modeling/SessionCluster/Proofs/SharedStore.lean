/-
  The shared store — what calls of many nodes may do to one store, and what they announce.

  The state that calls share is the content of the store and the changes that were announced, in
  order.  A call on the store takes effect at once, or fails or comes too late and has no effect;
  every clock shows what it likes; there is no cache.

  * `AnnouncedAs` — what the write of one slot is announced as: the creation of a record above
    everything before it, a successor of a record, the end of a record, or an end and a creation
    in one write.
  * `Lawful` — what one poll of a call may do: nothing, or one such write with its announcement.
  * `Chronicle` — the announcements of a key, each write after the other, up to the slot that the
    key has now.
  * `sharing` — the discipline: polls are lawful, every key has its chronicle, and contents grow.
-/
import SessionCluster.Proofs.Discipline
import SessionCluster.Proofs.SlotOrder

namespace SessionCluster

/-! ## The state and its surroundings -/

/-- What calls share: the content of the store, and the changes announced so far. -/
structure World where
  slots : Slots := {}
  announced : List Change := []

namespace World

/-- The world after a call on the store. -/
def after (w : World) (c : StoreCall) : World := { w with slots := (w.slots.apply c).2.1 }

/-- The world after an announcement. -/
def announce (w : World) (cs : List Change) : World := { w with announced := w.announced ++ cs }

/-- The exchange in which a call on the store takes effect. -/
def effect (w : World) (c : StoreCall) : Exchange World :=
  ⟨w, .store c, some (.ok (w.slots.apply c).1), w.after c⟩

/-- What a question can be answered, and what becomes of the world. -/
def Answers (w : World) : (q : Request) → q.Answer → World → Prop
  | .store c, x, w' =>
    x = some (.ok (w.slots.apply c).1) ∧ w' = w.after c ∨
      (∀ o, x ≠ some (.ok o)) ∧ w' = w
  | .cached _, x, w' => x = none ∧ w' = w
  | .announce earlier own, x, w' => x.2.change = own ∧ w' = w.announce (earlier ++ [own])
  | .now, _, w' | .cache _ _, _, w' | .beginForget _, _, w' | .forgotten _, _, w'
  | .forget _, _, w' | .warnings _, _, w' => w' = w

/-- The store in memory is such a store. -/
theorem answers_call (store : MemoryStore) (announced : List Change) (c : StoreCall) :
    World.Answers ⟨store.slots, announced⟩ (.store c) (some (store.call c).2)
      ⟨(store.call c).1.slots, announced⟩ := by
  cases hu : store.unavailable with
  | true =>
    rw [MemoryStore.call_of_unavailable hu]
    exact .inr ⟨fun o => nofun, rfl⟩
  | false =>
    rw [MemoryStore.call_answer hu, MemoryStore.call_slots hu]
    exact .inl ⟨rfl, rfl⟩

/-- Versions low enough that two more can follow. -/
def InRange (w : World) : Prop := ∀ key, w.slots.versionOf key < 18446744073709551614

/-- The announcements of a key. -/
def story (w : World) (key : SessionKey) : List Change := w.announced.filter fun c => c.key = key

end World

/-- Runs of calls and sweeps over one store, while versions are in range. -/
abbrev Runs : Cluster World → Cluster World → Prop := Leads World.Answers World.InRange

/-! ## What a write is announced as -/

/-- What a call announces the write of a slot of a key as, by what the key held before. -/
inductive AnnouncedAs (call : Call) (key : SessionKey) :
    Option Slot → Slot → List Change → Prop where
  /-- A record where there was none: one above the tombstone, or the first version. -/
  | created {old r t} (hc : call.Makes key .created) (hl : old.bind Slot.record? = none)
      (hk : r.key = key) (hv : r.version.number = Slot.numberOf old + 1) :
      AnnouncedAs call key old (.live r) [⟨key, r.version, .created, t⟩]
  /-- A successor of a record. -/
  | updated {cur r t} (hc : call.Makes key .updated) (hk : r.key = key)
      (hv : r.version.number = cur.version.number + 1) :
      AnnouncedAs call key (some (.live cur)) (.live r) [⟨key, r.version, .updated, t⟩]
  /-- A record in place of an expired one, whose end takes the version in between. -/
  | replaced {cur r v t} (hc : call.Makes key .created) (he : cur.isExpiredAt t = true)
      (hk : r.key = key) (hv : v.number = cur.version.number + 1)
      (hr : r.version.number = cur.version.number + 2) :
      AnnouncedAs call key (some (.live cur)) (.live r)
        [⟨key, v, .expired, t⟩, ⟨key, r.version, .created, t⟩]
  /-- The end of a record. -/
  | ended {cur v kind t} (hc : call.Makes key kind) (ht : kind.isTerminal = true)
      (hv : v.number = cur.version.number + 1) :
      AnnouncedAs call key (some (.live cur)) (.tombstone v) [⟨key, v, kind, t⟩]

/-- The announcements of a key, from its first write to the slot that it has now. -/
inductive Chronicle (key : SessionKey) : List Change → Option Slot → Prop where
  | unused : Chronicle key [] none
  | write {told call old new cs} (h : Chronicle key told old)
      (ha : AnnouncedAs call key old new cs) :
      Chronicle key (told ++ cs) (some new)

/-- What a poll of a call may do: write nothing, or write one slot and announce it. -/
inductive Lawful (call : Call) (w : World) (es : List (Exchange World)) (w' : World) : Prop where
  | quiet (he : writes es = []) (hs : w'.slots = w.slots) (ha : w'.announced = w.announced)
  | wrote {key new cs} (he : writes es = [key])
      (hn : AnnouncedAs call key (w.slots.get? key) new cs)
      (hs : w'.slots = w.slots.put key new) (ha : w'.announced = w.announced ++ cs)

namespace AnnouncedAs

variable {call : Call} {key : SessionKey} {old : Option Slot} {new : Slot} {cs : List Change}

/-- All that is announced is about the key. -/
theorem key_eq (h : AnnouncedAs call key old new cs) : ∀ c ∈ cs, c.key = key := by
  intro c hc
  cases h with
  | created => rw [List.mem_singleton.mp hc]
  | updated => rw [List.mem_singleton.mp hc]
  | ended => rw [List.mem_singleton.mp hc]
  | replaced =>
    rcases List.mem_cons.mp hc with rfl | hc
    · rfl
    · rw [List.mem_singleton.mp hc]

/-- A write goes up by as many versions as it has announcements. -/
theorem numberOf_add (h : AnnouncedAs call key old new cs) :
    new.version.number = Slot.numberOf old + cs.length := by
  cases h with
  | created _ _ _ hv => exact hv
  | updated _ _ hv => exact hv
  | replaced _ _ _ _ hr => exact hr
  | ended _ _ hv => exact hv

/-- A write goes up. -/
theorem numberOf_lt (h : AnnouncedAs call key old new cs) :
    Slot.numberOf old < new.version.number := by
  have hpos : 0 < cs.length := by cases h <;> exact Nat.succ_pos _
  have hadd := h.numberOf_add
  omega

end AnnouncedAs

namespace Chronicle

variable {key : SessionKey} {told : List Change}

/-- A record is stored under its own key. -/
theorem key_of_live {r : Record} (h : Chronicle key told (some (.live r))) : r.key = key := by
  cases h with
  | write _ ha =>
    cases ha with
    | created _ _ hk => exact hk
    | updated _ hk => exact hk
    | replaced _ _ hk => exact hk

end Chronicle

/-! ## The discipline -/

namespace Lawful

variable {call : Call} {w w' : World} {es : List (Exchange World)}

/-- A lawful poll leaves each slot as it is, or raises its version. -/
theorem grows (h : Lawful call w es w') : w.slots.Grows w'.slots := by
  cases h with
  | quiet _ hs =>
    rw [hs]
    exact .refl _
  | wrote _ hn hs =>
    rw [hs]
    exact .put hn.numberOf_lt

/-- A lawful poll continues the chronicle of every key. -/
theorem chronicle (h : Lawful call w es w')
    (hc : ∀ key, Chronicle key (w.story key) (w.slots.get? key)) (key : SessionKey) :
    Chronicle key (w'.story key) (w'.slots.get? key) := by
  cases h with
  | quiet _ hs ha =>
    unfold World.story
    rw [hs, ha]
    exact hc key
  | @wrote k new cs _ hn hs ha =>
    unfold World.story
    rw [hs, ha, List.filter_append, Slots.get?_put]
    by_cases hk : key = k
    · -- the key that was written: all that was announced is about it
      subst hk
      have hall : cs.filter (fun c => c.key = key) = cs :=
        List.filter_eq_self.mpr fun c hc => decide_eq_true (hn.key_eq c hc)
      rw [if_pos rfl, hall]
      exact .write (hc key) hn
    · -- another key: none of it is
      have hnone : cs.filter (fun c => c.key = key) = [] :=
        List.filter_eq_nil_iff.mpr fun c hc => by
          rw [hn.key_eq c hc]
          simpa using fun h => hk h.symm
      rw [if_neg hk, hnone, List.append_nil]
      exact hc key

end Lawful

/-- **The discipline of the shared store**: polls are lawful, every key has its chronicle, and
    contents grow. -/
def sharing : Discipline World where
  surroundings := World.Answers
  within := World.InRange
  inv w := ∀ key, Chronicle key (w.story key) (w.slots.get? key)
  poll := Lawful
  later w w' := w.slots.Grows w'.slots
  later_refl w := .refl w.slots
  later_trans h h' := h.trans h'
  poll_nil _ _ := .quiet rfl rfl rfl
  poll_inv hi h := h.chronicle hi
  poll_later _ h := h.grows

/-- An empty store, of which nothing was announced, keeps the discipline. -/
theorem sharing_inv_empty : sharing.inv {} := fun _ => .unused

end SessionCluster
