/-
  Announcements account for the store — every version once, and every life from beginning to end.

  Announcing is no transaction with the store: an operation writes, and then announces what it
  believes to have written.  What it says is right because the announcement belongs to the poll of
  the write, and because the write is applied only where the operation's belief holds.

  * `Accounted` — what it means that some announcements account for what a key holds: they carry
    the versions up to its version, each once and in order; their kinds spell lives, the last one
    perhaps going on; and as many lives have ended as have begun, but for that last one.
  * `announcements_account` — in every run, the announcements of every key account for what it
    holds; each step adds what its one write calls for; and creating over an expired record adds
    its end and the new beginning.

  Lives are written as a regular language: a creation, updates, and a removal or an expiry.
-/
import SessionCluster.Proofs.Calls
import SessionCluster.Proofs.Schedules
import Mathlib.Computability.Language

namespace SessionCluster

open Computability

/-! ## Lives -/

/-- The kinds of changes in the life of a session, up to now. -/
def begun : Language ChangeKind := {[.created]} * {[.updated]}∗

/-- The kinds of changes in whole lives, one after the other. -/
def lives : Language ChangeKind := (begun * ({[.deleted]} + {[.expired]}))∗

/-- Whole lives, and one that goes on. -/
def livesGoingOn : Language ChangeKind := lives * begun

section

variable {ks : List ChangeKind}

theorem mem_letter (kind : ChangeKind) : [kind] ∈ ({[kind]} : Language ChangeKind) := rfl

theorem nil_mem_lives : [] ∈ lives := Language.nil_mem_kstar _

/-- A life begins after whole lives. -/
theorem lives_created (h : ks ∈ lives) : ks ++ [.created] ∈ livesGoingOn := by
  have hb : [.created] ++ [] ∈ begun :=
    Language.append_mem_mul (mem_letter _) (Language.nil_mem_kstar _)
  exact Language.append_mem_mul h hb

/-- A life that goes on is updated. -/
theorem lives_updated (h : ks ∈ livesGoingOn) : ks ++ [.updated] ∈ livesGoingOn := by
  have hstar : {[.updated]}∗ * {[.updated]} ≤ ({[.updated]}∗ : Language ChangeKind) :=
    kstar_mul_le_kstar
  have hle : livesGoingOn * {[.updated]} ≤ livesGoingOn := by
    unfold livesGoingOn begun
    rw [mul_assoc, mul_assoc]
    exact mul_le_mul_right (mul_le_mul_right hstar _) _
  exact hle (Language.append_mem_mul h (mem_letter _))

/-- A life that goes on is ended. -/
theorem lives_ended {kind : ChangeKind} (h : ks ∈ livesGoingOn) (ht : kind.isTerminal = true) :
    ks ++ [kind] ∈ lives := by
  have hle : livesGoingOn * ({[.deleted]} + {[.expired]}) ≤ lives := by
    unfold livesGoingOn
    rw [mul_assoc]
    exact kstar_mul_le_kstar
  refine hle (Language.append_mem_mul h ?_)
  cases kind with
  | deleted => exact .inl rfl
  | expired => exact .inr rfl
  | created => cases ht
  | updated => cases ht

/-- What goes on can still be ended. -/
theorem ended_of_goingOn (h : ks ∈ livesGoingOn) : ks ++ [.deleted] ∈ lives :=
  lives_ended h rfl

end

/-! ## Accounts -/

/-- Whether a key holds a record, as a number. -/
def Slot.liveCount (slot : Option Slot) : Nat := if (slot.bind Slot.record?).isSome then 1 else 0

/-- Some announcements account for what a key holds. -/
structure Accounted (cs : List Change) (slot : Option Slot) : Prop where
  /-- They carry every version, once and in order. -/
  versions : (cs.map fun c => c.version.number) = List.range' 1 (Slot.numberOf slot)
  /-- Their kinds are a beginning of lives. -/
  spells : ∃ rest, cs.map Change.kind ++ rest ∈ lives
  /-- Where there is no record, all lives are whole. -/
  whole : slot.bind Slot.record? = none → cs.map Change.kind ∈ lives
  /-- As many lives have ended as have begun, but for the one that goes on. -/
  ends : (cs.countP fun c => c.kind.isTerminal) + Slot.liveCount slot =
    cs.countP fun c => c.kind = .created

/-- The kinds that lead to what a key holds. -/
def Spelt (ks : List ChangeKind) (slot : Option Slot) : Prop :=
  match slot.bind Slot.record? with
  | some _ => ks ∈ livesGoingOn
  | none => ks ∈ lives

namespace AnnouncedAs

variable {call : Call} {key : SessionKey} {old : Option Slot} {new : Slot} {cs : List Change}

/-- A write announces the versions right above the one it finds. -/
theorem versions_eq (h : AnnouncedAs call key old new cs) :
    (cs.map fun c => c.version.number) = List.range' (Slot.numberOf old + 1) cs.length := by
  cases h with
  | created _ _ _ hv =>
    rw [List.map_singleton, hv]
    rfl
  | updated _ _ hv =>
    rw [List.map_singleton, hv]
    rfl
  | replaced _ _ _ hv hr =>
    rw [List.map_cons, List.map_singleton, hv, hr]
    rfl
  | ended _ _ hv =>
    rw [List.map_singleton, hv]
    rfl

/-- A write continues the lives of a key. -/
theorem spelt (h : AnnouncedAs call key old new cs) {ks : List ChangeKind} (hs : Spelt ks old) :
    Spelt (ks ++ cs.map Change.kind) (some new) := by
  cases h with
  | created _ hl =>
    rw [Spelt, hl] at hs
    exact lives_created hs
  | updated => exact lives_updated hs
  | replaced =>
    -- one write, but the end comes before the beginning
    have hended : ks ++ [.expired] ∈ lives := lives_ended hs rfl
    have hcreated := lives_created hended
    rwa [List.append_assoc] at hcreated
  | ended _ ht => exact lives_ended hs ht

/-- A write ends the life that goes on before another begins. -/
theorem ends (h : AnnouncedAs call key old new cs) :
    (cs.countP fun c => c.kind.isTerminal) + Slot.liveCount (some new) =
      (cs.countP fun c => c.kind = .created) + Slot.liveCount old := by
  cases h with
  | created _ hl => simp [Slot.liveCount, hl, ChangeKind.isTerminal, Slot.record?]
  | updated => simp [Slot.liveCount, ChangeKind.isTerminal, Slot.record?]
  | replaced => simp [Slot.liveCount, ChangeKind.isTerminal, Slot.record?]
  | @ended cur v kind t _ ht =>
    have hc : kind ≠ .created := by
      rintro rfl
      cases ht
    simp [Slot.liveCount, ht, hc, Slot.record?]

end AnnouncedAs

/-- The kinds that a chronicle tells spell lives. -/
theorem Chronicle.spelt {key : SessionKey} {told : List Change} {slot : Option Slot}
    (h : Chronicle key told slot) : Spelt (told.map Change.kind) slot := by
  induction h with
  | unused => exact nil_mem_lives
  | write _ ha ih =>
    rw [List.map_append]
    exact ha.spelt ih

/-- A chronicle accounts for the slot that it leads to. -/
theorem Chronicle.accounted {key : SessionKey} {told : List Change} {slot : Option Slot}
    (h : Chronicle key told slot) : Accounted told slot := by
  have hspelt := h.spelt
  refine ⟨?_, ?_, ?_, ?_⟩
  · clear hspelt
    induction h with
    | unused => rfl
    | @write told _ old new cs h ha ih =>
      rw [List.map_append, ih, ha.versions_eq, Nat.add_comm, List.range'_append_1]
      show _ = List.range' 1 new.version.number
      rw [ha.numberOf_add]
  · -- a life that goes on could be ended by a removal
    unfold Spelt at hspelt
    split at hspelt
    · exact ⟨[.deleted], ended_of_goingOn hspelt⟩
    · exact ⟨[], by rwa [List.append_nil]⟩
  · intro hnone
    rwa [Spelt, hnone] at hspelt
  · clear hspelt
    induction h with
    | unused => rfl
    | write _ ha ih =>
      have hends := ha.ends
      rw [List.countP_append, List.countP_append]
      omega

/-! ## Runs -/

/-- A creation that writes over a record announces its end and the new beginning. -/
theorem Lawful.over_record {s : CoordinatorSettings} {key : SessionKey} {payload : Json}
    {ttl : Span} {w w' : World} {es : List (Exchange World)} {cur : Record}
    (h : Lawful (.create s key payload ttl) w es w') (hw : writes es ≠ [])
    (hcur : w.slots.live? key = some cur) :
    ∃ (ended created : Version) (now : Instant), cur.isExpiredAt now = true ∧
      ended.number = cur.version.number + 1 ∧ created.number = cur.version.number + 2 ∧
      w'.announced =
        w.announced ++ [⟨key, ended, .expired, now⟩, ⟨key, created, .created, now⟩] := by
  cases h with
  -- nothing was written, against the hypothesis
  | quiet he => exact absurd he hw
  | wrote _ hn _ ha =>
    rw [ha]
    generalize hold : w.slots.get? _ = old at hn
    cases hn with
    -- a creation from nothing finds no record there
    | created hc hl =>
      obtain ⟨rfl, _⟩ := hc
      rw [Slots.live?, hold, hl] at hcur
      cases hcur
    | updated hc =>
      obtain ⟨_, hk⟩ := hc
      -- an update is the work of another call
      cases hk
    | replaced hc he _ hv hr =>
      obtain ⟨rfl, _⟩ := hc
      rw [Slots.live?, hold] at hcur
      cases hcur
      -- the record was found, and both its versions follow on it
      exact ⟨_, _, _, he, hv, hr, rfl⟩
    | ended hc ht =>
      obtain ⟨_, rfl⟩ := hc
      -- and so is a removal
      cases ht

/-- **Announcements account for the store.**  In every run from an empty store, the announcements
    of each key carry every version up to the one that it stands at, and spell its lives; each
    step is quiet, or announces exactly its one write; and a creation that writes over a record of
    version `v` announces that it expired, at `v + 1`, and the creation at `v + 2`. -/
theorem announcements_account {c : Cluster World} (hc : Runs (.idle {}) c) :
    (∀ key, Accounted (c.world.story key) (c.world.slots.get? key)) ∧
    ∀ call es c', c.world.InRange → Step World.Answers c call es c' →
      Lawful call c.world es c'.world ∧
      ∀ s key payload ttl cur, call = .create s key payload ttl → writes es ≠ [] →
        c.world.slots.live? key = some cur →
        ∃ (ended created : Version) (now : Instant), cur.isExpiredAt now = true ∧
          ended.number = cur.version.number + 1 ∧ created.number = cur.version.number + 2 ∧
          c'.world.announced =
            c.world.announced ++ [⟨key, ended, .expired, now⟩, ⟨key, created, .created, now⟩] := by
  refine ⟨fun key => (hc.invariant.1 key).accounted, ?_⟩
  intro call es c' hw hs
  have hlaw := hc.lawful hw hs
  refine ⟨hlaw, ?_⟩
  rintro s key payload ttl cur rfl hwrites hcur
  exact hlaw.over_record hwrites hcur

/-- Two lives of a session, in five announcements. -/
theorem sample_accounted : Runs (.idle {}) Sample.final ∧
    Accounted (Sample.final.world.story Sample.key)
      (Sample.final.world.slots.get? Sample.key) ∧
    (Sample.final.world.story Sample.key).map Change.kind =
      [.created, .updated, .expired, .created, .deleted] :=
  ⟨Sample.runs_final, (announcements_account Sample.runs_final).1 Sample.key, by decide +kernel⟩

end SessionCluster
