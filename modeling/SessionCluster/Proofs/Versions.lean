/-
  Versions never return — what a version of a key stands for, over a whole run.

  No operation compares the version that it writes with the one it finds; the order of versions is
  a property of all calls together.  In every run of calls and sweeps of any number of nodes, with
  any clocks, failures and drops:

  * every write that is applied raises the version of its key, and touches no other key;
  * a key at one version holds one thing for ever;
  * a conditional write or removal is applied only onto the very record that had the version it
    expects, however many lives of the key have come and gone in between.

  The three together are `versions_never_return`.
-/
import SessionCluster.Proofs.Calls
import SessionCluster.Proofs.Schedules

namespace SessionCluster

/-! ## Conditional writes in a run -/

/-- The key and the expected version of a conditional write or removal that was applied. -/
def Exchange.appliedAt? {σ : Type} : Exchange σ → Option (SessionKey × Version)
  | ⟨_, .store (.swap key expected _), some (.ok .applied), _⟩ => some (key, expected)
  | ⟨_, .store (.remove key expected), some (.ok .applied), _⟩ => some (key, expected)
  | _ => none

/-- A conditional write that is applied meets a record at the version that it expects. -/
theorem Step.live_of_appliedAt {c c' : Cluster World} {call : Call} {es : List (Exchange World)}
    (h : Step World.Answers c call es c') {e : Exchange World} (he : e ∈ es) {key : SessionKey}
    {expected : Version} (ha : e.appliedAt? = some (key, expected)) :
    e.before = c.world ∧ c.world.slots.writeOutcome key expected = .applied := by
  unfold Exchange.appliedAt? at ha
  split at ha
  · next b k v r a =>
    cases ha
    -- a swap: the first exchange of the step, and the store has answered as it stood
    obtain ⟨hb, hx⟩ := h.await_first he rfl
    refine ⟨hb, ?_⟩
    rcases hx with ⟨hx, _⟩ | ⟨hx, _⟩
    · have hout := Except.ok.inj (Option.some.inj hx)
      rw [Slots.apply_swap_outcome] at hout
      exact hout.symm
    · exact absurd rfl (hx .applied)
  · next b k v a =>
    cases ha
    -- a removal, likewise
    obtain ⟨hb, hx⟩ := h.await_first he rfl
    refine ⟨hb, ?_⟩
    rcases hx with ⟨hx, _⟩ | ⟨hx, _⟩
    · have hout := Except.ok.inj (Option.some.inj hx)
      rw [Slots.apply_remove_outcome] at hout
      exact hout.symm
    · exact absurd rfl (hx .applied)
  · -- no other exchange is a conditional write
    cases ha

/-! ## The order of versions -/

/-- A key goes up to another version, and all other keys are left alone. -/
def Slots.RaisedAt (s : Slots) (key : SessionKey) (s' : Slots) : Prop :=
  s.versionOf key < s'.versionOf key ∧ ∀ k, k ≠ key → s'.get? k = s.get? k

/-- A lawful poll writes nothing and changes nothing, or raises the one key that it writes. -/
theorem Lawful.raisedAt {call : Call} {w w' : World} {es : List (Exchange World)}
    (h : Lawful call w es w') :
    writes es = [] ∧ w'.slots = w.slots ∨
      ∃ key, writes es = [key] ∧ w.slots.RaisedAt key w'.slots := by
  cases h with
  | quiet he hs => exact .inl ⟨he, hs⟩
  | @wrote key new cs he hn hs =>
    refine .inr ⟨key, he, ?_, ?_⟩
    · rw [hs, Slots.versionOf_put]
      exact hn.numberOf_lt
    · intro k hk
      rw [hs, Slots.get?_put, if_neg hk]

/-- **Versions never return.**  In every run from an empty store, each step writes nothing, or
    raises the version of the one key that it writes.  Along the rest of the run, every key stays
    as it is or goes up, so a record that was seen is the only one of its version.  And a
    conditional write that is applied is at a version that the key has not left, and meets the
    record that had this version. -/
theorem versions_never_return {c : Cluster World} (hc : Runs (.idle {}) c) :
    (∀ call es c', c.world.InRange → Step World.Answers c call es c' →
      writes es = [] ∧ c'.world.slots = c.world.slots ∨
        ∃ key, writes es = [key] ∧ c.world.slots.RaisedAt key c'.world.slots) ∧
    ∀ c', Runs c c' →
      c.world.slots.Grows c'.world.slots ∧
      (∀ key r r', c.world.slots.live? key = some r → c'.world.slots.live? key = some r' →
        r'.version = r.version → r' = r) ∧
      ∀ call es c'' e key v, Step World.Answers c' call es c'' → e ∈ es →
        e.appliedAt? = some (key, v) →
        c.world.slots.versionOf key ≤ v.number ∧
        ∃ r, e.before.slots.live? key = some r ∧ r.version = v ∧
          ∀ r', c.world.slots.live? key = some r' → r'.version = v → r' = r := by
  constructor
  · intro call es c' hw hs
    exact (hc.lawful hw hs).raisedAt
  · -- all that is left follows from the growth of the content along the rest of the run
    intro c' hc'
    have hg : c.world.slots.Grows c'.world.slots := hc.grows hc'
    refine ⟨hg, fun key r r' hr hr' hv => hg.same_record hr hr' hv, ?_⟩
    intro call es c'' e key v hs he ha
    obtain ⟨hb, happ⟩ := hs.live_of_appliedAt he ha
    obtain ⟨r, hr, rfl⟩ := Slots.writeOutcome_eq_applied.mp happ
    rw [hb]
    refine ⟨?_, r, hr, rfl, ?_⟩
    · -- the key has not gone down to the version that is expected
      rw [← Slots.versionOf_of_live hr]
      exact hg.versionOf_le key
    · intro r' hr' hv
      exact (hg.same_record hr' hr hv.symm).symm

/-- A session that has ended at version 5, after two lives, never stands below it again. -/
theorem sample_version_stays : Runs (.idle {}) Sample.final ∧
    Sample.final.world.slots.versionOf Sample.key = 5 ∧
    ∀ c', Runs Sample.final c' → 5 ≤ c'.world.slots.versionOf Sample.key := by
  have hfive : Sample.final.world.slots.versionOf Sample.key = 5 := by decide +kernel
  refine ⟨Sample.runs_final, hfive, ?_⟩
  intro c' hc'
  have hg := ((versions_never_return Sample.runs_final).2 c' hc').1
  rw [← hfive]
  exact hg.versionOf_le Sample.key

end SessionCluster
