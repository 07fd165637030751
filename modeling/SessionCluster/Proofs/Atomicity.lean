/-
  Calls are atomic — every answer is the answer of one step, at one moment of the call.

  Updating, removing and touching read a record, and write its successor later; in between others
  may have changed, removed and created it again.  The write is guarded by the version that was
  read, and a version never returns, so what is replaced is the record that was read, in every
  field.  What loses is judged again, by the record that beat it.

  `answers_explained` — in every run, whatever a call has answered is what its specification
  gives at one of its own calls on the store: the content just before, judged by the clock that
  the call has read, gives the answer and the content just after; and the call has written nothing
  else.  That call on the store was answered in a step of the run, while the call was waiting.
-/
import SessionCluster.Proofs.Calls
import SessionCluster.Proofs.Schedules

namespace SessionCluster

/-- What takes effect is a call on the store, before which others may run. -/
theorem Exchange.isAwait_of_isEffect {σ : Type} {e : Exchange σ} (h : e.isEffect = true) :
    e.question.isAwait = true := by
  unfold Exchange.isEffect at h
  split at h
  · rfl
  · cases h

/-- **Answers are explained by one step.**  In every run from an empty store, the answer of each
    call that has finished is explained, and each of its calls on the store that took effect was
    answered in a step of the run. -/
theorem answers_explained {c : Cluster World} (hc : Runs (.idle {}) c) {i : Nat}
    {p : Progress World} (hp : c.calls i = some p) {a : p.call.Answer} (ha : p.rest = .done a) :
    Explained p.call p.made a ∧
      ∀ e ∈ p.made, e.isEffect = true →
        AnsweredIn World.Answers World.InRange {} c i p.call e := by
  constructor
  · -- a call at rest that has nothing left is one whose answer is explained
    have hrest := hc.invariant.2 i p hp
    rw [ha] at hrest
    exact hrest
  · intro e he hk
    exact hc.answered hp he (Exchange.isAwait_of_isEffect hk)

/-- A removal that waited while its session was updated, replaced and removed is explained. -/
theorem sample_removal_explained : Runs (.idle {}) Sample.final ∧
    ∃ p a, Sample.final.calls 1 = some p ∧ p.rest = .done a ∧ Explained p.call p.made a := by
  refine ⟨Sample.runs_final, ?_⟩
  obtain ⟨p, a, hp, ha⟩ := Sample.late_removal_answered
  exact ⟨p, a, hp, ha, (answers_explained Sample.runs_final hp ha).1⟩

end SessionCluster
