/-
  Instants — the order of instants, and what has expired.

  Instants are in a linear order, by second and nanosecond.  Moving an instant forward by a
  millisecond or more makes it later, leap seconds included, as long as it is not the last one there
  is (`Instant.plus_cases`); so a record that is made to last a while does not begin expired.  Outside
  of leap seconds the sum is exact up to the last instant (`Instant.plus_follows`), and rises with both
  of its parts (`Instant.plus_le_plus`, `Instant.plus_le_of_millis_le`).
-/
import Mathlib.Order.MinMax
import SessionCluster.Session.Record

namespace SessionCluster

namespace Instant

/-- An instant is made up of its parts. -/
theorem ofParts?_self (t : Instant) : ofParts? t.second t.nano = some t :=
  dif_pos ⟨t.second_ge, t.second_le, t.nano_lt⟩

/-- An instant that is made up of parts has these parts. -/
theorem parts_of_ofParts {second : Int} {nano : Nat} {t : Instant}
    (h : ofParts? second nano = some t) : t.second = second ∧ t.nano = nano := by
  unfold ofParts? at h
  split at h
  · obtain rfl := Option.some.inj h
    exact ⟨rfl, rfl⟩
  · cases h

theorem inLeapSecond_iff {t : Instant} : t.inLeapSecond = true ↔ 1000000000 ≤ t.nano :=
  decide_eq_true_iff

theorem before_iff {a b : Instant} :
    a.before b = true ↔ a.second < b.second ∨ a.second = b.second ∧ a.nano < b.nano := by
  simp [before]

theorem not_before_iff {a b : Instant} :
    a.before b = false ↔ b.second < a.second ∨ b.second = a.second ∧ b.nano ≤ a.nano := by
  rw [← Bool.not_eq_true, before_iff]
  omega

/-- An instant is its second and its nanosecond. -/
theorem eq_of_parts {a b : Instant} (hs : a.second = b.second) (hn : a.nano = b.nano) : a = b := by
  cases a
  cases b
  cases hs
  cases hn
  rfl

/-- **Instants are in a linear order**, and the earlier of two is their minimum. -/
instance : LinearOrder Instant where
  le_refl t := not_before_iff.mpr (.inr ⟨rfl, Nat.le_refl _⟩)
  le_trans a b c hab hbc := by
    have hab' := not_before_iff.mp hab
    have hbc' := not_before_iff.mp hbc
    exact not_before_iff.mpr (by omega)
  le_antisymm a b hab hba := by
    have hab' := not_before_iff.mp hab
    have hba' := not_before_iff.mp hba
    exact eq_of_parts (by omega) (by omega)
  le_total a b := by
    show b.before a = false ∨ a.before b = false
    rw [not_before_iff, not_before_iff]
    omega
  lt_iff_le_not_ge a b := by
    show a.before b = true ↔ b.before a = false ∧ ¬ a.before b = false
    rw [not_before_iff, not_before_iff, before_iff]
    omega
  min := earlier
  min_def a b := by
    show (if b.before a then b else a) = if b.before a = false then a else b
    cases b.before a <;> rfl
  toDecidableLE := inferInstance

theorem le_of_before {a b : Instant} (h : a.before b = true) : a ≤ b := le_of_lt h

/-- What is no later than something before a third is before it. -/
theorem before_of_not_before {a b c : Instant} (hab : b.before a = false)
    (hbc : b.before c = true) : a.before c = true := by
  have hle : a ≤ b := hab
  exact hle.trans_lt hbc

/-- What is before something no later than a third is before it. -/
theorem before_of_before {a b c : Instant} (hab : a.before b = true)
    (hbc : c.before b = false) : a.before c = true := by
  have hlt : a < b := hab
  exact hlt.trans_le hbc

theorem before_earlier {now a b : Instant} (ha : now.before a = true) (hb : now.before b = true) :
    now.before (a.earlier b) = true := by
  have hlt : now < a := ha
  exact lt_min hlt hb

/-- **An instant moved forward** is the last one there is, or no earlier than it was, and later if it
    was moved by a millisecond or more. -/
theorem plus_cases (t : Instant) (d : Span) :
    t.plus d = last ∨
      (t.plus d).before t = false ∧ (1 ≤ d.millis → t.before (t.plus d) = true) := by
  unfold plus plusMillis
  generalize d.millis = ms
  simp only
  split
  · -- the sum lies in the same leap second
    rename_i h
    obtain ⟨_, hwhole, _⟩ := h
    refine .inr ⟨not_before_iff.mpr (.inr ⟨rfl, Nat.le_add_right ..⟩),
      fun hms => before_iff.mpr (.inr ⟨rfl, ?_⟩)⟩
    show t.nano < t.nano + ms % 1000 * 1000000
    omega
  · rename_i h
    rw [inLeapSecond_iff] at h
    have hnano := t.nano_lt
    split
    · right
      rw [not_before_iff, before_iff]
      simp only
      omega
    · exact .inl rfl

/-- An instant moved forward by a millisecond or more is later than what was no later than it. -/
theorem before_plus {now t : Instant} {d : Span} (hlast : now.before .last = true)
    (ht : t.before now = false) (hd : 1 ≤ d.millis) : now.before (t.plus d) = true := by
  rcases t.plus_cases d with heq | ⟨_, hlater⟩
  · rw [heq]
    exact hlast
  · exact before_of_not_before ht (hlater hd)

/-- What is before an instant is before it when it is moved forward. -/
theorem before_plus_of_before {now t : Instant} (hlast : now.before .last = true)
    (ht : now.before t = true) (d : Span) : now.before (t.plus d) = true := by
  rcases t.plus_cases d with heq | ⟨hle, _⟩
  · rw [heq]
    exact hlast
  · exact before_of_before ht hle

theorem nano_lt_of_ordinary {t : Instant} (h : t.inLeapSecond = false) : t.nano < 1000000000 := by
  simpa [inLeapSecond] using h

/-- Instants outside of leap seconds that are moved forward alike keep their order. -/
theorem plus_le_plus {s t : Instant} (hs : s.inLeapSecond = false) (ht : t.inLeapSecond = false)
    (h : s ≤ t) (d : Span) : s.plus d ≤ t.plus d := by
  have hsnano := nano_lt_of_ordinary hs
  have htnano := nano_lt_of_ordinary ht
  have hle := not_before_iff.mp h
  unfold plus plusMillis
  generalize d.millis = ms
  simp only [hs, ht, Bool.false_eq_true, false_and, dite_false]
  split
  · refine not_before_iff.mpr ?_
    split
    · simp only
      omega
    · simp only [last]
      omega
  · -- the earlier one has come to the end of time, and so has the later one
    rw [dif_neg (by omega)]

/-- The order may turn in a leap second: it ends with the ordinary second that follows, so what is left
    of it is skipped. -/
example : ∃ s t : Instant, s ≤ t ∧ ¬ s.plus (.ofMillis 1000) ≤ t.plus (.ofMillis 1000) :=
  ⟨⟨59, 500000000, by decide, by decide, by decide⟩,
    ⟨59, 1000000000, by decide, by decide, by decide⟩, by decide, by decide⟩

/-- An instant outside of leap seconds goes the further, the more milliseconds it is moved. -/
theorem plus_le_of_millis_le {t : Instant} (ht : t.inLeapSecond = false) {d d' : Span}
    (h : d.millis ≤ d'.millis) : t.plus d ≤ t.plus d' := by
  unfold plus plusMillis
  generalize d.millis = ms at h ⊢
  generalize d'.millis = ms' at h ⊢
  simp only [ht, Bool.false_eq_true, false_and, dite_false]
  split
  · refine not_before_iff.mpr ?_
    split
    · simp only
      omega
    · simp only [last]
      omega
  · rw [dif_neg (by omega)]

theorem le_plus {t : Instant} (h : t ≤ last) (d : Span) : t ≤ t.plus d := by
  rcases t.plus_cases d with heq | ⟨hle, _⟩
  · rw [heq]
    exact h
  · exact hle

/-- No sum goes beyond the last instant, outside of leap seconds. -/
theorem plus_le_last {t : Instant} (ht : t.inLeapSecond = false) (d : Span) : t.plus d ≤ last := by
  unfold plus plusMillis
  generalize d.millis = ms
  simp only [ht, Bool.false_eq_true, false_and, dite_false]
  split
  · refine not_before_iff.mpr ?_
    simp only [last]
    omega
  · exact le_refl _

/-- The nanoseconds from the start of 1970 to an instant. -/
def nanos (t : Instant) : Int := t.second * 1000000000 + (t.nano : Int)

/-- An instant that is so many milliseconds later than another one, or the last one there is. -/
structure Follows (u t : Instant) (ms : Nat) : Prop where
  ordinary : u.inLeapSecond = false
  nanos_eq : u.nanos = min (t.nanos + ms * 1000000) last.nanos

/-- **A sum is exact up to the last instant**, outside of leap seconds. -/
theorem plus_follows {t : Instant} (ht : t.inLeapSecond = false) (d : Span) :
    (t.plus d).Follows t d.millis := by
  have hnano := nano_lt_of_ordinary ht
  unfold plus plusMillis
  generalize d.millis = ms
  simp only [ht, Bool.false_eq_true, false_and, dite_false]
  split
  · refine ⟨decide_eq_false ?_, ?_⟩
    · show ¬ 1000000000 ≤ _ % 1000000000
      omega
    · simp only [nanos, last]
      omega
  · refine ⟨rfl, ?_⟩
    simp only [nanos, last]
    omega

end Instant

namespace Record

variable {r : Record} {now later : Instant}

/-- What has expired stays expired. -/
theorem expired_mono (h : r.isExpiredAt now = true) (hle : now ≤ later) :
    r.isExpiredAt later = true := by
  unfold isExpiredAt at *
  have hlater : later.before now = false := hle
  have hnow : now.before r.expiresAt = false := by simpa using h
  have hexpired : r.expiresAt ≤ later := le_trans (show r.expiresAt ≤ now from hnow) hlater
  rw [show later.before r.expiresAt = false from hexpired]
  rfl

theorem not_expired_iff : r.isExpiredAt now = false ↔ now.before r.expiresAt = true := by
  unfold isExpiredAt
  rw [Bool.not_eq_false']

end Record

end SessionCluster
