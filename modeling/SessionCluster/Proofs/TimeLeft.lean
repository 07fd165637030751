/-
  Time left — sums of instants and spans, and what is left until an instant comes.

  An expiry is a sum, and it is looked at in two ways: whether it has come is a comparison of two
  instants, and how long a copy may be kept is the time that is left until then.  Outside of leap
  seconds all of these are arithmetic on one number, the nanoseconds since 1970
  (`Instant.le_iff_nanos`, `Instant.nanosSince_eq`): a sum is exact up to the last instant, and
  what is left of it is what was added.

  In leap seconds the two ways still agree, but for one case (`Instant.nanosSince_pos_iff`).  A
  leap second counts as a second only within its own day.  So from the leap second that ends a day
  to the first second of the next day, the distance is a second short (`Instant.PassesMidnight`),
  and has the wrong sign if that second is not further on than the leap second was
  (`Instant.Misjudged`).

  * `expiry_times_agree` — the laws of sums, of the time that is left, and of expiry;
  * `leap_second_misjudged` — a record that has not expired, and has no time left;
  * `Instant.plusMillis_word` — milliseconds that a word cannot count make no difference to a sum.
-/
import SessionCluster.Proofs.Instants
import SessionCluster.Proofs.Schedules

namespace SessionCluster

namespace Instant

/-! ## Instants as numbers -/

section

variable {a b t u : Instant}

/-- Outside of leap seconds, instants are in the order of their nanoseconds. -/
theorem le_iff_nanos (ha : a.inLeapSecond = false) (hb : b.inLeapSecond = false) :
    a ≤ b ↔ a.nanos ≤ b.nanos := by
  have hanano := nano_lt_of_ordinary ha
  have hbnano := nano_lt_of_ordinary hb
  constructor
  · intro h
    have hle := not_before_iff.mp h
    unfold nanos
    omega
  · intro h
    unfold nanos at h
    exact not_before_iff.mpr (by omega)

/-- Outside of leap seconds, the nanoseconds say which instant it is. -/
theorem eq_of_nanos (ha : a.inLeapSecond = false) (hb : b.inLeapSecond = false)
    (h : a.nanos = b.nanos) : a = b := by
  have hanano := nano_lt_of_ordinary ha
  have hbnano := nano_lt_of_ordinary hb
  unfold nanos at h
  have hsecond : a.second = b.second := by omega
  have hnano : a.nano = b.nano := by omega
  cases a
  cases b
  cases hsecond
  cases hnano
  rfl

/-- Outside of leap seconds, the last instant is the last. -/
theorem le_last (ht : t.inLeapSecond = false) : t ≤ last := by
  have hnano := nano_lt_of_ordinary ht
  have hsecond := t.second_le
  refine not_before_iff.mpr ?_
  simp only [last]
  omega

/-- Outside of leap seconds, a distance is a difference. -/
theorem nanosSince_eq (ha : a.inLeapSecond = false) (hb : b.inLeapSecond = false) :
    a.nanosSince b = a.nanos - b.nanos := by
  simp only [nanosSince, ha, hb, nanos, Bool.false_eq_true, if_false, ite_self]
  omega

/-! ## Sums -/

/-- Milliseconds beyond a signed word of sixty-four bits make no difference: by then, time has come
    to its end. -/
theorem plusMillis_word (t : Instant) (ms : Nat) :
    t.plusMillis (min ms 9223372036854775807) = t.plusMillis ms := by
  rcases Nat.le_total ms 9223372036854775807 with hle | hle
  · rw [Nat.min_eq_left hle]
  · rw [Nat.min_eq_right hle]
    have hstart := t.second_ge
    have hends (n : Nat) (hn : 9223372036854775807 ≤ n) : t.plusMillis n = last := by
      simp only [plusMillis]
      rw [dif_neg (by omega), dif_neg (by omega)]
    rw [hends _ (Nat.le_refl _), hends _ hle]

/-- An instant that is reached from another one after so many milliseconds, outside of leap
    seconds. -/
structure Comes (u t : Instant) (ms : Nat) : Prop where
  ordinary : u.inLeapSecond = false
  nanos_eq : u.nanos = t.nanos + ms * 1000000

/-- **A sum is the instant that is reached**, if there is one. -/
theorem plus_eq_of_comes (ht : t.inLeapSecond = false) {d : Span} (h : u.Comes t d.millis) :
    t.plus d = u := by
  obtain ⟨hordinary, hnanos⟩ := plus_follows ht d
  have hlast := (le_iff_nanos h.ordinary rfl).mp (le_last h.ordinary)
  refine eq_of_nanos hordinary h.ordinary ?_
  rw [hnanos, h.nanos_eq]
  rw [h.nanos_eq] at hlast
  omega

/-- **A sum is the last instant**, if no instant is reached. -/
theorem plus_eq_last (ht : t.inLeapSecond = false) {d : Span}
    (h : ∀ u : Instant, ¬ u.Comes t d.millis) : t.plus d = last := by
  obtain ⟨hordinary, hnanos⟩ := plus_follows ht d
  refine eq_of_nanos hordinary rfl ?_
  rw [hnanos]
  by_contra hother
  -- the sum falls short of the last instant, so it is itself what is reached
  refine h (t.plus d) ⟨hordinary, ?_⟩
  rw [hnanos]
  omega

/-! ## The time that is left -/

/-- There is time left if the signed distance is positive. -/
theorem remaining_eq_zero_iff (t now : Instant) :
    t.remaining now = .zero ↔ t.nanosSince now ≤ 0 := by
  constructor
  · intro h
    have hnanos : min (t.nanosSince now).toNat 18446744073709551615999999999 = 0 :=
      congrArg Span.nanos h
    omega
  · intro h
    have hzero : (t.nanosSince now).toNat = 0 := by omega
    unfold remaining
    rw [hzero]
    rfl

/-- **What is left of a sum is what was added**, in whole milliseconds. -/
theorem remaining_plus (ht : t.inLeapSecond = false) {d : Span} (h : u.Comes t d.millis) :
    (t.plus d).remaining t = .ofMillis d.millis := by
  have hdistance : u.nanosSince t = (d.millis * 1000000 : Nat) := by
    rw [nanosSince_eq h.ordinary ht, h.nanos_eq]
    omega
  rw [plus_eq_of_comes ht h]
  unfold remaining
  rw [hdistance]
  rfl

/-- From an instant in the leap second that ends a day to one in the first second of the next day. -/
structure PassesMidnight (a b : Instant) : Prop where
  leap : a.inLeapSecond = true
  endsDay : a.secondOfDay = 86399
  next : b.second = a.second + 1

/-- The distance from `b` to `a` is a second short, and this turns its sign: one of the two lies in
    the leap second that ends a day, and the other one no further on in the first second of the next. -/
inductive Misjudged (a b : Instant) : Prop where
  | ahead (h : b.PassesMidnight a) (hle : a.writtenNano ≤ b.writtenNano)
  | behind (h : a.PassesMidnight b) (hlt : b.writtenNano < a.writtenNano)

/-- The same in numbers. -/
theorem misjudged_iff : a.Misjudged b ↔
    (1000000000 ≤ b.nano ∧ b.second % 86400 = 86399 ∧ a.second = b.second + 1 ∧
      a.nano % 1000000000 ≤ b.nano % 1000000000) ∨
    (1000000000 ≤ a.nano ∧ a.second % 86400 = 86399 ∧ b.second = a.second + 1 ∧
      b.nano % 1000000000 < a.nano % 1000000000) := by
  constructor
  · rintro (⟨⟨hleap, hday, hnext⟩, hle⟩ | ⟨⟨hleap, hday, hnext⟩, hlt⟩)
    · exact .inl ⟨inLeapSecond_iff.mp hleap, hday, hnext, hle⟩
    · exact .inr ⟨inLeapSecond_iff.mp hleap, hday, hnext, hlt⟩
  · rintro (⟨hleap, hday, hnext, hle⟩ | ⟨hleap, hday, hnext, hlt⟩)
    · exact .ahead ⟨inLeapSecond_iff.mpr hleap, hday, hnext⟩ hle
    · exact .behind ⟨inLeapSecond_iff.mpr hleap, hday, hnext⟩ hlt

/-- **The sign of a distance is the order of the instants**, leap seconds included, exactly unless it
    is misjudged. -/
theorem nanosSince_pos_iff : (0 < a.nanosSince b ↔ b.before a = true) ↔ ¬ a.Misjudged b := by
  have ha := a.nano_lt
  have hb := b.nano_lt
  rw [misjudged_iff, before_iff]
  simp only [nanosSince, secondOfDay, inLeapSecond_iff]
  -- a leap second counts in the instant that has the lesser second of its day
  split
  · split <;> omega
  · split
    · split <;> omega
    · omega

end

end Instant

namespace Record

/-- **A record has expired when no time is left**, exactly unless the time that is left is
    misjudged. -/
theorem expired_iff_remaining {r : Record} {now : Instant} :
    (r.isExpiredAt now = true ↔ r.expiresAt.remaining now = .zero) ↔
      ¬ r.expiresAt.Misjudged now := by
  have hexpired : r.isExpiredAt now = true ↔ ¬ now.before r.expiresAt = true := by
    simp [isExpiredAt]
  rw [Instant.remaining_eq_zero_iff, ← Int.not_lt, hexpired, not_iff_not]
  exact iff_comm.trans Instant.nanosSince_pos_iff

end Record

open Instant in
/-- **Expiry, sums and the time that is left agree.**  Outside of leap seconds, a sum is no earlier
    than the instant that is added to, and rises with the instant and with the span; it is the
    instant that is reached after the whole milliseconds of the span, and then these are what is
    left of it; or it is the last instant, if none is reached.  And that a record has expired means
    that no time is left until it expires, exactly unless a midnight after a leap second lies between
    and the one instant is no further on behind it than the other one was before. -/
theorem expiry_times_agree :
    (∀ (t : Instant) (d : Span), t.inLeapSecond = false → t ≤ t.plus d) ∧
    (∀ (t₁ t₂ : Instant) (d : Span), t₁.inLeapSecond = false → t₂.inLeapSecond = false →
      t₁ ≤ t₂ → t₁.plus d ≤ t₂.plus d) ∧
    (∀ (t : Instant) (d₁ d₂ : Span), t.inLeapSecond = false → d₁ ≤ d₂ →
      t.plus d₁ ≤ t.plus d₂) ∧
    (∀ (t : Instant) (d : Span), t.inLeapSecond = false →
      (∀ u : Instant, u.Comes t d.millis →
        t.plus d = u ∧ (t.plus d).remaining t = .ofMillis d.millis) ∧
      ((∀ u : Instant, ¬ u.Comes t d.millis) → t.plus d = .last)) ∧
    ∀ (r : Record) (now : Instant),
      (r.isExpiredAt now = true ↔ r.expiresAt.remaining now = .zero) ↔
        ¬ r.expiresAt.Misjudged now := by
  refine ⟨?_, ?_, ?_, ?_, ?_⟩
  · intro t d ht
    exact le_plus (le_last ht) d
  · intro t₁ t₂ d h₁ h₂ hle
    exact plus_le_plus h₁ h₂ hle d
  · intro t d₁ d₂ ht hle
    have hmillis : d₁.millis ≤ d₂.millis := Nat.div_le_div_right hle
    exact plus_le_of_millis_le ht hmillis
  · intro t d ht
    constructor
    · intro u hu
      exact ⟨plus_eq_of_comes ht hu, remaining_plus ht hu⟩
    · intro hnone
      exact plus_eq_last ht hnone
  · intro r now
    exact Record.expired_iff_remaining

namespace Sample

/-- Half a second after a leap second began, the last one of its day. -/
def beforeMidnight : Instant := (Instant.ofParts? 1483228799 1500000000).getD .epoch

/-- A record that lasts until a second of the clock. -/
def lastingUntil (n : Nat) : Record :=
  ⟨key, .null, version 1, settings.node, second 0, second 0, second n⟩

end Sample

open Sample in
/-- A record that is made to last for a second and a half and a little more: that little is not
    counted, and a second later there is half a second left. -/
theorem sample_expiry_times_agree :
    (second 1).plus ⟨1500000999, by decide⟩ = ⟨2, 500000000, by decide, by decide, by decide⟩ ∧
      ((second 1).plus ⟨1500000999, by decide⟩).remaining (second 1) = .ofMillis 1500 ∧
      ((lastingUntil 5).isExpiredAt (second 4) = true ↔
        (lastingUntil 5).expiresAt.remaining (second 4) = .zero) := by
  have hsum := (expiry_times_agree.2.2.2.1 (second 1) ⟨1500000999, by decide⟩ (by decide)).1
    ⟨2, 500000000, by decide, by decide, by decide⟩ ⟨by decide, by decide⟩
  refine ⟨hsum.1, hsum.2, ?_⟩
  refine (expiry_times_agree.2.2.2.2 (lastingUntil 5) (second 4)).mpr ?_
  rintro (⟨⟨hleap, _⟩, _⟩ | ⟨⟨hleap, _⟩, _⟩)
  · exact absurd hleap (by decide)
  · exact absurd hleap (by decide)

open Sample in
/-- **At midnight after a leap second the two ways differ**: half a second before it the record has
    not expired, but no time is left until it does. -/
theorem leap_second_misjudged :
    ¬ ∀ (r : Record) (now : Instant),
      r.isExpiredAt now = true ↔ r.expiresAt.remaining now = .zero := by
  intro h
  have hleft : (lastingUntil 1483228800).expiresAt.remaining beforeMidnight = .zero := by decide
  have hexpired := (h (lastingUntil 1483228800) beforeMidnight).mpr hleft
  exact absurd hexpired (by decide)

end SessionCluster
