/-
  Dates — every day number has a date of the calendar, and the date has the day number.

  A day is found in three steps: its era of four hundred years, its year in the era, and its month in
  the year, each year beginning in March.  What is true of the parts (`Position`) is shown step by step;
  that the calendar has the date, and that it counts back to the day, is then a matter of putting
  them together.
-/
import SessionCluster.Time.Calendar

namespace SessionCluster.Calendar

/-! ## The year of an era -/

/-- The days before a year of an era. -/
def daysBefore (year : Int) : Int := 365 * year + year / 4 - year / 100

/-- A year has a day more than usual if its leap day is there. -/
theorem daysBefore_next (year : Int) :
    daysBefore (year + 1) = daysBefore year + 365 ∨
      daysBefore (year + 1) = daysBefore year + 366 ∧ (year + 1) % 4 = 0 ∧ (year + 1) % 100 ≠ 0 := by
  unfold daysBefore
  have hfour : (year + 1) / 4 = year / 4 ∧ (year + 1) % 4 ≠ 0 ∨
      (year + 1) / 4 = year / 4 + 1 ∧ (year + 1) % 4 = 0 := by omega
  have hhundred : (year + 1) / 100 = year / 100 ∧ (year + 1) % 100 ≠ 0 ∨
      (year + 1) / 100 = year / 100 + 1 ∧ (year + 1) % 100 = 0 := by omega
  omega

/-- The year in which a day of an era lies, for a day of its century with number `c`. -/
theorem year_of_century {d y c : Int} (hc : 0 ≤ c) (hc' : c ≤ 3) (hd : 36524 * c ≤ d)
    (hd' : d < 36524 * (c + 1)) (hy : y = (d - d / 1460 + c) / 365) :
    100 * c ≤ y ∧ y < 100 * (c + 1) ∧ daysBefore y ≤ d ∧ d < daysBefore (y + 1) := by
  unfold daysBefore
  have hlow : 100 * c ≤ y := by omega
  have hhigh : y < 100 * (c + 1) := by omega
  have hcentury : y / 100 = c := by omega
  refine ⟨hlow, hhigh, by omega, ?_⟩
  -- the last year of a century is followed by one that is not in it
  by_cases hlast : y = 100 * c + 99
  · omega
  · have hnext : (y + 1) / 100 = c := by omega
    omega

/-- The year in which a day of an era lies; the last day of the era is the leap day of its last
    year. -/
theorem year_of_era {d y : Int} (hd : 0 ≤ d) (hd' : d ≤ 146096)
    (hy : y = (d - d / 1460 + d / 36524 - d / 146096) / 365) :
    0 ≤ y ∧ y ≤ 399 ∧ daysBefore y ≤ d ∧ (y < 399 → d < daysBefore (y + 1)) := by
  by_cases hlast : d = 146096
  · subst hlast
    subst hy
    decide
  · have hnone : d / 146096 = 0 := by omega
    obtain ⟨hlow, hhigh, hbefore, hafter⟩ := year_of_century (d := d) (y := y) (c := d / 36524)
      (by omega) (by omega) (by omega) (by omega) (by omega)
    exact ⟨by omega, by omega, hbefore, fun _ => hafter⟩

/-! ## The position of a day -/

/-- Where a day lies: its era, the year of the era, the day of the year and the month of the year,
    years beginning in March. -/
structure Position (n era year day month : Int) : Prop where
  /-- The count of the day is put together from the parts. -/
  counts : n + 719468 = era * 146097 + daysBefore year + day
  year_ge : 0 ≤ year
  year_le : year ≤ 399
  day_ge : 0 ≤ day
  /-- Only a year that ends with a leap day has so many days. -/
  day_le : day ≤ 364 ∨ day = 365 ∧ (year + 1) % 4 = 0 ∧ ((year + 1) % 100 ≠ 0 ∨ year = 399)
  month_eq : month = (5 * day + 2) / 153

/-- The date at a position. -/
def dateAt (era year day month : Int) : Date where
  year := year + era * 400 + (if month < 10 then 0 else 1)
  month := (if month < 10 then month + 3 else month - 9).toNat
  day := (day - (153 * month + 2) / 5 + 1).toNat

/-- Every day has its position, and its date is the date there. -/
theorem exists_position (n : Int) :
    ∃ era year day month, Position n era year day month ∧
      ofDayNumber n = dateAt era year day month := by
  -- the day of the era, from the first of March of its first year
  have hera : 0 ≤ n + 719468 - (n + 719468) / 146097 * 146097 ∧
      n + 719468 - (n + 719468) / 146097 * 146097 ≤ 146096 := by omega
  generalize hd : n + 719468 - (n + 719468) / 146097 * 146097 = d at hera
  -- the estimate of the year within the era is never off
  generalize hy : (d - d / 1460 + d / 36524 - d / 146096) / 365 = y
  obtain ⟨hge, hle, hbefore, hafter⟩ := year_of_era hera.1 hera.2 hy.symm
  -- the day of the year is the last only before a leap day
  have hday : d - daysBefore y ≤ 364 ∨
      d - daysBefore y = 365 ∧ (y + 1) % 4 = 0 ∧ ((y + 1) % 100 ≠ 0 ∨ y = 399) := by
    by_cases hlast : y = 399
    · subst hlast
      have hyear : daysBefore 399 = 145731 := by decide
      omega
    · have hnext := daysBefore_next y
      have := hafter (by omega)
      omega
  -- the month, counted from March
  generalize hm : (5 * (d - daysBefore y) + 2) / 153 = m
  have hmonth : 0 ≤ m ∧ m ≤ 11 := by omega
  refine ⟨(n + 719468) / 146097, y, d - daysBefore y, m,
    ⟨by omega, hge, hle, by omega, hday, hm.symm⟩, ?_⟩
  -- January and February belong to the year that follows
  have hspring : (if (if m < 10 then m + 3 else m - 9) ≤ 2 then (1 : Int) else 0) =
      if m < 10 then 0 else 1 := by
    split <;> split <;> omega
  have hm' : (5 * (d - (365 * y + y / 4 - y / 100)) + 2) / 153 = m := hm
  unfold ofDayNumber dateAt
  simp only [hd, hy, hm', hspring]
  rfl

namespace Position

variable {n era year day month : Int} (h : Position n era year day month)

include h

/-- **The date counts back to the day.** -/
theorem dayNumber_eq : dayNumber (dateAt era year day month) = n := by
  obtain ⟨hcounts, hge, hle, hday, hlast, hmonth⟩ := h
  unfold daysBefore at hcounts
  unfold dayNumber dateAt
  simp only
  split <;> split <;> omega

theorem month_range : 0 ≤ month ∧ month ≤ 11 := by
  obtain ⟨-, -, -, hday, hlast, hmonth⟩ := h
  omega

/-- The last day of a long year lies in a leap year of the calendar. -/
theorem isLeap_of_last (hlast : day = 365) : isLeap (year + era * 400 + 1) = true := by
  have hleap := h.day_le.resolve_left (by omega)
  unfold isLeap
  simp only [Bool.and_eq_true, Bool.or_eq_true, beq_iff_eq, bne_iff_ne]
  omega

/-- **The calendar has the date.** -/
theorem isValid_dateAt : (dateAt era year day month).isValid = true := by
  have hday := h.day_ge
  have hlast := h.day_le
  have hmonth := h.month_eq
  -- month by month, counted from March, so that the last of all is February
  have hcases : month = 0 ∨ month = 1 ∨ month = 2 ∨ month = 3 ∨ month = 4 ∨ month = 5 ∨ month = 6 ∨
      month = 7 ∨ month = 8 ∨ month = 9 ∨ month = 10 ∨ month = 11 := by
    have := h.month_range
    omega
  have hfrom : ∀ {d : Date}, 1 ≤ d.day → d.day ≤ daysInMonth d.year d.month → d.isValid = true :=
    fun hone hmost => Bool.and_eq_true_iff.mpr ⟨decide_eq_true hone, decide_eq_true hmost⟩
  have hone : 1 ≤ (day - (153 * month + 2) / 5 + 1).toNat := by omega
  refine hfrom hone ?_
  rcases hcases with rfl | rfl | rfl | rfl | rfl | rfl | rfl | rfl | rfl | rfl | rfl | rfl
  · show (day - (153 * 0 + 2) / 5 + 1).toNat ≤ 31
    omega
  · show (day - (153 * 1 + 2) / 5 + 1).toNat ≤ 30
    omega
  · show (day - (153 * 2 + 2) / 5 + 1).toNat ≤ 31
    omega
  · show (day - (153 * 3 + 2) / 5 + 1).toNat ≤ 30
    omega
  · show (day - (153 * 4 + 2) / 5 + 1).toNat ≤ 31
    omega
  · show (day - (153 * 5 + 2) / 5 + 1).toNat ≤ 31
    omega
  · show (day - (153 * 6 + 2) / 5 + 1).toNat ≤ 30
    omega
  · show (day - (153 * 7 + 2) / 5 + 1).toNat ≤ 31
    omega
  · show (day - (153 * 8 + 2) / 5 + 1).toNat ≤ 30
    omega
  · show (day - (153 * 9 + 2) / 5 + 1).toNat ≤ 31
    omega
  · show (day - (153 * 10 + 2) / 5 + 1).toNat ≤ 31
    omega
  · show (day - (153 * 11 + 2) / 5 + 1).toNat ≤ if isLeap (year + era * 400 + 1) then 29 else 28
    -- a last day of February beyond the others is that of a leap year
    by_cases hlong : day = 365
    · rw [if_pos (h.isLeap_of_last hlong)]
      omega
    · split <;> omega

theorem month_dateAt : (dateAt era year day month).month < 100 := by
  have := h.month_range
  show (if month < 10 then month + 3 else month - 9).toNat < 100
  split <;> omega

theorem day_dateAt : (dateAt era year day month).day < 100 := by
  obtain ⟨-, -, -, hday, hlast, hmonth⟩ := h
  show (day - (153 * month + 2) / 5 + 1).toNat < 100
  omega

/-- The years of the instants that there are. -/
theorem year_range (hn : -96465292 ≤ n) (hn' : n ≤ 95026236) :
    -262143 ≤ (dateAt era year day month).year ∧ (dateAt era year day month).year ≤ 262142 := by
  obtain ⟨hcounts, hge, hle, hday, hlast, hmonth⟩ := h
  unfold daysBefore at hcounts
  show -262143 ≤ year + era * 400 + (if month < 10 then 0 else 1) ∧
    year + era * 400 + (if month < 10 then 0 else 1) ≤ 262142
  have hera : -656 ≤ era ∧ era ≤ 655 := by omega
  constructor
  · by_cases hfirst : era = -656
    · subst hfirst
      split <;> omega
    · split <;> omega
  · by_cases hend : era = 655
    · subst hend
      split <;> omega
    · split <;> omega

end Position

end SessionCluster.Calendar
