/-
  Written instants — the text of an instant is read as that instant.

  The reader takes the text from the front, number by number, so each part of the text has a lemma that
  says what is read from it and what is left.  What is left to show is arithmetic: the date and the time
  of day make up the second, and a second of sixty the leap second.

  A leap second has a text of its own only at the end of a minute (`Instant.Writable`); anywhere else its
  text is that of the following ordinary second.  This is all that a text can lose:

  * `read_text` — an instant that is writable is read back;
  * `writable_of_read` — whatever text an instant was read from, it is writable.
-/
import SessionCluster.Proofs.Dates
import SessionCluster.Proofs.Digits
import SessionCluster.Proofs.Instants
import SessionCluster.Time.Rfc3339

namespace SessionCluster

/-- Whether a text has room for an instant: a leap second has to be the last of its minute. -/
def Instant.Writable (t : Instant) : Prop := t.inLeapSecond = true → t.second % 60 = 59

namespace Rfc3339

/-! ## Numbers -/

/-- Whether a text does not go on with a digit. -/
def Stops (rest : List Char) : Prop := ∀ c ∈ rest.head?, Text.isDigit c = false

theorem takeWhile_stops {rest : List Char} (h : Stops rest) : rest.takeWhile Text.isDigit = [] := by
  cases rest with
  | nil => rfl
  | cons c rest => exact List.takeWhile_cons_of_neg (by rw [h c rfl]; decide)

theorem dropWhile_stops {rest : List Char} (h : Stops rest) : rest.dropWhile Text.isDigit = rest := by
  cases rest with
  | nil => rfl
  | cons c rest => exact List.dropWhile_cons_of_neg (by rw [h c rfl]; decide)

theorem not_isBlank_of_isDigit {c : Char} (h : Text.isDigit c = true) : Text.isBlank c = false := by
  obtain ⟨hlow, hhigh⟩ := Bool.and_eq_true_iff.mp h
  have hlow' : 48 ≤ c.toNat := of_decide_eq_true hlow
  have hhigh' : c.toNat ≤ 57 := of_decide_eq_true hhigh
  simp only [Text.isBlank, Bool.or_eq_false_iff, Bool.and_eq_false_iff, beq_eq_false_iff_ne,
    decide_eq_false_iff_not]
  omega

section

variable {ds rest : List Char} (hdigits : ∀ c ∈ ds, Text.isDigit c = true)

include hdigits

/-- A run of digits is read as a number of at most so many digits. -/
theorem number_digits {most : Nat} (hne : ds ≠ []) (hle : ds.length ≤ most)
    (hstop : ds.length = most ∨ Stops rest) :
    number? most (ds ++ rest) = some (Text.ofDigits 0 ds, rest) := by
  have hrest : (rest.take (most - ds.length)).takeWhile Text.isDigit = [] := by
    rcases hstop with hfull | hstop
    · rw [hfull, Nat.sub_self]
      rfl
    · refine takeWhile_stops fun c hc => hstop c ?_
      cases rest with
      | nil => rw [List.take_nil] at hc; exact hc
      | cons d rest =>
        cases hk : most - ds.length with
        | zero => rw [hk] at hc; cases hc
        | succ k => rw [hk] at hc; exact hc
  have htake : ((ds ++ rest).take most).takeWhile Text.isDigit = ds := by
    rw [List.take_append, List.take_of_length_le hle, List.takeWhile_append_of_pos hdigits, hrest,
      List.append_nil]
  unfold number?
  simp only [htake]
  rw [if_neg (by simpa using hne), List.drop_left]

/-- A run of digits is read as a number. -/
theorem longNumber_digits (hne : ds ≠ []) (hstop : Stops rest) :
    longNumber? (ds ++ rest) = some (Text.ofDigits 0 ds, rest) := by
  have htake : (ds ++ rest).takeWhile Text.isDigit = ds := by
    rw [List.takeWhile_append_of_pos hdigits, takeWhile_stops hstop, List.append_nil]
  unfold longNumber?
  simp only [htake]
  rw [if_neg (by simpa using hne), List.drop_left]

/-- There are no blanks before digits. -/
theorem dropBlanks_digits (hne : ds ≠ []) : Text.dropBlanks (ds ++ rest) = ds ++ rest := by
  cases ds with
  | nil => exact absurd rfl hne
  | cons c ds =>
    have hc : Text.isBlank c = false := not_isBlank_of_isDigit (hdigits c (List.mem_cons_self ..))
    exact List.dropWhile_cons_of_neg (by rw [hc]; decide)

end

/-- A padded number of two digits is read as the number. -/
theorem twoDigits_padded {n : Nat} (h : n < 100) (rest : List Char) :
    twoDigits? ((Text.padded 2 n).toList ++ rest) = some (n, rest) := by
  have hdigits : ∀ c ∈ (Text.padded 2 n).toList, Text.isDigit c = true := fun _ =>
    Text.isDigit_of_mem_padded
  have hlength : (Text.padded 2 n).toList.length = 2 := Text.length_padded (by decide) h
  unfold twoDigits?
  rw [dropBlanks_digits hdigits (Text.padded_ne_nil 2 n),
    number_digits hdigits (Text.padded_ne_nil 2 n) (by omega) (.inl hlength), Text.ofDigits_padded]

theorem mark_cons {c : Char} (h : Text.isBlank c = false) (rest : List Char) :
    mark? c (c :: rest) = some rest := by
  have hdrop : Text.dropBlanks (c :: rest) = c :: rest :=
    List.dropWhile_cons_of_neg (by rw [h]; decide)
  unfold mark?
  rw [hdrop]
  exact if_pos rfl

/-! ## Years -/

/-- A year that begins with a digit has no sign. -/
theorem year_unsigned {ds rest : List Char} (hdigits : ∀ c ∈ ds, Text.isDigit c = true)
    (hne : ds ≠ []) :
    year? (ds ++ rest) = (number? 4 (ds ++ rest)).map fun (n, r) => ((n : Int), r) := by
  cases ds with
  | nil => exact absurd rfl hne
  | cons c ds =>
    have hc : Text.isDigit c = true := hdigits c (List.mem_cons_self ..)
    unfold year?
    split
    · rename_i r heq
      cases heq
      cases hc
    · rename_i r heq
      cases heq
      cases hc
    · rfl

theorem year_minus (rest : List Char) :
    year? ('-' :: rest) = (longNumber? rest).map fun (n, r) => (-(n : Int), r) := rfl

theorem year_plus (rest : List Char) :
    year? ('+' :: rest) = (longNumber? rest).map fun (n, r) => ((n : Int), r) := rfl

/-- The text of a year is read as the year. -/
theorem year_yearText (year : Int) {rest : List Char} (hstop : Stops rest) :
    year? ((yearText year).toList ++ rest) = some (year, rest) := by
  have hdigits : ∀ {n : Nat}, ∀ c ∈ (Text.padded 4 n).toList, Text.isDigit c = true := fun _ =>
    Text.isDigit_of_mem_padded
  have hlong : longNumber? ((Text.padded 4 year.natAbs).toList ++ rest) =
      some (year.natAbs, rest) := by
    rw [longNumber_digits hdigits (Text.padded_ne_nil 4 _) hstop, Text.ofDigits_padded]
  unfold yearText
  split
  · -- four digits
    have hlength : (Text.padded 4 year.toNat).toList.length = 4 :=
      Text.length_padded (by decide) (by omega)
    rw [year_unsigned hdigits (Text.padded_ne_nil 4 _),
      number_digits hdigits (Text.padded_ne_nil 4 _) (Nat.le_of_eq hlength) (.inl hlength),
      Text.ofDigits_padded]
    exact congrArg (fun y : Int => some (y, rest)) (show (year.toNat : Int) = year by omega)
  · rw [String.toList_append, List.append_assoc]
    split
    · have hminus : "-".toList = ['-'] := rfl
      rw [hminus, List.cons_append, List.nil_append, year_minus, hlong]
      exact congrArg (fun y : Int => some (y, rest)) (show -(year.natAbs : Int) = year by omega)
    · have hplus : "+".toList = ['+'] := rfl
      rw [hplus, List.cons_append, List.nil_append, year_plus, hlong]
      exact congrArg (fun y : Int => some (y, rest)) (show (year.natAbs : Int) = year by omega)

/-! ## Fractions -/

/-- A fraction of so many digits is read in nanoseconds. -/
theorem fraction_digits {width n : Nat} (hw : 0 < width) (hw' : width ≤ 9) (hn : n < 10 ^ width)
    {rest : List Char} (hstop : Stops rest) :
    fraction? ('.' :: ((Text.padded width n).toList ++ rest)) =
      some (n * Nat.pow 10 (9 - width), rest) := by
  have hdigits : ∀ c ∈ (Text.padded width n).toList, Text.isDigit c = true := fun _ =>
    Text.isDigit_of_mem_padded
  have hlength := Text.length_padded hw hn
  have hread : number? 9 ((Text.padded width n).toList ++ rest) = some (n, rest) := by
    rw [number_digits hdigits (Text.padded_ne_nil width n) (by omega) (.inr hstop),
      Text.ofDigits_padded]
  show ((number? 9 ((Text.padded width n).toList ++ rest)).bind fun x =>
    some (x.1 * Nat.pow 10 (9 - (((Text.padded width n).toList ++ rest).length - x.2.length)),
      x.2.dropWhile Text.isDigit)) = _
  rw [hread]
  show some (n * Nat.pow 10 (9 - (((Text.padded width n).toList ++ rest).length - rest.length)),
    rest.dropWhile Text.isDigit) = _
  rw [dropWhile_stops hstop, List.length_append, hlength, Nat.add_sub_cancel]

/-- The text of a fraction is read as the fraction. -/
theorem fraction_fractionText {nano : Nat} (hnano : nano < 1000000000) {rest : List Char}
    (hstop : Stops rest) (hpoint : '.' ∉ rest.head?) :
    fraction? ((fractionText nano).toList ++ rest) = some (nano, rest) := by
  have hmark : ∀ s : String, ("." ++ s).toList ++ rest = '.' :: (s.toList ++ rest) := by
    intro s
    rw [String.toList_append, List.append_assoc]
    rfl
  -- each of the three widths scales the digits up to the same fraction
  have hfrom : ∀ {width n : Nat}, 0 < width → width ≤ 9 → n < 10 ^ width →
      n * Nat.pow 10 (9 - width) = nano →
      fraction? (("." ++ Text.padded width n).toList ++ rest) = some (nano, rest) := by
    intro width n hw hw' hn hscaled
    rw [hmark, fraction_digits hw hw' hn hstop, hscaled]
  unfold fractionText
  -- no fraction: nothing is written, and what follows does not begin with a point
  split
  · rename_i h
    subst h
    show fraction? rest = _
    unfold fraction?
    split
    · exact absurd rfl hpoint
    · rfl
  split
  · -- milliseconds are enough
    refine hfrom (by decide) (by decide) (by omega) ?_
    show nano / 1000000 * 1000000 = nano
    omega
  split
  · -- microseconds are enough
    refine hfrom (by decide) (by decide) (by omega) ?_
    show nano / 1000 * 1000 = nano
    omega
  · exact hfrom (by decide) (by decide) (by omega) (Nat.mul_one nano)

/-! ## Instants -/

theorem not_point_zone : '.' ∉ ['Z'].head? := by decide

theorem stops_cons {c : Char} (h : Text.isDigit c = false) (rest : List Char) :
    Stops (c :: rest) := fun d hd => by
  obtain rfl := Option.some.inj hd
  exact h

/-- There are no blanks before a year. -/
theorem dropBlanks_yearText (year : Int) (rest : List Char) :
    Text.dropBlanks ((yearText year).toList ++ rest) = (yearText year).toList ++ rest := by
  unfold yearText
  split
  · exact dropBlanks_digits (fun _ => Text.isDigit_of_mem_padded) (Text.padded_ne_nil 4 _)
  · rw [String.toList_append, List.append_assoc]
    split <;> rfl

/-- The text of an instant, part by part. -/
theorem toList_text (t : Instant) :
    (text t).toList =
      (yearText (Calendar.ofDayNumber (t.second / 86400)).year).toList ++ '-' ::
      ((Text.padded 2 (Calendar.ofDayNumber (t.second / 86400)).month).toList ++ '-' ::
      ((Text.padded 2 (Calendar.ofDayNumber (t.second / 86400)).day).toList ++ 'T' ::
      ((Text.padded 2 (t.secondOfDay.toNat / 3600)).toList ++ ':' ::
      ((Text.padded 2 (t.secondOfDay.toNat / 60 % 60)).toList ++ ':' ::
      ((Text.padded 2 t.writtenSecond).toList ++ ((fractionText t.writtenNano).toList ++ ['Z'])))))) := by
  have hdash : "-".toList = ['-'] := rfl
  have hcolon : ":".toList = [':'] := rfl
  have htime : "T".toList = ['T'] := rfl
  have hzone : "Z".toList = ['Z'] := rfl
  unfold text localText
  simp only [String.toList_append, hdash, hcolon, htime, hzone, List.append_assoc,
    List.cons_append, List.nil_append]

/-- The date and the time of day of an instant, as they are written, make up the instant. -/
theorem instant_written {t : Instant} (h : t.Writable) :
    instant? (Calendar.ofDayNumber (t.second / 86400)) (t.secondOfDay.toNat / 3600)
      (t.secondOfDay.toNat / 60 % 60) t.writtenSecond t.writtenNano 0 = some t := by
  obtain ⟨era, year, day, month, hposition, hdate⟩ := Calendar.exists_position (t.second / 86400)
  have hge := t.second_ge
  have hle := t.second_le
  have hnano := t.nano_lt
  have hleap : 1000000000 ≤ t.nano → t.second % 60 = 59 := fun hin =>
    h (Instant.inLeapSecond_iff.mpr hin)
  obtain ⟨hfirst, hlast⟩ := hposition.year_range (by omega) (by omega)
  have hday : t.secondOfDay = t.second % 86400 := rfl
  have hsecond : t.writtenSecond = (t.second % 60).toNat + t.nano / 1000000000 := rfl
  have hwritten : t.writtenNano = t.nano % 1000000000 := rfl
  rw [hdate]
  unfold instant?
  rw [if_pos (by
    simp only [Bool.and_eq_true, decide_eq_true_eq]
    exact ⟨⟨⟨⟨⟨⟨hposition.isValid_dateAt, hfirst⟩, hlast⟩, by omega⟩, by omega⟩, by omega⟩,
      by decide⟩)]
  simp only [hposition.dayNumber_eq]
  -- a second of sixty is written exactly in a leap second
  rw [← Instant.ofParts?_self t]
  by_cases hin : 1000000000 ≤ t.nano
  · have hsixty : t.writtenSecond = 60 := by
      have := hleap hin
      omega
    rw [if_pos hsixty, if_pos hsixty]
    congr 1 <;> omega
  · have hsixty : t.writtenSecond ≠ 60 := by omega
    rw [if_neg hsixty, if_neg hsixty]
    congr 1 <;> omega

/-- **The text of a writable instant is read as the instant.** -/
theorem read_text {t : Instant} (h : t.Writable) : read? (text t) = some t := by
  -- the date of a day has two digits for its month, and two for its day
  obtain ⟨era, year, day, month, hposition, hdate⟩ := Calendar.exists_position (t.second / 86400)
  have hmonth : (Calendar.ofDayNumber (t.second / 86400)).month < 100 := by
    rw [hdate]
    exact hposition.month_dateAt
  have hday : (Calendar.ofDayNumber (t.second / 86400)).day < 100 := by
    rw [hdate]
    exact hposition.day_dateAt
  -- the parts of the second: a leap second writes its excess there, as second sixty
  have hnano := t.nano_lt
  have hsecondOfDay : t.secondOfDay = t.second % 86400 := rfl
  have hsecond : t.writtenSecond = (t.second % 60).toNat + t.nano / 1000000000 := rfl
  have hwritten : t.writtenNano = t.nano % 1000000000 := rfl
  have hdash : ∀ rest, mark? '-' ('-' :: rest) = some rest := mark_cons rfl
  have hcolon : ∀ rest, mark? ':' (':' :: rest) = some rest := mark_cons rfl
  have hhour : t.secondOfDay.toNat / 3600 < 100 := by omega
  have hminute : t.secondOfDay.toNat / 60 % 60 < 100 := by omega
  have hseconds : t.writtenSecond < 100 := by omega
  have hfraction := fraction_fractionText (show t.writtenNano < 1000000000 by omega)
    (stops_cons rfl []) not_point_zone
  -- field by field, each up to the mark behind it, and then all at once
  unfold read?
  rw [toList_text, dropBlanks_yearText, year_yearText _ (stops_cons rfl _)]
  simp only [Option.bind_eq_bind, Option.bind_some, hdash, hcolon, twoDigits_padded hmonth,
    twoDigits_padded hday, twoDigits_padded hhour, twoDigits_padded hminute,
    twoDigits_padded hseconds, hfraction]
  exact instant_written h

/-! ## Instants that were read -/

/-- A number of at most so many digits. -/
theorem number_lt {most n : Nat} {cs rest : List Char} (h : number? most cs = some (n, rest)) :
    n < 10 ^ (cs.length - rest.length) ∧ cs.length - rest.length ≤ most := by
  have hdigits : ∀ c ∈ (cs.take most).takeWhile Text.isDigit, Text.isDigit c = true :=
    List.all_eq_true.mp List.all_takeWhile
  have hlength := (List.takeWhile_sublist (p := Text.isDigit) (l := cs.take most)).length_le
  have hlt := Text.ofDigits_lt hdigits 0
  rw [List.length_take] at hlength
  unfold number? at h
  dsimp only at h
  split at h
  · cases h
  · obtain ⟨rfl, rfl⟩ := Prod.mk.inj (Option.some.inj h)
    have hwidth : cs.length - (cs.drop ((cs.take most).takeWhile Text.isDigit).length).length =
        ((cs.take most).takeWhile Text.isDigit).length := by
      rw [List.length_drop]
      omega
    rw [hwidth]
    omega

/-- A fraction is less than a second. -/
theorem fraction_lt {cs rest : List Char} {nano : Nat} (h : fraction? cs = some (nano, rest)) :
    nano < 1000000000 := by
  unfold fraction? at h
  split at h
  · rename_i r
    cases hnumber : number? 9 r with
    | none =>
      rw [hnumber] at h
      cases h
    | some x =>
      obtain ⟨n, after⟩ := x
      rw [hnumber] at h
      obtain ⟨rfl, -⟩ := Prod.mk.inj (Option.some.inj h)
      obtain ⟨hlt, hle⟩ := number_lt hnumber
      show n * 10 ^ (9 - (r.length - after.length)) < 1000000000
      calc n * 10 ^ (9 - (r.length - after.length))
          < 10 ^ (r.length - after.length) * 10 ^ (9 - (r.length - after.length)) :=
            Nat.mul_lt_mul_of_pos_right hlt (Nat.pow_pos (by decide))
        _ = 1000000000 := by
            rw [← Nat.pow_add, Nat.add_sub_of_le hle]
  · obtain ⟨rfl, -⟩ := Prod.mk.inj (Option.some.inj h)
    decide

/-- An offset is a number of minutes. -/
theorem offset_minutes {cs rest : List Char} {o : Int} (h : offset? cs = some (o, rest)) :
    o % 60 = 0 := by
  -- what follows the sign
  have hsigned {sign : Int} (hsign : sign = 1 ∨ sign = -1) {r : List Char}
      (h : ((digitPair? r).bind fun (hours, r) =>
        (digitPair? (r.dropWhile fun c => c == ':' || Text.isBlank c)).bind fun (minutes, r) =>
          if 60 ≤ minutes then none
          else some (sign * (hours * 3600 + minutes * 60 : Nat), r)) = some (o, rest)) :
      o % 60 = 0 := by
    obtain ⟨⟨hours, r'⟩, -, h⟩ := Option.bind_eq_some_iff.mp h
    obtain ⟨⟨minutes, r''⟩, -, h⟩ := Option.bind_eq_some_iff.mp h
    dsimp only at h
    split at h
    · cases h
    · obtain ⟨rfl, -⟩ := Prod.mk.inj (Option.some.inj h)
      rcases hsign with rfl | rfl <;> omega
  unfold offset? at h
  dsimp only at h
  split at h
  · exact hsigned (.inl rfl) h
  · exact hsigned (.inr rfl) h
  · exact hsigned (.inr rfl) h
  · cases h

/-- So is a zone. -/
theorem zone_minutes {cs rest : List Char} {o : Int} (h : zone? cs = some (o, rest)) :
    o % 60 = 0 := by
  have hmark {cs : List Char} (h : zone?.zoneMark? cs = some (o, rest)) : o % 60 = 0 := by
    unfold zone?.zoneMark? at h
    split at h
    · obtain ⟨rfl, -⟩ := Prod.mk.inj (Option.some.inj h)
      rfl
    · obtain ⟨rfl, -⟩ := Prod.mk.inj (Option.some.inj h)
      rfl
    · exact offset_minutes h
  unfold zone? at h
  split at h
  · split at h
    · obtain ⟨rfl, -⟩ := Prod.mk.inj (Option.some.inj h)
      rfl
    · exact hmark h
  · exact hmark h

/-- A date and a time of day at an offset of whole minutes make up a writable instant. -/
theorem writable_of_instant {date : Calendar.Date} {hour minute second nano : Nat} {o : Int}
    {t : Instant} (hnano : nano < 1000000000) (ho : o % 60 = 0)
    (h : instant? date hour minute second nano o = some t) : t.Writable := by
  unfold instant? at h
  split at h
  · obtain ⟨hsecond, hnano'⟩ := Instant.parts_of_ofParts h
    intro hleap
    have hin := Instant.inLeapSecond_iff.mp hleap
    -- only a second of sixty makes a leap second, and it comes after the fifty-ninth
    by_cases hsixty : second = 60
    · rw [if_pos hsixty] at hsecond
      omega
    · rw [if_neg hsixty] at hnano'
      omega
  · cases h

/-- **Whatever text an instant was read from, it is writable.** -/
theorem writable_of_read {s : String} {t : Instant} (h : read? s = some t) : t.Writable := by
  -- the time of day, and what comes behind it
  have htime {date : Calendar.Date} {r : List Char}
      (h : ((twoDigits? r).bind fun hour => (mark? ':' hour.2).bind fun r =>
        (twoDigits? r).bind fun minute => (mark? ':' minute.2).bind fun r =>
        (twoDigits? r).bind fun second => (fraction? second.2).bind fun nano =>
        (zone? (Text.dropBlanks nano.2)).bind fun offset =>
          if (Text.dropBlanks offset.2).isEmpty then
            instant? date hour.1 minute.1 second.1 nano.1 offset.1
          else none) = some t) : t.Writable := by
    obtain ⟨⟨hour, _⟩, -, h⟩ := Option.bind_eq_some_iff.mp h
    obtain ⟨_, -, h⟩ := Option.bind_eq_some_iff.mp h
    obtain ⟨⟨minute, _⟩, -, h⟩ := Option.bind_eq_some_iff.mp h
    obtain ⟨_, -, h⟩ := Option.bind_eq_some_iff.mp h
    obtain ⟨⟨second, _⟩, -, h⟩ := Option.bind_eq_some_iff.mp h
    obtain ⟨⟨nano, _⟩, hfraction, h⟩ := Option.bind_eq_some_iff.mp h
    obtain ⟨⟨offset, _⟩, hzone, h⟩ := Option.bind_eq_some_iff.mp h
    dsimp only at h
    split at h
    · exact writable_of_instant (fraction_lt hfraction) (zone_minutes hzone) h
    · cases h
  unfold read? at h
  obtain ⟨⟨year, _⟩, -, h⟩ := Option.bind_eq_some_iff.mp h
  obtain ⟨_, -, h⟩ := Option.bind_eq_some_iff.mp h
  obtain ⟨⟨month, _⟩, -, h⟩ := Option.bind_eq_some_iff.mp h
  obtain ⟨_, -, h⟩ := Option.bind_eq_some_iff.mp h
  obtain ⟨⟨day, _⟩, -, h⟩ := Option.bind_eq_some_iff.mp h
  dsimp only at h
  split at h
  · exact htime h
  · exact htime h
  · exact htime h
  · cases h

end Rfc3339

end SessionCluster
