/-
  The written form of instants, after RFC 3339.

  Writing: `YYYY-MM-DDTHH:MM:SS`, a fraction of three, six or nine digits (the fewest that lose
  nothing, none at all on a whole second), and the zone, which is always UTC and is spelled `Z`
  in stored records and events and `+00:00` in gateway answers.  A year outside 0 … 9999 carries
  its sign.  A leap second is written as second sixty.

  Reading is more generous.  Blanks may stand before each number, before each `-` and `:` of the
  date and the time, and around the zone; month, day, hour, minute and second may have one digit;
  the date ends at a `T`, a `t` or a blank; a fraction may have any number of digits, of which
  nine count; a signed year may have any number of digits.  The zone is `Z`, `UTC` or an offset
  of hours and minutes.  `read?` answers nothing for a text that names no instant in range.
-/
import SessionCluster.Text.Blank
import SessionCluster.Time.Calendar
import SessionCluster.Time.Instant

namespace SessionCluster.Rfc3339

/-! ## Writing -/

/-- A year: four digits, or a sign and at least four digits outside 0 … 9999. -/
def yearText (year : Int) : String :=
  if 0 ≤ year ∧ year ≤ 9999 then Text.padded 4 year.toNat
  else (if year < 0 then "-" else "+") ++ Text.padded 4 year.natAbs

/-- A fraction of a second in three, six or nine digits, whichever is the fewest that is exact. -/
def fractionText (nano : Nat) : String :=
  if nano = 0 then ""
  else if nano % 1000000 = 0 then "." ++ Text.padded 3 (nano / 1000000)
  else if nano % 1000 = 0 then "." ++ Text.padded 6 (nano / 1000)
  else "." ++ Text.padded 9 nano

/-- Date and time of an instant, without a zone. -/
def localText (t : Instant) : String :=
  let date := Calendar.ofDayNumber (t.second / 86400)
  let s := t.secondOfDay.toNat
  yearText date.year ++ "-" ++ Text.padded 2 date.month ++ "-" ++ Text.padded 2 date.day ++ "T" ++
    Text.padded 2 (s / 3600) ++ ":" ++ Text.padded 2 (s / 60 % 60) ++ ":" ++
    Text.padded 2 t.writtenSecond ++ fractionText t.writtenNano

/-- The form of records and events, with the zone `Z`. -/
def text (t : Instant) : String := localText t ++ "Z"

/-- The form of gateway answers, with the zone `+00:00`. -/
def offsetText (t : Instant) : String := localText t ++ "+00:00"

/-! ## Reading -/

/-- A number of one up to `most` digits, with what follows it. -/
def number? (most : Nat) (cs : List Char) : Option (Nat × List Char) :=
  let ds := (cs.take most).takeWhile Text.isDigit
  if ds.isEmpty then none else some (Text.ofDigits 0 ds, cs.drop ds.length)

/-- A number of all the digits that stand there, with what follows it. -/
def longNumber? (cs : List Char) : Option (Nat × List Char) :=
  let ds := cs.takeWhile Text.isDigit
  if ds.isEmpty then none else some (Text.ofDigits 0 ds, cs.drop ds.length)

/-- A year: up to four digits, or a sign and any number of digits. -/
def year? (cs : List Char) : Option (Int × List Char) :=
  match cs with
  | '-' :: r => (longNumber? r).map fun (n, r) => (-(n : Int), r)
  | '+' :: r => (longNumber? r).map fun (n, r) => ((n : Int), r)
  | _ => (number? 4 cs).map fun (n, r) => ((n : Int), r)

/-- One or two digits after optional blanks. -/
def twoDigits? (cs : List Char) : Option (Nat × List Char) :=
  number? 2 (Text.dropBlanks cs)

/-- A mark after optional blanks. -/
def mark? (c : Char) (cs : List Char) : Option (List Char) :=
  match Text.dropBlanks cs with
  | d :: r => if d = c then some r else none
  | [] => none

/-- An optional fraction, in nanoseconds; digits beyond the ninth are passed over. -/
def fraction? (cs : List Char) : Option (Nat × List Char) :=
  match cs with
  | '.' :: r => do
    let (n, after) ← number? 9 r
    let width := r.length - after.length
    some (n * Nat.pow 10 (9 - width), after.dropWhile Text.isDigit)
  | _ => some (0, cs)

/-- The two digits at the front of an offset. -/
def digitPair? (cs : List Char) : Option (Nat × List Char) :=
  match cs with
  | a :: b :: r =>
    if Text.isDigit a && Text.isDigit b then some (Text.digitValue a * 10 + Text.digitValue b, r)
    else none
  | _ => none

/-- An offset in seconds east of UTC: hours, optional colons or blanks, minutes below sixty. -/
def offset? (cs : List Char) : Option (Int × List Char) := do
  let (sign, r) ← match cs with
    | '+' :: r => some ((1 : Int), r)
    | '-' :: r => some (-1, r)
    | '−' :: r => some (-1, r)
    | _ => none
  let (hours, r) ← digitPair? r
  let (minutes, r) ← digitPair? (r.dropWhile fun c => c == ':' || Text.isBlank c)
  if 60 ≤ minutes then none else some (sign * (hours * 3600 + minutes * 60 : Nat), r)

/-- A zone as seconds east of UTC: `Z`, `UTC` in any case, or an offset. -/
def zone? (cs : List Char) : Option (Int × List Char) :=
  match cs with
  | u :: t :: c :: r =>
    if u.toUpper = 'U' ∧ t.toUpper = 'T' ∧ c.toUpper = 'C' then some (0, r) else zoneMark? cs
  | _ => zoneMark? cs
where
  /-- A zone that is no `UTC`. -/
  zoneMark? (cs : List Char) : Option (Int × List Char) :=
    match cs with
    | 'Z' :: r => some (0, r)
    | 'z' :: r => some (0, r)
    | _ => offset? cs

/-- The instant of a calendar date and a time of day at an offset.  A second of sixty is the leap
second of its minute. -/
def instant? (date : Calendar.Date) (hour minute second nano : Nat) (offset : Int) :
    Option Instant :=
  if date.isValid && -262143 ≤ date.year && date.year ≤ 262142 && hour ≤ 23 && minute ≤ 59 &&
      second ≤ 60 && offset.natAbs < 86400 then
    let written := if second = 60 then 59 else second
    let leap := if second = 60 then 1000000000 else 0
    let s : Int := hour * 3600 + minute * 60 + written
    Instant.ofParts? (Calendar.dayNumber date * 86400 + s - offset) (nano + leap)
  else none

/-- The instant a text names. -/
def read? (s : String) : Option Instant := do
  let (year, r) ← year? (Text.dropBlanks s.toList)
  let (month, r) ← twoDigits? (← mark? '-' r)
  let (day, r) ← twoDigits? (← mark? '-' r)
  let r ← match r with
    | 'T' :: r => some r
    | 't' :: r => some r
    | ' ' :: r => some r
    | _ => none
  let (hour, r) ← twoDigits? r
  let (minute, r) ← twoDigits? (← mark? ':' r)
  let (second, r) ← twoDigits? (← mark? ':' r)
  let (nano, r) ← fraction? r
  let (offset, r) ← zone? (Text.dropBlanks r)
  if (Text.dropBlanks r).isEmpty then instant? ⟨year, month, day⟩ hour minute second nano offset
  else none

end SessionCluster.Rfc3339
