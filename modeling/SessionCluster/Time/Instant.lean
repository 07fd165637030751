/-
  Instants — moments of wall-clock time, in UTC, to the nanosecond.

  An instant is a second since 1970 and a number of nanoseconds in it.  A leap second has no
  number of its own: it is the second before it with a billion nanoseconds or more.  Any second can
  be followed by one, though a text has room for it only at the end of a minute.  Instants run from
  the first moment of the year −262143 to the last nanosecond of the year 262142.

  * `plus` moves an instant forward by the whole milliseconds of a span and stays at the last
    instant when it would pass it.
  * `nanosSince` is the signed distance in nanoseconds, `remaining` the same cut off at zero.
  * `millis` is the number of milliseconds since 1970, rounded down.
-/
import SessionCluster.Time.Span

namespace SessionCluster

/-- A moment of wall-clock time. -/
structure Instant where
  second : Int
  nano : Nat
  second_ge : -8334601228800 ≤ second
  second_le : second ≤ 8210266876799
  nano_lt : nano < 2000000000
deriving DecidableEq

namespace Instant

/-- The last instant there is. -/
def last : Instant :=
  ⟨8210266876799, 999999999, by decide, by decide, by decide⟩

/-- The start of 1970. -/
def epoch : Instant := ⟨0, 0, by decide, by decide, by decide⟩

instance : Inhabited Instant := ⟨epoch⟩

/-- Earlier than: by second, then by nanosecond. -/
def before (a b : Instant) : Bool :=
  a.second < b.second || (a.second == b.second && a.nano < b.nano)

instance : LT Instant := ⟨fun a b => a.before b = true⟩
instance : LE Instant := ⟨fun a b => b.before a = false⟩
instance (a b : Instant) : Decidable (a < b) := inferInstanceAs (Decidable (a.before b = true))
instance (a b : Instant) : Decidable (a ≤ b) := inferInstanceAs (Decidable (b.before a = false))

/-- The order of two instants. -/
def compare (a b : Instant) : Ordering :=
  if a.before b then .lt else if b.before a then .gt else .eq

/-- The earlier of two instants. -/
def earlier (a b : Instant) : Instant := if b.before a then b else a

/-- The instant of a second and a nanosecond within it, if it is within the range. -/
def ofParts? (second : Int) (nano : Nat) : Option Instant :=
  if h : -8334601228800 ≤ second ∧ second ≤ 8210266876799 ∧ nano < 2000000000 then
    some ⟨second, nano, h.1, h.2.1, h.2.2⟩
  else none

/-- The instant so many milliseconds after the start of 1970, if it is within the range. -/
def ofMillis? (ms : Int) : Option Instant :=
  ofParts? (ms / 1000) ((ms % 1000).toNat * 1000000)

/-- Milliseconds since the start of 1970, rounded down. -/
def millis (t : Instant) : Int :=
  t.second * 1000 + (t.nano / 1000000 : Nat)

/-- Microseconds since the start of 1970, rounded down. -/
def micros (t : Instant) : Int :=
  t.second * 1000000 + (t.nano / 1000 : Nat)

/-- The second of the day, from midnight. -/
def secondOfDay (t : Instant) : Int := t.second % 86400

/-- Whether the instant lies in a leap second. -/
def inLeapSecond (t : Instant) : Bool := 1000000000 ≤ t.nano

/-- Moves an instant forward by whole milliseconds.  An instant in a leap second leaves it for
the following ordinary second unless the sum still lies in it; past the last instant there is
only the last instant. -/
def plusMillis (t : Instant) (ms : Nat) : Instant :=
  let whole := ms / 1000
  let frac := ms % 1000 * 1000000
  if h : t.inLeapSecond = true ∧ whole = 0 ∧ t.nano + frac < 2000000000 then
    ⟨t.second, t.nano + frac, t.second_ge, t.second_le, h.2.2⟩
  else
    let nano := t.nano % 1000000000 + frac
    let second := t.second + whole + (nano / 1000000000 : Nat)
    if h : second ≤ 8210266876799 then
      ⟨second, nano % 1000000000, by have := t.second_ge; omega, h, by omega⟩
    else last

/-- Moves an instant forward by the whole milliseconds of a span. -/
def plus (t : Instant) (d : Span) : Instant := t.plusMillis d.millis

/-- The signed number of nanoseconds from `b` to `a`.  A leap second counts as a second of its
own when the other instant stands on the far side of it in its day. -/
def nanosSince (a b : Instant) : Int :=
  let leap : Int :=
    if b.secondOfDay < a.secondOfDay then (if b.inLeapSecond then 1 else 0)
    else if a.secondOfDay < b.secondOfDay then (if a.inLeapSecond then -1 else 0)
    else 0
  (a.second - b.second + leap) * 1000000000 + (a.nano - b.nano)

/-- The signed number of whole milliseconds from `b` to `a`, rounded toward zero. -/
def millisSince (a b : Instant) : Int :=
  (a.nanosSince b).tdiv 1000000

/-- The time left until `t` when it is `now`: none once it has passed. -/
def remaining (t now : Instant) : Span :=
  .ofNanos (t.nanosSince now).toNat

/-- The nanosecond as it is written: within the second, leap or not. -/
def writtenNano (t : Instant) : Nat := t.nano % 1000000000

/-- The second of the minute as it is written: in a leap second the next one, which is sixty at
the end of the minute. -/
def writtenSecond (t : Instant) : Nat :=
  (t.second % 60).toNat + t.nano / 1000000000

end Instant

end SessionCluster
