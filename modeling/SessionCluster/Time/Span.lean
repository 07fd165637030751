/-
  Spans — lengths of time that never run backwards.

  A span counts whole nanoseconds, from none up to a fixed limit of 2⁶⁴ − 1 seconds and
  999 999 999 nanoseconds.  Sums and multiples that would pass the limit have no value, so
  `add?` and `times?` answer with an option; nothing wraps.

  Two readings matter elsewhere: `millis`, which rounds down and is what lifetimes are
  measured in, and `ticks`, which rounds up and is what timers are set to.
-/
import SessionCluster.Text.Digits

namespace SessionCluster

/-- A length of time in nanoseconds, at most `Span.limit`. -/
structure Span where
  nanos : Nat
  nanos_le : nanos ≤ 18446744073709551615999999999 := by omega
deriving DecidableEq

namespace Span

/-- The longest span, in nanoseconds: 2⁶⁴ − 1 seconds and one nanosecond short of another. -/
def limit : Nat := 18446744073709551615999999999

def zero : Span := ⟨0, by omega⟩

instance : Inhabited Span := ⟨zero⟩

/-- The span of so many nanoseconds, if it is within the limit. -/
def ofNanos? (n : Nat) : Option Span :=
  if h : n ≤ 18446744073709551615999999999 then some ⟨n, h⟩ else none

/-- The longest span not above so many nanoseconds. -/
def ofNanos (n : Nat) : Span :=
  ⟨min n 18446744073709551615999999999, Nat.min_le_right ..⟩

/-- So many milliseconds. -/
def ofMillis (n : Nat) : Span := ofNanos (n * 1000000)

/-- So many seconds. -/
def ofSeconds (n : Nat) : Span := ofNanos (n * 1000000000)

/-- Whole seconds. -/
def seconds (d : Span) : Nat := d.nanos / 1000000000

/-- The nanoseconds beside the whole seconds. -/
def subsecond (d : Span) : Nat := d.nanos % 1000000000

/-- Whole milliseconds, rounded down. -/
def millis (d : Span) : Nat := d.nanos / 1000000

/-- Milliseconds rounded up: how long a timer set to this span takes. -/
def ticks (d : Span) : Nat := (d.nanos + 999999) / 1000000

def isZero (d : Span) : Bool := d.nanos == 0

instance : LE Span := ⟨fun a b => a.nanos ≤ b.nanos⟩
instance : LT Span := ⟨fun a b => a.nanos < b.nanos⟩
instance (a b : Span) : Decidable (a ≤ b) := inferInstanceAs (Decidable (a.nanos ≤ b.nanos))
instance (a b : Span) : Decidable (a < b) := inferInstanceAs (Decidable (a.nanos < b.nanos))

/-- The shorter of two spans. -/
def shorter (a b : Span) : Span := if a.nanos ≤ b.nanos then a else b

/-- The sum, if it is within the limit. -/
def add? (a b : Span) : Option Span := ofNanos? (a.nanos + b.nanos)

/-- A multiple, if it is within the limit. -/
def times? (a : Span) (n : Nat) : Option Span := ofNanos? (a.nanos * n)

theorem shorter_le_left (a b : Span) : (shorter a b).nanos ≤ a.nanos := by
  unfold shorter; split <;> omega

theorem shorter_le_right (a b : Span) : (shorter a b).nanos ≤ b.nanos := by
  unfold shorter; split <;> omega

/-- The span of so many nanoseconds, if there is one. -/
theorem ofNanos?_eq_some {n : Nat} {d : Span} : ofNanos? n = some d ↔ d.nanos = n := by
  unfold ofNanos?
  constructor
  · intro h
    split at h
    · injection h with h
      rw [← h]
    · simp at h
  · intro h
    subst h
    rw [dif_pos d.nanos_le]

/-! ## The text of a span

The largest unit among seconds, milliseconds, microseconds and nanoseconds that has a whole
part, then the rest as a decimal fraction without trailing zeros: `1.5s`, `250ms`, `2.5µs`,
`0ns`. -/

/-- A fraction of `width` digits without its trailing zeros, with the point in front unless
nothing is left. -/
def fractionText (width frac : Nat) : String :=
  let ds := (Text.padded width frac).toList.reverse.dropWhile (· == '0')
  if ds.isEmpty then "" else "." ++ String.ofList ds.reverse

/-- The span as people read it. -/
def text (d : Span) : String :=
  let n := d.nanos
  if 1000000000 ≤ n then
    Text.decimal (n / 1000000000) ++ fractionText 9 (n % 1000000000) ++ "s"
  else if 1000000 ≤ n then Text.decimal (n / 1000000) ++ fractionText 6 (n % 1000000) ++ "ms"
  else if 1000 ≤ n then Text.decimal (n / 1000) ++ fractionText 3 (n % 1000) ++ "µs"
  else Text.decimal n ++ "ns"

end Span

end SessionCluster
