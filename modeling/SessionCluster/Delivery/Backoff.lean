/-
  Backoff — how often to try, and how long to wait between attempts.

  The wait doubles from attempt to attempt, starting at the base delay, and never exceeds the
  greatest delay; it stops doubling after thirty-one times.  `worstCase?` is the longest a whole
  series of attempts can take: every attempt up to its time limit and every wait between.
-/
import SessionCluster.Time.Span

namespace SessionCluster

/-- The parameters of a series of attempts. -/
structure Backoff where
  maxAttempts : Nat
  baseDelay : Span
  maxDelay : Span
  attemptTimeout : Span
deriving DecidableEq

namespace Backoff

/-- The parameters for delivering events unless others are given. -/
def standard : Backoff := ⟨5, .ofMillis 50, .ofMillis 2000, .ofMillis 1000⟩

/-- How many attempts are made at most: at least one. -/
def attempts (b : Backoff) : Nat := max 1 b.maxAttempts

/-- How often the base delay has doubled after so many failed attempts. -/
def doublings (failed : Nat) : Nat := min (failed - 1) 31

/-- The base delay doubled a number of times, but at most the greatest delay. -/
def doubled (b : Backoff) (n : Nat) : Span :=
  match b.baseDelay.times? (Nat.pow 2 n) with
  | some d => d.shorter b.maxDelay
  | none => b.maxDelay

/-- The wait after so many failed attempts. -/
def delayAfter (b : Backoff) (failed : Nat) : Span := b.doubled (doublings failed)

/-- The nanoseconds of the first `n` waits. -/
def waitsNanos (b : Backoff) : Nat → Nat
  | 0 => 0
  | n + 1 => b.waitsNanos n + (b.delayAfter (n + 1)).nanos

/-- The same without counting the waits that no longer grow one by one. -/
def longWaitsNanos (b : Backoff) (n : Nat) : Nat :=
  b.waitsNanos (min n 32) + (n - 32) * (b.delayAfter 32).nanos

/-- The longest a series of attempts can take, unless no span is that long. -/
def worstCase? (b : Backoff) : Option Span :=
  Span.ofNanos? (b.longWaitsNanos (b.attempts - 1) + b.attemptTimeout.nanos * b.attempts)

theorem doubled_le (b : Backoff) (n : Nat) : (b.doubled n).nanos ≤ b.maxDelay.nanos := by
  unfold doubled
  split
  · exact Span.shorter_le_right ..
  · exact Nat.le_refl _

theorem delayAfter_le (b : Backoff) (n : Nat) : (b.delayAfter n).nanos ≤ b.maxDelay.nanos :=
  doubled_le ..

theorem doublings_const {n : Nat} (h : 32 ≤ n) : doublings n = doublings 32 := by
  simp only [doublings]; omega

theorem delayAfter_const (b : Backoff) {n : Nat} (h : 32 ≤ n) :
    b.delayAfter n = b.delayAfter 32 :=
  congrArg b.doubled (doublings_const h)

/-- The waits, reckoned in one sweep of doublings, are those that are added up one by one. -/
theorem longWaitsNanos_eq (b : Backoff) (n : Nat) : b.longWaitsNanos n = b.waitsNanos n := by
  induction n with
  | zero => simp [longWaitsNanos, waitsNanos]
  | succ n ih =>
    rw [waitsNanos, ← ih]
    unfold longWaitsNanos
    by_cases h : n < 32
    · rw [show min (n + 1) 32 = n + 1 by omega, show min n 32 = n by omega,
        show n + 1 - 32 = 0 by omega, show n - 32 = 0 by omega, waitsNanos]
      omega
    · rw [show min (n + 1) 32 = 32 by omega, show min n 32 = 32 by omega,
        delayAfter_const b (n := n + 1) (by omega), show n + 1 - 32 = (n - 32) + 1 by omega,
        Nat.succ_mul]
      omega

end Backoff

end SessionCluster
