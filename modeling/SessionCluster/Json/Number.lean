/-
  Numbers of a payload — what a numeral stands for.

  A numeral without fraction and exponent is a whole number when it fits: from 0 to 2⁶⁴ − 1, or
  from −2⁶³ to −1.  Every other numeral is a double, `-0` included.  A numeral too large for a
  double stands for nothing.
-/
import SessionCluster.Json.Double

namespace SessionCluster

/-- The value of a numeral. -/
inductive Number where
  /-- A whole number from zero up. -/
  | natural (n : UInt64)
  /-- The whole number `-1 - k`. -/
  | negative (k : Fin 9223372036854775808)
  /-- A finite double, by its bits. -/
  | double (bits : UInt64)
deriving DecidableEq

namespace Number

/-- The text of a number. -/
def text : Number → String
  | .natural n => Text.decimal n.toNat
  | .negative k => "-" ++ Text.decimal (k.val + 1)
  | .double bits => Double.text bits

/-- The number of a whole value, if one of the two ranges holds it. -/
def ofInt? (i : Int) : Option Number :=
  match i with
  | .ofNat n => if n < 18446744073709551616 then some (.natural (UInt64.ofNat n)) else none
  | .negSucc k => if h : k < 9223372036854775808 then some (.negative ⟨k, h⟩) else none

/-- The whole value of a number; a double has none. -/
def toInt? : Number → Option Int
  | .natural n => some n.toNat
  | .negative k => some (Int.negSucc k.val)
  | .double _ => none

end Number

/-- The parts of a numeral as they are written, each run of digits with its last digit first. -/
structure Numeral where
  negative : Bool := false
  whole : List Char := []
  fraction : Option (List Char) := none
  exponentNegative : Bool := false
  exponent : Option (List Char) := none

namespace Numeral

/-- A whole number of at most sixty-four bits and the power of ten that goes with it. -/
structure Scaled where
  significand : Nat
  exponent : Int

/-- Takes digits before the point for as long as the number fits into sixty-four bits; each digit
after that only raises the power of ten. -/
def takeWhole : List Char → Nat → Scaled
  | [], n => ⟨n, 0⟩
  | c :: cs, n =>
    if n * 10 + Text.digitValue c < 18446744073709551616 then
      takeWhole cs (n * 10 + Text.digitValue c)
    else ⟨n, cs.length + 1⟩

/-- Takes digits after the point for as long as the number fits into sixty-four bits; the rest is
dropped. -/
def takeFraction : List Char → Scaled → Scaled
  | [], s => s
  | c :: cs, s =>
    if s.significand * 10 + Text.digitValue c < 18446744073709551616 then
      takeFraction cs ⟨s.significand * 10 + Text.digitValue c, s.exponent - 1⟩
    else s

/-- The double a numeral stands for, if it is within range.  An exponent above 2³¹ − 1 makes it
zero when it is negative or the digits are all zero, and out of range otherwise. -/
def double? (n : Numeral) : Option UInt64 :=
  let whole := takeWhole n.whole.reverse 0
  let s := match n.fraction with
    | some ds => takeFraction ds.reverse whole
    | none => whole
  let e := match n.exponent with
    | some ds => Text.ofDigits 0 ds.reverse
    | none => 0
  if 2147483647 < e then
    if s.significand ≠ 0 ∧ !n.exponentNegative then none else Double.compose? n.negative 0 0
  else
    Double.compose? n.negative s.significand (if n.exponentNegative then s.exponent - e else s.exponent + e)

/-- The number a numeral stands for, if there is one. -/
def value? (n : Numeral) : Option Number :=
  let asDouble := n.double?.map Number.double
  match n.fraction, n.exponent with
  | none, none =>
    let m := Text.ofDigits 0 n.whole.reverse
    if !n.negative then (Number.ofInt? m).or asDouble
    else if m = 0 then asDouble
    else (Number.ofInt? (-(m : Int))).or asDouble
  | _, _ => asDouble

end Numeral

end SessionCluster
