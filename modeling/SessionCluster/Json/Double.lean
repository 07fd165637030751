/-
  Binary floating point — the text of a double, and the double of a numeral.

  A double is held by its sixty-four bits.  Two rules are stated here.

  Writing takes the fewest decimal digits that still read back to the same double, and of those
  the ones nearest to it: `shortest` tries one digit, then two, and so on, and compares exactly,
  in whole numbers.  `text` then places the point: positional when the first digit stands
  between 10⁻⁵ and 10¹⁵, with at least one decimal, otherwise with an exponent.

  Reading takes the digits of a numeral as a whole number of at most sixty-four bits, dropping
  those that do not fit, and scales it by a power of ten with one rounding: a multiplication or a
  division by the nearest double to that power.  So the last bit may differ from the nearest
  double, and it does so in the same way on every node.
-/
import SessionCluster.Text.Digits

namespace SessionCluster.Double

/-! ## Writing -/

/-- A positive finite double as a whole number times a power of two. -/
structure Parts where
  significand : Nat
  exponent : Int

/-- The value of the bits below the sign. -/
def parts (bits : UInt64) : Parts :=
  let field : Nat := (bits.toNat / 4503599627370496) % 2048
  let fraction : Nat := bits.toNat % 4503599627370496
  if field = 0 then ⟨fraction, -1074⟩ else ⟨fraction + 4503599627370496, (field : Int) - 1075⟩

def isNegative (bits : UInt64) : Bool := 9223372036854775808 ≤ bits.toNat

/-- Decimal digits `digits · 10 ^ exponent`. -/
structure Decimal where
  digits : Nat
  exponent : Int

/-- `n · 2 ^ e` as a fraction of two whole numbers. -/
def scaled (n : Nat) (e : Int) : Nat × Nat :=
  if 0 ≤ e then (n * Nat.pow 2 e.toNat, 1) else (n, Nat.pow 2 (-e).toNat)

/-- Whether `a / b < c / d`. -/
def lessRatio (p q : Nat × Nat) : Bool := p.1 * q.2 < q.1 * p.2

/-- The greatest power of ten that is not above a positive fraction, by trying each below a
bound. -/
def tens (v : Nat × Nat) : Nat → Int → Int
  | 0, e => e
  | n + 1, e =>
    let ten := if 0 ≤ e then (Nat.pow 10 e.toNat, 1) else (1, Nat.pow 10 (-e).toNat)
    if lessRatio v ten then tens v n (e - 1) else e

/-- The fewest digits that read back, tried from `k` digits on; `low` and `high` bound what reads
back, with the bounds themselves when `closed`. -/
def shortestFrom (v low high : Nat × Nat) (closed : Bool) (top : Int) : Nat → Nat → Decimal
  | 0, _ => ⟨0, 0⟩
  | fuel + 1, k =>
    let e := top - k + 1
    let unit := if 0 ≤ e then (Nat.pow 10 e.toNat, 1) else (1, Nat.pow 10 (-e).toNat)
    let below := v.1 * unit.2 / (v.2 * unit.1)
    let grid (n : Nat) : Nat × Nat := (n * unit.1, unit.2)
    let within (n : Nat) : Bool :=
      if closed then !lessRatio (grid n) low && !lessRatio high (grid n)
      else lessRatio low (grid n) && lessRatio (grid n) high
    let belowFits := within below
    let aboveFits := within (below + 1)
    -- the distance to each neighbour, over a common denominator
    let toBelow := v.1 * unit.2 - below * unit.1 * v.2
    let toAbove := (below + 1) * unit.1 * v.2 - v.1 * unit.2
    if belowFits && aboveFits then
      if toBelow < toAbove || (toBelow == toAbove && below % 2 == 0) then ⟨below, e⟩
      else ⟨below + 1, e⟩
    else if belowFits then ⟨below, e⟩
    else if aboveFits then ⟨below + 1, e⟩
    else shortestFrom v low high closed top fuel (k + 1)

/-- The fewest decimal digits that read back to a positive finite double. -/
def shortest (p : Parts) : Decimal :=
  let v := scaled p.significand p.exponent
  let high := scaled (2 * p.significand + 1) (p.exponent - 1)
  let low :=
    if p.significand = 4503599627370496 ∧ -1074 < p.exponent then
      scaled (4 * p.significand - 1) (p.exponent - 2)
    else scaled (2 * p.significand - 1) (p.exponent - 1)
  shortestFrom v low high (p.significand % 2 == 0) (tens v 640 309) 18 1

/-- Digits without their trailing zeros, and the exponent raised to match. -/
def Decimal.trim (d : Decimal) : List Char × Int :=
  let ds := (Text.digits d.digits).reverse
  let zeros := (ds.takeWhile (· == '0')).length
  ((ds.drop zeros).reverse, d.exponent + zeros)

/-- Places the point. -/
def place (ds : List Char) (e : Int) : List Char :=
  let n := ds.length
  let first := e + n - 1
  if -5 ≤ first ∧ first ≤ 15 then
    if 0 ≤ e then ds ++ List.replicate e.toNat '0' ++ ['.', '0']
    else if 0 ≤ first then ds.take (first.toNat + 1) ++ '.' :: ds.drop (first.toNat + 1)
    else '0' :: '.' :: (List.replicate (-first - 1).toNat '0' ++ ds)
  else
    let mantissa := match ds with
      | [] => []
      | [d] => [d]
      | d :: r => d :: '.' :: r
    mantissa ++ 'e' :: (if first < 0 then '-' else '+') :: Text.digits first.natAbs

/-- The text of a finite double. -/
def text (bits : UInt64) : String :=
  let p := parts bits
  let body := if p.significand = 0 then ['0', '.', '0']
    else
      let (ds, e) := (shortest p).trim
      place ds e
  String.ofList (if isNegative bits then '-' :: body else body)

/-! ## Reading -/

/-- The double nearest to a power of ten. -/
def powerOfTen (n : Nat) : Float := Float.ofScientific 1 false n

/-- Scales a number down by powers of ten until the rest of the exponent is within reach. -/
def scaleDown : Nat → Float → Nat → Float
  | 0, f, _ => f
  | fuel + 1, f, e =>
    if e ≤ 308 then f / powerOfTen e
    else if f == 0 then f
    else scaleDown fuel (f / powerOfTen 308) (e - 308)

/-- `significand · 10 ^ exponent` as a double, if it is within range. -/
def compose? (negative : Bool) (significand : Nat) (exponent : Int) : Option UInt64 :=
  let f := (UInt64.ofNat significand).toFloat
  let scaled : Option Float :=
    if exponent < 0 then some (scaleDown 8 f exponent.natAbs)
    else if exponent ≤ 308 then
      let g := f * powerOfTen exponent.toNat
      if g.isInf then none else some g
    else if f == 0 then some f else none
  scaled.map fun g => (if negative then -g else g).toBits

end SessionCluster.Double
