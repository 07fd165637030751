/-
  Digits — reading and writing natural numbers in base ten, and hexadecimal digits.

  `ofDigits` and `digits` are the two directions, and reading what was written gives the number
  back (`ofDigits_digits`); the strict readers below add what a field of a given width admits.
  `unsigned? bound` is the reader of query strings and environment variables: an optional plus
  sign, at least one digit, leading zeros allowed, and a value below the bound.
-/

namespace SessionCluster.Text

/-- The ten ASCII digits. -/
def isDigit (c : Char) : Bool :=
  '0' ≤ c && c ≤ '9'

/-- The value of an ASCII digit. -/
def digitValue (c : Char) : Nat :=
  c.toNat - '0'.toNat

/-- The number a run of digits spells, continuing from `n`. -/
def ofDigits (n : Nat) (cs : List Char) : Nat :=
  cs.foldl (fun n c => n * 10 + digitValue c) n

/-- The decimal digits of a number, without leading zeros. -/
def digits (n : Nat) : List Char :=
  Nat.toDigits 10 n

/-- The decimal text of a number. -/
def decimal (n : Nat) : String :=
  String.ofList (digits n)

/-- The decimal text of a whole number, with a minus sign below zero. -/
def signedDecimal (i : Int) : String :=
  match i with
  | .ofNat n => decimal n
  | .negSucc n => "-" ++ decimal (n + 1)

/-- The decimal text of a number, filled with zeros on the left to at least `width` digits. -/
def padded (width n : Nat) : String :=
  let ds := digits n
  String.ofList (List.replicate (width - ds.length) '0' ++ ds)

/-- A number below `bound`: an optional plus sign, then at least one digit and nothing else. -/
def unsigned? (bound : Nat) (s : String) : Option Nat :=
  let cs := match s.toList with
    | '+' :: r => r
    | cs => cs
  if cs.isEmpty || !cs.all isDigit then none
  else
    let n := ofDigits 0 cs
    if n < bound then some n else none

/-- The value of a hexadecimal digit in either case. -/
def hexValue? (c : Char) : Option Nat :=
  if isDigit c then some (digitValue c)
  else if 'a' ≤ c && c ≤ 'f' then some (c.toNat - 'a'.toNat + 10)
  else if 'A' ≤ c && c ≤ 'F' then some (c.toNat - 'A'.toNat + 10)
  else none

theorem ofDigits_append (n : Nat) (a b : List Char) :
    ofDigits n (a ++ b) = ofDigits (ofDigits n a) b := by
  simp [ofDigits]

theorem digitValue_digitChar {d : Nat} (h : d < 10) : digitValue (Nat.digitChar d) = d := by
  unfold digitValue
  rw [Nat.toNat_digitChar_of_lt_ten h]
  show 48 + d - 48 = d
  omega

/-- The digits of a number spell it. -/
theorem ofDigits_digits (n : Nat) : ofDigits 0 (digits n) = n := by
  induction n using Nat.strongRecOn with
  | _ n ih =>
    unfold digits
    rcases Nat.lt_or_ge n 10 with h | h
    · rw [Nat.toDigits_of_lt_base h]
      simp [ofDigits, digitValue_digitChar h]
    · have hd : n % 10 < 10 := Nat.mod_lt n (by decide)
      have hs := Nat.toDigits_append_toDigits (b := 10) (n := n / 10) (d := n % 10) (by decide)
        (by omega) hd
      have hq : ofDigits 0 (Nat.toDigits 10 (n / 10)) = n / 10 := ih (n / 10) (by omega)
      rw [Nat.div_add_mod] at hs
      rw [← hs, ofDigits_append, hq, Nat.toDigits_of_lt_base hd]
      simp only [ofDigits, List.foldl_cons, List.foldl_nil, digitValue_digitChar hd]
      omega

end SessionCluster.Text
