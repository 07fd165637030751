/-
  Percent encoding — octets of a text written as `%` and two hexadecimal digits.

  A `%` that is not followed by two such digits stands for itself.  In a form a plus sign stands
  for a blank, and pairs of a name and a value are separated by `&`; a pair without `=` has an
  empty value, and empty pairs do not count.
-/
import SessionCluster.Text.Digits
import SessionCluster.Text.Fields

namespace SessionCluster.Text

/-- The octets of a character. -/
def octetsOf (c : Char) : List UInt8 := c.toString.toUTF8.toList

/-- The octets of a percent-encoded text. -/
def percentDecoded : List Char → List UInt8
  | '%' :: a :: b :: rest =>
    match hexValue? a, hexValue? b with
    | some x, some y => UInt8.ofNat (x * 16 + y) :: percentDecoded rest
    | _, _ => octetsOf '%' ++ percentDecoded (a :: b :: rest)
  | c :: rest => octetsOf c ++ percentDecoded rest
  | [] => []
termination_by cs => cs.length

/-- The text of a sequence of octets, unless they are no text. -/
def ofOctets? (octets : List UInt8) : Option String :=
  String.fromUTF8? (ByteArray.mk octets.toArray)

/-- The text behind a percent-encoded one. -/
def percentDecoded? (cs : List Char) : Option String := ofOctets? (percentDecoded cs)

/-- The text behind a part of a form. -/
def formDecoded? (cs : List Char) : Option String :=
  percentDecoded? (cs.map fun c => if c == '+' then ' ' else c)

/-- The pairs of a form; a name or value that is no text is none. -/
def formPairs (form : String) : List (Option String × Option String) :=
  ((splitAll '&' form.toList).filter fun pair => !pair.isEmpty).map fun pair =>
    match splitFirst? '=' pair with
    | some (name, value) => (formDecoded? name, formDecoded? value)
    | none => (formDecoded? pair, some "")

end SessionCluster.Text
