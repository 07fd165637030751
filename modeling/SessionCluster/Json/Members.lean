/-
  Members — looking into a value without insisting on its shape.

  What is missing, or of another kind than wanted, counts as null, as empty, or as a given
  default.
-/
import SessionCluster.Json.Value

namespace SessionCluster.Json

/-- The value of a member, or null. -/
def get (j : Json) (name : String) : Json := (j.member? name).getD .null

/-- Whether a member is there and not null. -/
def has (j : Json) (name : String) : Bool := j.get name != .null

/-- A string's text, or nothing. -/
def asText : Json → String
  | .string s => s
  | _ => ""

/-- A number from zero up, or a default. -/
def asNat (d : Nat) : Json → Nat
  | .number (.natural n) => n.toNat
  | _ => d

/-- The items of an array, or none. -/
def asItems : Json → List Json
  | .array xs => xs
  | _ => []

/-- The members of an object, or none. -/
def asMembers : Json → List (String × Json)
  | .object ms => ms
  | _ => []

/-- The text of a member, or a default. -/
def textOr (d : String) (j : Json) (name : String) : String :=
  match j.get name with
  | .string s => s
  | _ => d

/-- The text of a member, or nothing. -/
def textAt (j : Json) (name : String) : String := j.textOr "" name

/-- A member that is a number from zero up, or a default. -/
def natOr (d : Nat) (j : Json) (name : String) : Nat := (j.get name).asNat d

/-- A member that is a number from zero up, or zero. -/
def natAt (j : Json) (name : String) : Nat := j.natOr 0 name

/-- Whether a member is true. -/
def flagAt (j : Json) (name : String) : Bool := j.get name == .bool true

/-- The items of a member, or none. -/
def itemsAt (j : Json) (name : String) : List Json := (j.get name).asItems

/-- Members added at the end of an object; nothing else takes any. -/
def extend (j : Json) (more : List (String × Json)) : Json :=
  match j with
  | .object ms => .object (ms ++ more)
  | j => j

end SessionCluster.Json
