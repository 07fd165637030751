/-
  Refused input — the three ways a single value can be unacceptable.
-/
import SessionCluster.Text.Digits

namespace SessionCluster

/-- Why a field was refused. -/
inductive FieldError where
  | empty (field : String)
  | outOfRange (field : String) (least most actual : Nat)
  | badFormat (field : String) (reason : String)
deriving DecidableEq

namespace FieldError

/-- The field that was refused. -/
def field : FieldError → String
  | .empty f => f
  | .outOfRange f _ _ _ => f
  | .badFormat f _ => f

/-- The refusal in words. -/
def message : FieldError → String
  | .empty f => "Field '" ++ f ++ "' cannot be empty"
  | .outOfRange f least most actual =>
    "Field '" ++ f ++ "' must be between " ++ Text.decimal least ++ " and " ++ Text.decimal most ++
      ", got " ++ Text.decimal actual
  | .badFormat f reason => "Field '" ++ f ++ "' has invalid format: " ++ reason

end FieldError

end SessionCluster
