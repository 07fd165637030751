/-
  Media types — whether a request says that its body is JSON.

  A media type is a type, a slash and a subtype, then parameters after semicolons.  JSON is the
  type `application` with the subtype `json`, or with any subtype that ends in `+json`; letters
  count in either case.  A type that breaks the grammar anywhere, its parameters included, says
  nothing.
-/
import SessionCluster.Text.Fields
import SessionCluster.Text.Digits

namespace SessionCluster.Gateway.MediaType

/-- The characters of names. -/
def isNameChar (c : Char) : Bool :=
  Text.isDigit c || ('a' ≤ c && c ≤ 'z') || ('A' ≤ c && c ≤ 'Z') ||
    "!#$%&'*+-.^_\x60|~".toList.contains c

/-- The characters between quotes; the first of them may be a quote itself. -/
def isQuotedChar (c : Char) : Bool := 31 < c.toNat && c.toNat < 127

/-- What is left after a quoted value: blanks up to the next semicolon. -/
def afterQuoted? : List Char → Option (List Char)
  | [] => some []
  | ';' :: rest => some rest
  | ' ' :: rest => afterQuoted? rest
  | _ :: _ => none

/-- Reads a parameter's value; the answer is what follows its semicolon. -/
def dropValue? (cs : List Char) : Option (List Char) :=
  match cs with
  | '"' :: first :: quoted =>
    match quoted.dropWhile (· ≠ '"') with
    | _ :: rest =>
      if (first :: quoted.takeWhile (· ≠ '"')).all isQuotedChar then afterQuoted? rest else none
    | [] => none
  | cs =>
    let value := cs.takeWhile (· ≠ ';')
    if !value.all isNameChar then none
    else match cs.dropWhile (· ≠ ';') with
      | [] => some []
      | _ :: rest => if value.isEmpty then none else some rest

/-- Whether a sequence of parameters keeps to the grammar, by its length. -/
def parametersFit : Nat → List Char → Bool
  | _, [] => true
  | 0, _ :: _ => false
  | fuel + 1, cs =>
    match cs with
    | ' ' :: rest => parametersFit fuel rest
    | cs =>
      let name := cs.takeWhile (· ≠ '=')
      match cs.dropWhile (· ≠ '=') with
      | _ :: rest =>
        if name.isEmpty || !name.all isNameChar then false
        else match dropValue? rest with
          | some rest => parametersFit fuel rest
          | none => false
      | [] => false

/-- Whether a media type is JSON. -/
def isJson (s : String) : Bool :=
  match Text.splitFirst? '/' s.toList with
  | none => false
  | some (kind, rest) =>
    let subtype := rest.takeWhile (· ≠ ';')
    let parameters := (rest.dropWhile (· ≠ ';')).tail
    let wellFormed := !kind.isEmpty && kind.all isNameChar &&
      (!subtype.isEmpty || rest.isEmpty) && subtype.all isNameChar &&
      parametersFit parameters.length parameters
    let subtype := Text.lower (String.ofList subtype)
    let named := match Text.splitLast? '+' subtype.toList with
      | some (c :: cs, suffix) => String.ofList (c :: cs) == "json" || String.ofList suffix == "json"
      | _ => subtype == "json"
    wellFormed && Text.lower (String.ofList kind) == "application" && named

end SessionCluster.Gateway.MediaType
