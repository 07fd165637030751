/-
  Tokens of a JSON text, and how each is written.

  A text is a sequence of tokens with optional blanks between them; written texts have none.
  Three tokens only ever come from reading: `broken`, where the text stops being JSON; a string
  without a value, which escapes half of a surrogate pair; and a numeral without a value, which
  is too large.  A reader that only passes over a value accepts the latter two.
-/
import SessionCluster.Json.Number

namespace SessionCluster.Json

/-- The tokens of a text: brackets, marks, and values that hold no others.  A string or a number that
    is no good is a token without a value, and what is no token at all is broken. -/
inductive Token where
  | beginObject
  | endObject
  | beginArray
  | endArray
  | colon
  | comma
  | null
  | bool (b : Bool)
  | number (n : Option Number)
  | string (s : Option String)
  | broken
deriving DecidableEq

/-- A hexadecimal digit in lower case. -/
def hexDigit (n : Nat) : Char := Nat.digitChar n

/-- A character inside a written string: the quote, the backslash and the control characters
below the blank are escaped, everything else stands for itself. -/
def escaped (c : Char) : List Char :=
  if c = '"' then ['\\', '"']
  else if c = '\\' then ['\\', '\\']
  else if c = '\n' then ['\\', 'n']
  else if c = '\r' then ['\\', 'r']
  else if c = '\t' then ['\\', 't']
  else if c.toNat = 8 then ['\\', 'b']
  else if c.toNat = 12 then ['\\', 'f']
  else if c.toNat < 32 then ['\\', 'u', '0', '0', hexDigit (c.toNat / 16), hexDigit (c.toNat % 16)]
  else [c]

/-- A string in quotes. -/
def quoted (s : String) : List Char :=
  '"' :: (s.toList.flatMap escaped ++ ['"'])

/-- How a token is written; what only comes from reading is written as nothing. -/
def Token.chars : Token → List Char
  | .beginObject => ['{']
  | .endObject => ['}']
  | .beginArray => ['[']
  | .endArray => [']']
  | .colon => [':']
  | .comma => [',']
  | .null => ['n', 'u', 'l', 'l']
  | .bool true => ['t', 'r', 'u', 'e']
  | .bool false => ['f', 'a', 'l', 's', 'e']
  | .number (some n) => n.text.toList
  | .string (some s) => quoted s
  | .number none => []
  | .string none => []
  | .broken => []

/-- The compact text of a sequence of tokens. -/
def render (ts : List Token) : String :=
  String.ofList (ts.flatMap Token.chars)

/-- An object written from its members in the given order. -/
def objectTokens (members : List (String × List Token)) : List Token :=
  let parts := members.map fun (name, value) => .string (some name) :: .colon :: value
  .beginObject :: (([Token.comma].intercalate parts) ++ [.endObject])

theorem render_append (a b : List Token) : render (a ++ b) = render a ++ render b := by
  simp [render]

end SessionCluster.Json
