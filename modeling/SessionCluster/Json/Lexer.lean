/-
  From text to tokens, one character at a time.

  The lexer is a machine with a state and a step; reading a text is a fold of the step over its
  characters, so what a text gives after another only depends on the state in between.  Once the
  text is broken the machine stays where it is, and everything before the break remains readable:
  which of two faults of a text is reported is decided by the reader of the tokens, not here.

  A numeral ends where no further character can belong to it; an escaped pair of surrogates is
  one character, and an escaped surrogate on its own leaves the string without a value.
-/
import SessionCluster.Json.Token

namespace SessionCluster.Json.Lexer

/-- Where in a numeral the machine stands. -/
inductive Place where
  | sign
  | zero
  | whole
  | point
  | fraction
  | mark
  | markSign
  | exponent
deriving DecidableEq

/-- Whether a numeral may end here. -/
def Place.mayEnd : Place → Bool
  | .zero | .whole | .fraction | .exponent => true
  | .sign | .point | .mark | .markSign => false

/-- Adds a character to a numeral; none when the numeral cannot hold it. -/
def numeralStep (p : Place) (n : Numeral) (c : Char) : Option (Place × Numeral) :=
  let digit := Text.isDigit c
  match p with
  | .sign =>
    if c = '0' then some (.zero, { n with whole := [c] })
    else if digit then some (.whole, { n with whole := [c] })
    else none
  | .zero =>
    if c = '.' then some (.point, n)
    else if c = 'e' ∨ c = 'E' then some (.mark, n)
    else none
  | .whole =>
    if digit then some (.whole, { n with whole := c :: n.whole })
    else if c = '.' then some (.point, n)
    else if c = 'e' ∨ c = 'E' then some (.mark, n)
    else none
  | .point => if digit then some (.fraction, { n with fraction := some [c] }) else none
  | .fraction =>
    if digit then some (.fraction, { n with fraction := n.fraction.map (c :: ·) })
    else if c = 'e' ∨ c = 'E' then some (.mark, n)
    else none
  | .mark =>
    if c = '+' then some (.markSign, n)
    else if c = '-' then some (.markSign, { n with exponentNegative := true })
    else if digit then some (.exponent, { n with exponent := some [c] })
    else none
  | .markSign => if digit then some (.exponent, { n with exponent := some [c] }) else none
  | .exponent => if digit then some (.exponent, { n with exponent := n.exponent.map (c :: ·) }) else none

/-- A string being read: its characters so far, last first, an escaped leading surrogate that
waits for its partner, and whether a surrogate was left alone. -/
structure Partial where
  chars : List Char := []
  leading : Option Nat := none
  alone : Bool := false

/-- Adds a character that is no surrogate. -/
def Partial.push (s : Partial) (c : Char) : Partial :=
  { chars := c :: s.chars, leading := none, alone := s.alone || s.leading.isSome }

/-- Adds an escaped sixteen-bit unit. -/
def Partial.pushUnit (s : Partial) (u : Nat) : Partial :=
  let trailing := 0xDC00 ≤ u && u ≤ 0xDFFF
  match s.leading with
  | some h =>
    if trailing then
      { s with
        chars := Char.ofNat (0x10000 + (h - 0xD800) * 1024 + (u - 0xDC00)) :: s.chars
        leading := none }
    else if 0xD800 ≤ u && u ≤ 0xDBFF then { s with leading := some u, alone := true }
    else s.push (Char.ofNat u)
  | none =>
    if trailing then { s with alone := true }
    else if 0xD800 ≤ u && u ≤ 0xDBFF then { s with leading := some u }
    else s.push (Char.ofNat u)

/-- The value of a finished string. -/
def Partial.value? (s : Partial) : Option String :=
  if s.alone || s.leading.isSome then none else some (String.ofList s.chars.reverse)

/-- What the machine is in the middle of. -/
inductive Mode where
  | between
  | numeral (place : Place) (n : Numeral)
  | word (rest : List Char) (token : Token)
  | inside (s : Partial)
  | escape (s : Partial)
  | unit (s : Partial) (left : Nat) (value : Nat)
  | stopped

/-- The machine: the tokens so far, last first, and its mode. -/
structure State where
  tokens : List Token := []
  mode : Mode := .between

/-- Ends the text with a broken token. -/
def State.stop (s : State) : State := ⟨.broken :: s.tokens, .stopped⟩

/-- Adds a finished token. -/
def State.emit (s : State) (t : Token) : State := ⟨t :: s.tokens, .between⟩

/-- The character an escape letter stands for. -/
def escapeChar? (c : Char) : Option Char :=
  match c with
  | '"' => some '"'
  | '\\' => some '\\'
  | '/' => some '/'
  | 'b' => some (Char.ofNat 8)
  | 'f' => some (Char.ofNat 12)
  | 'n' => some '\n'
  | 'r' => some '\r'
  | 't' => some '\t'
  | _ => none

/-- A character between tokens. -/
def begin (s : State) (c : Char) : State :=
  if c = ' ' ∨ c = '\n' ∨ c = '\t' ∨ c = '\r' then s
  else match c with
    | '{' => s.emit .beginObject
    | '}' => s.emit .endObject
    | '[' => s.emit .beginArray
    | ']' => s.emit .endArray
    | ':' => s.emit .colon
    | ',' => s.emit .comma
    | '"' => { s with mode := .inside {} }
    | 'n' => { s with mode := .word ['u', 'l', 'l'] .null }
    | 't' => { s with mode := .word ['r', 'u', 'e'] (.bool true) }
    | 'f' => { s with mode := .word ['a', 'l', 's', 'e'] (.bool false) }
    | '-' => { s with mode := .numeral .sign { negative := true } }
    | _ =>
      match numeralStep .sign {} c with
      | some (p, n) => { s with mode := .numeral p n }
      | none => s.stop

/-- One character. -/
def step (s : State) (c : Char) : State :=
  match s.mode with
  | .stopped => s
  | .between => begin s c
  | .numeral p n =>
    match numeralStep p n c with
    | some (p, n) => { s with mode := .numeral p n }
    | none =>
      -- a digit after a leading zero belongs to no numeral
      if p.mayEnd && !(p = .zero && Text.isDigit c) then begin (s.emit (.number n.value?)) c
      else s.stop
  | .word rest t =>
    match rest with
    | [] => s.stop
    | [d] => if c = d then s.emit t else s.stop
    | d :: rest => if c = d then { s with mode := .word rest t } else s.stop
  | .inside p =>
    if c = '"' then s.emit (.string p.value?)
    else if c = '\\' then { s with mode := .escape p }
    else if c.toNat < 32 then s.stop
    else { s with mode := .inside (p.push c) }
  | .escape p =>
    if c = 'u' then { s with mode := .unit p 4 0 }
    else match escapeChar? c with
      | some e => { s with mode := .inside (p.push e) }
      | none => s.stop
  | .unit p left v =>
    match Text.hexValue? c with
    | none => s.stop
    | some d =>
      if left ≤ 1 then { s with mode := .inside (p.pushUnit (v * 16 + d)) }
      else { s with mode := .unit p (left - 1) (v * 16 + d) }

/-- The end of the text. -/
def finish (s : State) : List Token :=
  let s := match s.mode with
    | .between | .stopped => s
    | .numeral p n => if p.mayEnd then s.emit (.number n.value?) else s.stop
    | _ => s.stop
  s.tokens.reverse

end Lexer

/-- The tokens of a text, up to where it stops being JSON. -/
def tokens (text : String) : List Token :=
  Lexer.finish (text.toList.foldl Lexer.step {})

end SessionCluster.Json
