/-
  Readers — values of a known shape from tokens.

  A reader takes what it needs from the front of a sequence of tokens and answers with a value
  and the rest.  It refuses in one of two ways, and always at the first token that forces it:
  `malformed` when the tokens stop being JSON there, `mismatched` when they are JSON of another
  shape.  Room is the number of containers that may still be opened; a text may nest 127 deep.

  Readers run on an explicit stack or over a list of fields, never by descending into the value,
  so the depth of a text costs no more than its length.
-/
import SessionCluster.Json.Lexer
import SessionCluster.Json.Value

namespace SessionCluster.Json

/-- Why a reader refuses. -/
inductive Refusal where
  | malformed
  | mismatched
deriving DecidableEq

/-- Takes a value from the front of a sequence of tokens, with room for so many containers. -/
abbrev Reader (α : Type) := Nat → List Token → Except Refusal (α × List Token)

/-- How many containers a text may nest. -/
def textRoom : Nat := 127

namespace Reader

variable {α β : Type}

/-- How a reader refuses a token that begins another shape than the wanted one. -/
def refuse : List Token → Refusal
  | .null :: _ | .bool _ :: _ | .beginArray :: _ | .beginObject :: _ => .mismatched
  | .number (some _) :: _ | .string (some _) :: _ => .mismatched
  | _ => .malformed

def map (f : α → β) (r : Reader α) : Reader β := fun room ts =>
  match r room ts with
  | .ok (a, rest) => .ok (f a, rest)
  | .error e => .error e

/-- A value that must also pass a check. -/
def check (f : α → Option β) (r : Reader α) : Reader β := fun room ts =>
  match r room ts with
  | .ok (a, rest) =>
    match f a with
    | some b => .ok (b, rest)
    | none => .error .mismatched
  | .error e => .error e

/-- A string. -/
def string : Reader String := fun _ ts =>
  match ts with
  | .string (some s) :: r => .ok (s, r)
  | _ => .error (refuse ts)

/-- A truth value. -/
def bool : Reader Bool := fun _ ts =>
  match ts with
  | .bool b :: r => .ok (b, r)
  | _ => .error (refuse ts)

/-- A whole number from zero up, below a bound. -/
def natural (bound : Nat) : Reader Nat := fun _ ts =>
  match ts with
  | .number (some (.natural n)) :: r => if n.toNat < bound then .ok (n.toNat, r) else .error .mismatched
  | _ => .error (refuse ts)

/-- Null, or a value. -/
def optional (r : Reader α) : Reader (Option α) := fun room ts =>
  match ts with
  | .null :: rest => .ok (none, rest)
  | _ => r.map some room ts

/-- One of several names, alone as a string or as the only member of an object with null. -/
def oneOf (choose : String → Option α) : Reader α := fun room ts =>
  let named (s : String) (rest : List Token) : Except Refusal (α × List Token) :=
    match choose s with
    | some a => .ok (a, rest)
    | none => .error .mismatched
  match ts with
  | .string (some s) :: r => named s r
  | .beginObject :: .string (some s) :: r =>
    if room = 0 then .error .malformed
    else match named s r with
      | .error e => .error e
      | .ok (a, .colon :: .null :: .endObject :: r) => .ok (a, r)
      | .ok (_, .colon :: .null :: _) => .error .malformed
      | .ok (_, .colon :: r) => .error (refuse r)
      | .ok (_, _) => .error .malformed
  | _ => .error (refuse ts)

/-! ## Any value -/

/-- A container that is still open: its items, last first, or its members and a name that waits
for its value. -/
inductive Frame where
  | items (done : List Json)
  | members (done : List (String × Json)) (name : String)

/-- What may come next. -/
inductive Expect where
  | value
  | itemOrEnd
  | name
  | nameOrEnd
  | colon
  | more

/-- Adds a value to the innermost open container. -/
def Frame.add (v : Json) : Frame → Frame
  | .items done => .items (v :: done)
  | .members done name => .members ((name, v) :: done) name

/-- The value of a container that ends. -/
def Frame.close : Frame → Json
  | .items done => .array done.reverse
  | .members done _ => .ofMembers done.reverse

/-- Reads on with the given containers open, innermost first. -/
def valueWith : Expect → List Frame → Reader Json
  | _, _, _, [] => .error .malformed
  | x, stack, room, t :: ts =>
    -- a value that is complete ends the reading unless it belongs to an open container
    let scalar (v : Json) : Except Refusal (Json × List Token) :=
      match stack with
      | [] => .ok (v, ts)
      | f :: fs => valueWith .more (f.add v :: fs) room ts
    let ending (_ : Unit) : Except Refusal (Json × List Token) :=
      match stack with
      | [] => .error .malformed
      | [f] => .ok (f.close, ts)
      | f :: g :: fs => valueWith .more (g.add f.close :: fs) (room + 1) ts
    match x, t, stack with
    | .itemOrEnd, .endArray, _ => ending ()
    | .nameOrEnd, .endObject, _ => ending ()
    | .more, .endArray, .items _ :: _ => ending ()
    | .more, .endObject, .members _ _ :: _ => ending ()
    | .more, .comma, .items _ :: _ => valueWith .value stack room ts
    | .more, .comma, .members _ _ :: _ => valueWith .name stack room ts
    | .name, .string (some s), .members done _ :: fs => valueWith .colon (.members done s :: fs) room ts
    | .nameOrEnd, .string (some s), .members done _ :: fs =>
      valueWith .colon (.members done s :: fs) room ts
    | .colon, .colon, _ => valueWith .value stack room ts
    | .value, .beginArray, _ | .itemOrEnd, .beginArray, _ =>
      if room = 0 then .error .malformed
      else valueWith .itemOrEnd (.items [] :: stack) (room - 1) ts
    | .value, .beginObject, _ | .itemOrEnd, .beginObject, _ =>
      if room = 0 then .error .malformed
      else valueWith .nameOrEnd (.members [] "" :: stack) (room - 1) ts
    | .value, .null, _ | .itemOrEnd, .null, _ => scalar .null
    | .value, .bool b, _ | .itemOrEnd, .bool b, _ => scalar (.bool b)
    | .value, .number (some n), _ | .itemOrEnd, .number (some n), _ => scalar (.number n)
    | .value, .string (some s), _ | .itemOrEnd, .string (some s), _ => scalar (.string s)
    | _, _, _ => .error .malformed

/-- Any value. -/
def value : Reader Json := valueWith .value []

/-! ## A value passed over -/

/-- Passes over a value, with the given containers open; `true` stands for an object. -/
def skipWith : Expect → List Bool → List Token → Except Refusal (List Token)
  | _, _, [] => .error .malformed
  | x, stack, t :: ts =>
    let scalar (_ : Unit) : Except Refusal (List Token) :=
      match stack with
      | [] => .ok ts
      | _ :: _ => skipWith .more stack ts
    let ending (_ : Unit) : Except Refusal (List Token) :=
      match stack with
      | [] => .error .malformed
      | [_] => .ok ts
      | _ :: outer => skipWith .more outer ts
    match x, t, stack with
    | .itemOrEnd, .endArray, _ => ending ()
    | .nameOrEnd, .endObject, _ => ending ()
    | .more, .endArray, false :: _ => ending ()
    | .more, .endObject, true :: _ => ending ()
    | .more, .comma, false :: _ => skipWith .value stack ts
    | .more, .comma, true :: _ => skipWith .name stack ts
    | .name, .string _, _ | .nameOrEnd, .string _, _ => skipWith .colon stack ts
    | .colon, .colon, _ => skipWith .value stack ts
    | .value, .beginArray, _ | .itemOrEnd, .beginArray, _ => skipWith .itemOrEnd (false :: stack) ts
    | .value, .beginObject, _ | .itemOrEnd, .beginObject, _ => skipWith .nameOrEnd (true :: stack) ts
    | .value, .null, _ | .itemOrEnd, .null, _ => scalar ()
    | .value, .bool _, _ | .itemOrEnd, .bool _, _ => scalar ()
    | .value, .number _, _ | .itemOrEnd, .number _, _ => scalar ()
    | .value, .string _, _ | .itemOrEnd, .string _, _ => scalar ()
    | _, _, _ => .error .malformed

/-- Passes over a value. -/
def skip (ts : List Token) : Except Refusal (List Token) := skipWith .value [] ts

/-! ## Structures of named fields -/

/-- A field of a structure that is being read into `σ`. -/
structure Field (σ : Type) where
  name : String
  /-- Whether the field has been read. -/
  filled : σ → Bool
  /-- Reads the field. -/
  read : σ → Reader σ

/-- A field held as an option until it is read. -/
def field {σ : Type} (name : String) (get : σ → Option α) (set : σ → α → σ) (r : Reader α) :
    Field σ where
  name := name
  filled s := (get s).isSome
  read s := r.map (set s)

/-- Reads members until the object ends.  Unknown names are passed over; a repeated name is
refused where it stands.  The first number bounds how many members there can be. -/
def membersWith {σ : Type} (fields : List (Field σ)) :
    Nat → Bool → σ → Reader σ
  | 0, _, _, _, _ => .error .malformed
  | fuel + 1, first, s, room, ts =>
    let named (name : Option String) (rest : List Token) : Except Refusal (σ × List Token) :=
      match name with
      | none => .error .malformed
      | some name =>
        match fields.find? (·.name == name) with
        | none =>
          match rest with
          | .colon :: rest =>
            match skip rest with
            | .ok rest => membersWith fields fuel false s room rest
            | .error e => .error e
          | _ => .error .malformed
        | some f =>
          if f.filled s then .error .mismatched
          else match rest with
            | .colon :: rest =>
              match f.read s room rest with
              | .ok (s, rest) => membersWith fields fuel false s room rest
              | .error e => .error e
            | _ => .error .malformed
    match first, ts with
    | _, .endObject :: rest => .ok (s, rest)
    | true, .string name :: rest => named name rest
    | false, .comma :: .string name :: rest => named name rest
    | _, _ => .error .malformed

/-- Reads the fields of a structure from the items of an array, in order.  When the array ends
early, `short` may still make do with what was read. -/
def itemsWith {σ : Type} (short : σ → Bool) : List (Field σ) → Bool → σ → Reader σ
  | [], _, s, _, ts =>
    match ts with
    | .endArray :: rest => .ok (s, rest)
    | _ => .error .malformed
  | f :: fs, first, s, room, ts =>
    match first, ts with
    | _, .endArray :: rest => if short s then .ok (s, rest) else .error .mismatched
    | false, .comma :: .endArray :: _ => .error .malformed
    | true, ts | false, .comma :: ts =>
      match f.read s room ts with
      | .ok (s, rest) => itemsWith short fs false s room rest
      | .error e => .error e
    | false, _ => .error .malformed

/-- A structure: an object with these fields, or an array of their values in order.  `short` says
what an array that ends early must have given, `build` makes the value unless a field is
missing. -/
def ofFields {σ : Type} (fields : List (Field σ)) (start : σ) (short : σ → Bool)
    (build : σ → Option α) : Reader α := fun room ts =>
  let body : Except Refusal (σ × List Token) :=
    match ts with
    | .beginObject :: rest =>
      if room = 0 then .error .malformed
      else membersWith fields (rest.length + 1) true start (room - 1) rest
    | .beginArray :: rest =>
      if room = 0 then .error .malformed else itemsWith short fields true start (room - 1) rest
    | _ => .error (refuse ts)
  match body with
  | .error e => .error e
  | .ok (s, rest) =>
    match build s with
    | some a => .ok (a, rest)
    | none => .error .mismatched

/-! ## Running a reader -/

/-- Reads a whole text. -/
def ofText (r : Reader α) (text : String) : Except Refusal α :=
  match r textRoom (tokens text) with
  | .ok (a, []) => .ok a
  | .ok (_, _ :: _) => .error .malformed
  | .error e => .error e

/-- Reads the front of a text; what follows the value does not matter. -/
def ofTextStart (r : Reader α) (text : String) : Except Refusal α :=
  match r textRoom (tokens text) with
  | .ok (a, _) => .ok a
  | .error e => .error e

/-- Reads a value that is already at hand, however deep it nests. -/
def ofValue (r : Reader α) (v : Json) : Except Refusal α :=
  let ts := v.toTokens
  match r ts.length ts with
  | .ok (a, _) => .ok a
  | .error e => .error e

end Reader

end SessionCluster.Json
