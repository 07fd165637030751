/-
  Settings from environment variables.

  The variables of a node have names that begin with `SESSION_GRID__`; what follows is the path of
  a setting, its parts set apart by two underscores: `SESSION_GRID__SERVER__PORT`.  Letters count
  in either case, and of two variables with one path the later counts.  A path with an empty part
  is no path, and one that the schema does not know is passed over.

  A value is a text.  Where a number or a truth value is wanted it is one of the words below, or
  a number that fits.  A section cannot have a value of its own, and a setting cannot have parts,
  except that a choice may be named by the last part of its path.
-/
import SessionCluster.Settings.Schema
import SessionCluster.Text.Fields

namespace SessionCluster.Settings

/-! ## Values -/

/-- The words for yes. -/
def yesWords : List String := ["true", "on", "yes"]

/-- The words for no. -/
def noWords : List String := ["false", "off", "no"]

/-- A number from a text. -/
def numberOf? (bound : Nat) (s : String) : Option Nat :=
  if Text.lower s ∈ yesWords then some 1
  else if Text.lower s ∈ noWords then some 0
  else Text.unsigned? bound s

/-- A truth value from a text. -/
def truthOf? (s : String) : Option Bool :=
  if Text.lower s ∈ "1" :: yesWords then some true
  else if Text.lower s ∈ "0" :: noWords then some false
  else none

variable {σ : Type}

/-- How a setting is changed by a text. -/
def Kind.ofText? : Kind σ → String → Option (σ → σ)
  | .text set, s => some (set s)
  | .optionalText set, s => some (set (some s))
  | .number bound set, s => (numberOf? bound s).map set
  | .truth set, s => (truthOf? s).map set
  | .choice named, s => named.lookup (Text.lower s)

/-- How a setting is changed by the first part of a path below it. -/
def Kind.ofPart? : Kind σ → String → Option (σ → σ)
  | .choice named, part => named.lookup part
  | _, _ => none

/-! ## Paths -/

/-- A variable: its path, and its value. -/
abbrev Variable := List String × String

/-- The parts between separators, which are a dot or two underscores. -/
def partsOf : List Char → List (List Char)
  | [] => [[]]
  | '_' :: '_' :: cs => [] :: partsOf cs
  | '.' :: cs => [] :: partsOf cs
  | c :: cs =>
    match partsOf cs with
    | p :: ps => (c :: p) :: ps
    | [] => [[c]]

/-- How the names of a node's variables begin, in lower case. -/
def nameStart : String := "session_grid__"

/-- The path that a name spells. -/
def path? (name : String) : Option (List String) :=
  match Text.dropStart? nameStart.toList (Text.lower name).toList with
  | none => none
  | some rest => if (partsOf rest).any List.isEmpty then none else some ((partsOf rest).map String.ofList)

/-- The variables below a part, with the rest of their paths. -/
def below (part : String) (vs : List Variable) : List Variable :=
  vs.filterMap fun (path, value) =>
    match path with
    | p :: rest => if p = part then some (rest, value) else none
    | [] => none

/-! ## Settings -/

/-- How a setting is changed by the variables below it. -/
def Item.change? (i : Item σ) (vs : List Variable) : Option (σ → σ) :=
  match vs.filterMap (·.1.head?), vs.getLast? with
  | part :: more, _ => if more.all (· == part) then i.kind.ofPart? part else none
  | [], some (_, value) => i.kind.ofText? value
  | [], none => some id

/-- Changes settings by the variables below a section. -/
def Section.change? (c : Section) (vs : List Variable) (s : Settings) : Option Settings :=
  if !vs.isEmpty && vs.all (·.1.isEmpty) then none
  else c.items.foldlM (fun s i => (i.change? (below i.name vs)).map fun f => f s) s

/-- The settings that named values spell, the later of two values counting. -/
def ofVariables? (named : List (String × String)) : Option Settings :=
  let vs : List Variable := named.filterMap fun (name, value) => (path? name).map (·, value)
  schema.foldlM (fun s c => c.change? (below c.name vs) s) {}

end SessionCluster.Settings
