/-
  Listen addresses — an internet address and a port.

  An address of the fourth version is written with dots, and no part has a leading zero.  One of
  the sixth version stands in brackets: up to eight groups of at most four hexadecimal digits, of
  which one run of zeros may be left out as `::`, and of which the last two may be written with
  dots; after a percent sign it may name a zone.  Printing leaves out the longest run of zeros,
  if it has two groups or more, and of several the first.
-/
import SessionCluster.Text.Digits

namespace SessionCluster

/-- An internet address. -/
inductive Host where
  | v4 (parts : List Nat)
  | v6 (groups : List Nat) (zone : Nat)
deriving DecidableEq

/-- Where a node listens. -/
structure Address where
  host : Host
  port : Nat
deriving DecidableEq

namespace Address

/-! ## Reading

Each reader takes what it needs from the front, and answers with the rest. -/

/-- A decimal number below a bound, of any length. -/
def decimal? (bound : Nat) (cs : List Char) : Option (Nat × List Char) :=
  let ds := cs.takeWhile Text.isDigit
  let n := Text.ofDigits 0 ds
  if ds.isEmpty || bound ≤ n then none else some (n, cs.dropWhile Text.isDigit)

/-- A part of an address with dots: at most three digits, below 256, without a leading zero. -/
def part? (cs : List Char) : Option (Nat × List Char) :=
  let ds := cs.takeWhile Text.isDigit
  if 3 < ds.length || (1 < ds.length && ds.head? == some '0') then none else decimal? 256 cs

/-- More parts of an address with dots, each after a dot. -/
def moreParts? : Nat → List Char → Option (List Nat × List Char)
  | 0, cs => some ([], cs)
  | n + 1, '.' :: cs => do
    let (p, cs) ← part? cs
    let (ps, cs) ← moreParts? n cs
    some (p :: ps, cs)
  | _ + 1, _ => none

/-- Four parts with dots between them. -/
def dotted? (cs : List Char) : Option (List Nat × List Char) := do
  let (p, cs) ← part? cs
  let (ps, cs) ← moreParts? 3 cs
  some (p :: ps, cs)

/-- A group of one to four hexadecimal digits. -/
def group? (cs : List Char) : Option (Nat × List Char) :=
  let isHex (c : Char) := (Text.hexValue? c).isSome
  let ds := cs.takeWhile isHex
  if ds.isEmpty || 4 < ds.length then none
  else some (ds.foldl (fun n c => n * 16 + (Text.hexValue? c).getD 0) 0, cs.dropWhile isHex)

/-- Four parts as two groups. -/
def groupsOfParts : List Nat → List Nat
  | [a, b, c, d] => [a * 256 + b, c * 256 + d]
  | _ => []

/-- What follows a colon, which only the first group goes without. -/
def afterColon? (first : Bool) (cs : List Char) : Option (List Char) :=
  if first then some cs
  else match cs with
    | ':' :: cs => some cs
    | _ => none

/-- As many groups as there are, up to a number, and whether the last two had dots. -/
def groups : Nat → Bool → List Char → List Nat × Bool × List Char
  | 0, _, cs => ([], false, cs)
  | room + 1, first, cs =>
    match afterColon? first cs with
    | none => ([], false, cs)
    | some next =>
      match (if 1 ≤ room then dotted? next else none) with
      | some (ps, rest) => (groupsOfParts ps, true, rest)
      | none =>
        match group? next with
        | none => ([], false, cs)
        | some (g, rest) =>
          let (gs, dots, rest) := groups room false rest
          (g :: gs, dots, rest)

/-- The eight groups of an address. -/
def eight? (cs : List Char) : Option (List Nat × List Char) :=
  match groups 8 true cs with
  | (head, dots, rest) =>
    if head.length = 8 then some (head, rest)
    else if dots then none
    else match rest with
      | ':' :: ':' :: rest =>
        let (tail, _, rest) := groups (7 - head.length) true rest
        some (head ++ List.replicate (8 - head.length - tail.length) 0 ++ tail, rest)
      | _ => none

/-- The zone after a percent sign; without the sign it is zero. -/
def zone? : List Char → Option (Nat × List Char)
  | '%' :: cs => decimal? 4294967296 cs
  | cs => some (0, cs)

/-- A host. -/
def host? : List Char → Option (Host × List Char)
  | '[' :: cs => do
    let (gs, cs) ← eight? cs
    match ← zone? cs with
    | (zone, ']' :: cs) => some (.v6 gs zone, cs)
    | _ => none
  | cs => (dotted? cs).map fun (ps, cs) => (.v4 ps, cs)

/-- Reads an address. -/
def read? (s : String) : Option Address := do
  match ← host? s.toList with
  | (host, ':' :: cs) =>
    match ← decimal? 65536 cs with
    | (port, []) => some ⟨host, port⟩
    | _ => none
  | _ => none

/-! ## Printing -/

/-- Parts with dots between them. -/
def dottedText (parts : List Nat) : String := ".".intercalate (parts.map Text.decimal)

/-- Groups with colons between them. -/
def groupsText (gs : List Nat) : String :=
  ":".intercalate (gs.map fun g => String.ofList (Nat.toDigits 16 g))

/-- The first of the longest runs of zeros, as its start and its length, among groups of which
the first has the number `i`; `current` is the length of the run that ends there. -/
def longestZeros (i current : Nat) (best : Nat × Nat) : List Nat → Nat × Nat
  | [] => best
  | g :: gs =>
    if g = 0 then
      let run := current + 1
      longestZeros (i + 1) run (if best.2 < run then (i + 1 - run, run) else best) gs
    else longestZeros (i + 1) 0 best gs

/-- The text of eight groups. -/
def eightText (gs : List Nat) : String :=
  if gs.take 6 = [0, 0, 0, 0, 0, 65535] then
    "::ffff:" ++ dottedText ((gs.drop 6).flatMap fun g => [g / 256, g % 256])
  else
    let (start, length) := longestZeros 0 0 (0, 0) gs
    if 1 < length then groupsText (gs.take start) ++ "::" ++ groupsText (gs.drop (start + length))
    else groupsText gs

/-- The text of an address. -/
def text (a : Address) : String :=
  let host := match a.host with
    | .v4 parts => dottedText parts
    | .v6 gs 0 => "[" ++ eightText gs ++ "]"
    | .v6 gs zone => "[" ++ eightText gs ++ "%" ++ Text.decimal zone ++ "]"
  host ++ ":" ++ Text.decimal a.port

end Address

end SessionCluster
