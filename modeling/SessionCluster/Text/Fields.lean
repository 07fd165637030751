/-
  Small cuts of a text: at the first or the last place where a separator stands.
-/

namespace SessionCluster.Text

/-- The parts before and after the first occurrence of a character. -/
def splitFirst? (sep : Char) (cs : List Char) : Option (List Char × List Char) :=
  match cs.dropWhile (· != sep) with
  | [] => none
  | _ :: after => some (cs.takeWhile (· != sep), after)

/-- The parts before and after the last occurrence of a character. -/
def splitLast? (sep : Char) (cs : List Char) : Option (List Char × List Char) :=
  (splitFirst? sep cs.reverse).map fun (after, before) => (before.reverse, after.reverse)

/-- All parts between the occurrences of a character. -/
def splitAll (sep : Char) (cs : List Char) : List (List Char) :=
  let (last, parts) := cs.foldr
    (fun c (cur, done) => if c == sep then ([], cur :: done) else (c :: cur, done)) ([], [])
  last :: parts

/-- What is left of a text that begins with the given characters. -/
def dropStart? : List Char → List Char → Option (List Char)
  | [], cs => some cs
  | _ :: _, [] => none
  | p :: ps, c :: cs => if p = c then dropStart? ps cs else none

/-- ASCII letters in lower case, everything else unchanged. -/
def lower (s : String) : String :=
  String.ofList (s.toList.map Char.toLower)

end SessionCluster.Text
