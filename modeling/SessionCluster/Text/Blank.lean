/-
  Blank characters — which characters count as white space, and which as controls.

  Session keys may hold neither, and a node name must hold something besides white space.
  Both classes are those of the Unicode character database (`White_Space` and the category
  `Cc`), so a no-break space or an ideographic space in a key is refused as well.
-/

namespace SessionCluster.Text

/-- The characters with the Unicode property `White_Space`. -/
def isBlank (c : Char) : Bool :=
  let n := c.toNat
  (0x09 ≤ n && n ≤ 0x0D) || n == 0x20 || n == 0x85 || n == 0xA0 || n == 0x1680 ||
    (0x2000 ≤ n && n ≤ 0x200A) || n == 0x2028 || n == 0x2029 || n == 0x202F || n == 0x205F ||
    n == 0x3000

/-- The control characters: Unicode category `Cc`. -/
def isControl (c : Char) : Bool :=
  let n := c.toNat
  n ≤ 0x1F || (0x7F ≤ n && n ≤ 0x9F)

/-- A text without a character that is not blank; the empty text is one. -/
def allBlank (s : String) : Bool :=
  s.toList.all isBlank

/-- The text without its leading blanks. -/
def dropBlanks (cs : List Char) : List Char :=
  cs.dropWhile isBlank

end SessionCluster.Text
