/-!
Dividing texts: into pieces between separators, and from the blanks around them.
-/
namespace CaseHarvest

/-- The pieces between separators; there is at least one. -/
def piecesBetween (separator : Char) : List Char → List (List Char)
  | [] => [[]]
  | c :: cs =>
    if c = separator then [] :: piecesBetween separator cs
    else
      match piecesBetween separator cs with
      | piece :: pieces => (c :: piece) :: pieces
      | [] => [[c]]

/-- White space in any script. -/
def isWhiteSpace (c : Char) : Bool :=
  let n := c.toNat
  (0x09 ≤ n && n ≤ 0x0d) || n = 0x20 || n = 0x85 || n = 0xa0 || n = 0x1680
    || (0x2000 ≤ n && n ≤ 0x200a) || n = 0x2028 || n = 0x2029 || n = 0x202f || n = 0x205f
    || n = 0x3000

/-- A text without the white space around it. -/
def trimWhiteSpace (cs : List Char) : List Char :=
  ((cs.dropWhile isWhiteSpace).reverse.dropWhile isWhiteSpace).reverse

end CaseHarvest
