import CaseHarvest.Text.Pieces
/-!
Paths as texts: their directory, last name and extension, and how they are joined. Empty pieces and
pieces that are a single dot mean nothing, except for a dot at the front.
-/
namespace CaseHarvest.Path

def isSeparator (c : Char) : Bool := c = '/'

/-- The pieces of a path; there is at least one. -/
def pieces (path : String) : List String := (piecesBetween '/' path.toList).map String.ofList

def isAbsolute (path : String) : Bool := path.toList.head?.any isSeparator

/-- Whether a piece behind a separator names nothing. -/
def isIdle (piece : String) : Bool := piece = "" || piece = "."

/-- Whether a piece can be the name of an entry of a directory. -/
def isName (piece : String) : Bool :=
  !isIdle piece && piece ≠ ".." && piece.toList.all fun c => !isSeparator c && c ≠ '\x00'

/-- The first piece, and the others from the last one that names something back to the front. -/
def backwards (path : String) : String × List String :=
  match pieces path with
  | [] => ("", [])
  | first :: others => (first, others.reverse.dropWhile isIdle)

def assemble (first : String) (others : List String) : String :=
  if first = "" ∧ others = [] then "/" else "/".intercalate (first :: others)

/-- The path without its last component; the root and the empty path have no parent. -/
def parent? (path : String) : Option String :=
  match backwards path with
  | (first, _ :: rest) => some (assemble first (rest.dropWhile isIdle).reverse)
  | (first, []) => if first = "" then none else some ""

/-- The directory that a path lies in; for a bare name that is the current one. -/
def directory (path : String) : String :=
  match parent? path with
  | some parent => if parent = "" then "." else parent
  | none => "."

/-- The last component, if it is a name. -/
def fileName? (path : String) : Option String :=
  let last := match backwards path with
    | (_, last :: _) => last
    | (first, []) => first
  if last = "" ∨ last = "." ∨ last = ".." then none else some last

/-- A name cut at its last dot, if there is one. -/
def cutAtDot? (name : List Char) : Option (List Char × List Char) :=
  match name.reverse.span (· != '.') with
  | (_, []) => none
  | (after, _ :: before) => some (before.reverse, after.reverse)

/-- What follows the last dot of the last component, unless that dot stands at the front. -/
def extension? (path : String) : Option String := do
  let name ← fileName? path
  let (stem, ext) ← cutAtDot? name.toList
  if stem.isEmpty then none else some (String.ofList ext)

/-- A path seen from a directory. An absolute path stands for itself. -/
def join (dir path : String) : String :=
  if isAbsolute path then path
  else if dir = "" ∨ dir.toList.getLast?.any isSeparator then dir ++ path
  else dir ++ "/" ++ path

/-- How many components a path has: the root, a dot at the front, and all that name something. -/
def componentCount (path : String) : Nat :=
  match pieces path with
  | [] => 0
  | first :: others =>
    (if first ≠ "" ∨ others ≠ [] then 1 else 0) + (others.filter fun p => !isIdle p).length

/-- The pieces that name something, without a dot at the front. -/
def names (path : String) : List String := (pieces path).filter fun p => !isIdle p

end CaseHarvest.Path
