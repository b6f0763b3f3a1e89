import CaseHarvest.Regex.CharSet
/-!
Patterns for texts, and cutting off a part of a text that matches one.
-/
namespace CaseHarvest.Rehearsal

inductive PatternItem where
  | char (c : Char)
  | oneOf (set : CharSet)
  /-- Any characters, or none. -/
  | many
  deriving DecidableEq, Repr

abbrev Pattern := List PatternItem

/-- A character of a word, and whether it stands for itself. -/
abbrev Mark := Char × Bool

namespace Pattern

/-- The name of a set in a bracket, up to the colon and the bracket that close it. -/
def className : List Mark → Option (List Char × List Mark)
  | (':', _) :: (']', _) :: rest => some ([], rest)
  | (c, _) :: rest => (className rest).map fun (cs, rest) => (c :: cs, rest)
  | [] => none

/-- One item of a bracket. -/
def bracketItem : List Mark → Option (CharSet × List Mark)
  | [] => none
  | ('[', false) :: (':', _) :: rest =>
    match className rest with
    | some (name, rest) => some ((CharSet.named? (String.ofList name)).getD .empty, rest)
    | none => some (.single '[', (':', false) :: rest)
  | (a, _) :: ('-', false) :: (b, quoted) :: rest =>
    if b = ']' ∧ !quoted then some (.single a, ('-', false) :: (b, quoted) :: rest)
    else some (.range a b, rest)
  | (a, _) :: rest => some (.single a, rest)

/-- The items of a bracket up to its end. -/
def bracketItems : (fuel : Nat) → List Mark → Option (CharSet × List Mark)
  | 0, _ => none
  | _ + 1, (']', false) :: rest => some (.empty, rest)
  | fuel + 1, marks => do
    let (a, rest) ← bracketItem marks
    let (b, rest) ← bracketItems fuel rest
    return (a.union b, rest)

/-- What follows an opening bracket. A closing bracket at the front belongs to the set. -/
def bracket? (marks : List Mark) : Option (CharSet × List Mark) :=
  let inside (marks : List Mark) : Option (CharSet × List Mark) := do
    let (a, rest) ← bracketItem marks
    let (b, rest) ← bracketItems (marks.length + 1) rest
    return (a.union b, rest)
  match marks with
  | ('!', false) :: rest => (inside rest).map fun (set, rest) => (set.complement, rest)
  | ('^', false) :: rest => (inside rest).map fun (set, rest) => (set.complement, rest)
  | marks => inside marks

def read : (fuel : Nat) → List Mark → Pattern
  | 0, _ => []
  | _, [] => []
  | fuel + 1, (c, quoted) :: rest =>
    if quoted then .char c :: read fuel rest
    else
      match c, rest with
      | '*', rest => .many :: read fuel rest
      | '?', rest => .oneOf .all :: read fuel rest
      | '\\', (d, _) :: rest => .char d :: read fuel rest
      | '[', rest =>
        match bracket? rest with
        | some (set, rest) => .oneOf set :: read fuel rest
        | none => .char '[' :: read fuel rest
      | c, rest => .char c :: read fuel rest

/-- What the characters of a word mean as a pattern. -/
def ofMarks (marks : List Mark) : Pattern := read marks.length marks

/-- Whether a pattern may match more than one text. -/
def isOpen (p : Pattern) : Bool :=
  p.any fun
    | .char _ => false
    | _ => true

/-- Whether a suffix of a text, or the text itself, passes a test. -/
def anySuffix (test : List Char → Bool) : List Char → Bool
  | [] => test []
  | c :: cs => test (c :: cs) || anySuffix test cs

def isMatch : Pattern → List Char → Bool
  | [], cs => cs.isEmpty
  | .char c :: p, cs =>
    match cs with
    | [] => false
    | d :: cs => c = d && isMatch p cs
  | .oneOf set :: p, cs =>
    match cs with
    | [] => false
    | d :: cs => set.contains d && isMatch p cs
  | .many :: p, cs => anySuffix (isMatch p) cs

end Pattern

/-- Which part of a text is cut off if it matches. -/
inductive Trim where
  | shortestFront
  | longestFront
  | shortestEnd
  | longestEnd
  deriving DecidableEq, Repr

/-- Lengths in the order in which they are tried. -/
def Trim.lengths (t : Trim) (length : Nat) : List Nat :=
  let ascending := List.range (length + 1)
  match t with
  | shortestFront => ascending
  | longestFront => ascending.reverse
  | shortestEnd => ascending
  | longestEnd => ascending.reverse

/-- The text without the first part that matches, or the whole text. -/
def Trim.apply (t : Trim) (p : Pattern) (cs : List Char) : List Char :=
  let cut (n : Nat) : List Char × List Char :=
    match t with
    | shortestFront => cs.splitAt n
    | longestFront => cs.splitAt n
    | shortestEnd => (cs.drop (cs.length - n), cs.take (cs.length - n))
    | longestEnd => (cs.drop (cs.length - n), cs.take (cs.length - n))
  match ((t.lengths cs.length).map cut).find? fun (part, _) => p.isMatch part with
  | some (_, rest) => rest
  | none => cs

end CaseHarvest.Rehearsal
