import CaseHarvest.Regex.CharSet
/-!
Regular expressions, and whether one matches somewhere in a text. An expression leads from places in
a text to other places; it matches if some place leads to any.
-/
namespace CaseHarvest

/-- A condition on a place between two characters. -/
inductive Anchor where
  | textStart
  | textEnd
  /-- Lines end at line feeds, or also at carriage returns, where the two together are one end. -/
  | lineStart (returns : Bool)
  | lineEnd (returns : Bool)
  /-- Where a word begins or ends, or where neither is so. -/
  | wordBoundary
  | noWordBoundary
  | wordStart
  | wordEnd
  /-- Behind no word character, before no word character. -/
  | wordStartHalf
  | wordEndHalf
  deriving DecidableEq, Repr

namespace Anchor

/-- Whether a place has the characters around it that an anchor asks for. -/
def holds (a : Anchor) (before after : Option Char) : Bool :=
  let inWord (c : Option Char) : Bool := c.any CharSet.wordChars.contains
  match a with
  | textStart => before.isNone
  | textEnd => after.isNone
  | lineStart false => before.all (· = '\n')
  | lineStart true => before.all (· = '\n') || (before = some '\r' && after ≠ some '\n')
  | lineEnd false => after.all (· = '\n')
  | lineEnd true => after.all (· = '\r') || (after = some '\n' && before ≠ some '\r')
  | wordBoundary => inWord before != inWord after
  | noWordBoundary => inWord before == inWord after
  | wordStart => !inWord before && inWord after
  | wordEnd => inWord before && !inWord after
  | wordStartHalf => !inWord before
  | wordEndHalf => !inWord after

def holdsAt (a : Anchor) (text : Array Char) (place : Nat) : Bool :=
  a.holds (if place = 0 then none else text[place - 1]?) text[place]?

end Anchor

inductive Regex where
  /-- Matches between any two characters. -/
  | empty
  | chars (set : CharSet)
  | anchor (a : Anchor)
  | concat (a b : Regex)
  | alternate (a b : Regex)
  /-- As often as `least` and at most as often as `most`, if that is given. -/
  | repeated (r : Regex) (least : Nat) (most : Option Nat)
  deriving DecidableEq, Repr

namespace Regex

/-- The places that steps lead to in a number of rounds, and those that were reached before. -/
def widen (step : List Nat → List Nat) : (rounds : Nat) → (reached latest : List Nat) → List Nat
  | 0, reached, _ => reached
  | rounds + 1, reached, latest =>
    let new := (step latest).filter (· ∉ reached)
    if new.isEmpty then reached else widen step rounds (reached ++ new) new

/-- The places that an expression leads to from some places. Without a limit, more rounds than there
are places lead nowhere else. -/
def reach (text : Array Char) : Regex → List Nat → List Nat
  | empty, places => places
  | chars set, places => (places.filter fun p => text[p]?.any set.contains).map (· + 1)
  | anchor a, places => places.filter (a.holdsAt text)
  | concat a b, places => b.reach text (a.reach text places)
  | alternate a b, places =>
    let reached := a.reach text places
    reached ++ (b.reach text places).filter (· ∉ reached)
  | repeated r least most, places =>
    let step := r.reach text
    let first := Nat.repeat step least places
    let rounds := (most.map (· - least)).elim (text.size + 1) (min (text.size + 1))
    widen step rounds first first

/-- Whether the expression matches a part of a text. -/
def isMatch (r : Regex) (text : String) : Bool :=
  let chars := text.toList.toArray
  !(r.reach chars (List.range (chars.size + 1))).isEmpty

/-- How much room an expression takes once repetitions are written out, in bytes. -/
def room : Regex → Nat
  | empty => 32
  | chars set => if set.contains '\u0080' then 500 else 32
  | anchor _ => 32
  | concat a b => a.room + b.room
  | alternate a b => 40 + a.room + b.room
  | repeated r least most => 40 + r.room * max 1 (most.getD (least + 1))

end Regex

end CaseHarvest
