import CaseHarvest.Json.Basic
import CaseHarvest.Bytes
/-!
Writing JSON with one item a line, each level indented by two blanks.
-/
namespace CaseHarvest

/-- The digits of a numeral as they are written. -/
def Numeral.render (n : Numeral) : List Char :=
  let digits (ds : List Nat) : List Char := ds.map fun d => Char.ofNat ('0'.toNat + d)
  (if n.negative then ['-'] else []) ++ digits n.whole
    ++ (match n.fraction with
        | some ds => '.' :: digits ds
        | none => [])
    ++ (match n.exponent with
        | some e => 'e' :: (toString e).toList
        | none => [])

namespace Json

/-- A control character without a short escape. -/
def escapeControl (c : Char) : List Char :=
  ['\\', 'u', '0', '0', Bytes.hexDigit (c.toNat / 16), Bytes.hexDigit (c.toNat % 16)]

def escapeChar (c : Char) : List Char :=
  match c with
  | '"' => ['\\', '"']
  | '\\' => ['\\', '\\']
  | '\x08' => ['\\', 'b']
  | '\x0c' => ['\\', 'f']
  | '\n' => ['\\', 'n']
  | '\r' => ['\\', 'r']
  | '\t' => ['\\', 't']
  | c => if c.toNat < 0x20 then escapeControl c else [c]

def renderText (s : String) : List Char := '"' :: s.toList.flatMap escapeChar ++ ['"']

def newline (level : Nat) : List Char := '\n' :: List.replicate (2 * level) ' '

mutual

/-- The text of a value whose first line is already under way at a level. -/
def render (level : Nat) : Json → List Char
  | .null => ['n', 'u', 'l', 'l']
  | .bool true => ['t', 'r', 'u', 'e']
  | .bool false => ['f', 'a', 'l', 's', 'e']
  | .number n => n.render
  | .string s => renderText (s.getD "")
  | .array [] => ['[', ']']
  | .array (item :: items) =>
    '[' :: newline (level + 1) ++ render (level + 1) item ++ renderItems (level + 1) items
      ++ newline level ++ [']']
  | .object [] => ['\x7b', '\x7d']
  | .object ((key, value) :: members) =>
    '\x7b' :: newline (level + 1) ++ renderText (key.getD "")
      ++ ':' :: ' ' :: render (level + 1) value
      ++ renderMembers (level + 1) members ++ newline level ++ ['\x7d']

/-- The items after the first. -/
def renderItems (level : Nat) : List Json → List Char
  | [] => []
  | item :: items => ',' :: newline level ++ render level item ++ renderItems level items

/-- The members after the first. -/
def renderMembers (level : Nat) : List (Option String × Json) → List Char
  | [] => []
  | (key, value) :: members =>
    ',' :: newline level ++ renderText (key.getD "") ++ ':' :: ' ' :: render level value
      ++ renderMembers level members

end

def pretty (value : Json) : String := String.ofList (value.render 0)

end Json

end CaseHarvest
