import CaseHarvest.Yaml.Spot
import CaseHarvest.Yaml.Token.Basic
/-!
Reading scalars: plain ones, quoted ones and blocks of lines. In the first two, a gap that holds
line breaks is folded: one break becomes a space and of more than one the first is dropped.
-/
namespace CaseHarvest.Yaml

/-- What a gap between characters of a scalar stands for. -/
def foldGap (gap : List Char) : List Char :=
  match gap.filter isBreak with
  | [] => gap
  | ['\n'] => [' ']
  | '\n' :: breaks => breaks
  | breaks => breaks

/-! ## Plain -/

/-- What cannot follow a colon in a plain scalar of a flow collection. -/
def isFlowMark (c : Char) : Bool := c = ',' || c = '[' || c = ']' || c = '\x7b' || c = '\x7d'

def endsPlain (flow : Bool) (c : Char) (rest : List Spot) : Bool :=
  (c = ':' && atGap rest) || (flow && isFlowMark c)

/-- A colon that neither ends a plain scalar nor belongs to one. -/
def isStrayColon (flow : Bool) (c : Char) (rest : List Spot) : Bool :=
  flow && c = ':' && rest.head?.any fun s => s.char = '?' || isFlowMark s.char

/-- A plain scalar, whether a line break was passed at its end, and what follows. A line that is
indented less than `indent` ends the scalar unless it stands in a flow collection. -/
def plain? (flow : Bool) (indent : Int) (gap : List Char) :
    List Spot → Option (List Char × Bool × List Spot)
  | [] => some ([], gap.any isBreak, [])
  | s :: rest =>
    if isGap s.char then
      if s.char = '\t' ∧ gap.any isBreak ∧ s.column < indent then none
      else plain? flow indent (gap ++ [s.char]) rest
    else if gap ≠ [] ∧
        ((!flow ∧ s.column < indent) ∨ atDocumentMark (s :: rest) ∨ s.char = '#') then
      some ([], gap.any isBreak, s :: rest)
    else if isStrayColon flow s.char rest then none
    else if endsPlain flow s.char rest then some ([], gap.any isBreak, s :: rest)
    else do
      let (text, broken, rest) ← plain? flow indent [] rest
      return (foldGap gap ++ s.char :: text, broken, rest)

/-! ## Quoted -/

/-- What follows the quotation mark that opens a scalar, up to the one that closes it; two marks
stand for one. -/
def singleQuoted? (gap : List Char) : List Spot → Option (List Char × List Spot)
  | [] => none
  | s :: rest =>
    if isGap s.char then singleQuoted? (gap ++ [s.char]) rest
    else if atDocumentMark (s :: rest) then none
    else if s.char = '\'' then
      match rest with
      | t :: rest' =>
        if t.char = '\'' then do
          let (text, rest) ← singleQuoted? [] rest'
          return (foldGap gap ++ '\'' :: text, rest)
        else some (foldGap gap, t :: rest')
      | [] => some (foldGap gap, [])
    else do
      let (text, rest) ← singleQuoted? [] rest
      return (foldGap gap ++ s.char :: text, rest)

/-- What the character after a backslash stands for, or how many hexadecimal digits it calls for. -/
inductive Escape where
  | char (c : Char)
  | digits (count : Nat)

def escape? : Char → Option Escape
  | '0' => some (.char '\x00')
  | 'a' => some (.char '\x07')
  | 'b' => some (.char '\x08')
  | 't' => some (.char '\t')
  | '\t' => some (.char '\t')
  | 'n' => some (.char '\n')
  | 'v' => some (.char '\x0b')
  | 'f' => some (.char '\x0c')
  | 'r' => some (.char '\r')
  | 'e' => some (.char '\x1b')
  | ' ' => some (.char ' ')
  | '"' => some (.char '"')
  | '/' => some (.char '/')
  | '\\' => some (.char '\\')
  | 'N' => some (.char '\u0085')
  | '_' => some (.char '\u00a0')
  | 'L' => some (.char '\u2028')
  | 'P' => some (.char '\u2029')
  | 'x' => some (.digits 2)
  | 'u' => some (.digits 4)
  | 'U' => some (.digits 8)
  | _ => none

def hexValue? (c : Char) : Option Nat :=
  if '0' ≤ c ∧ c ≤ '9' then some (c.toNat - '0'.toNat)
  else if 'a' ≤ c ∧ c ≤ 'f' then some (c.toNat - 'a'.toNat + 10)
  else if 'A' ≤ c ∧ c ≤ 'F' then some (c.toNat - 'A'.toNat + 10)
  else none

/-- The character of a code point, if it has one. -/
def charOfCode? (n : Nat) : Option Char := if n.isValidChar then some (Char.ofNat n) else none

/-- Where reading between double quotation marks stands. -/
inductive Quoting where
  /-- Behind some blanks and breaks. -/
  | gap (chars : List Char)
  /-- As `gap`, but the first break was escaped: of the gap only its breaks count. -/
  | joined (chars : List Char)
  /-- Behind a backslash. -/
  | escape
  /-- In the digits of a code point, with so many still to come. -/
  | code (value missing : Nat)

/-- What stands for what has been passed since the last character. -/
def Quoting.pending : Quoting → List Char
  | gap chars => foldGap chars
  | joined chars => chars.filter isBreak
  | escape => []
  | code _ _ => []

/-- What follows the quotation mark that opens a scalar, up to the one that closes it. -/
def doubleQuoted? : Quoting → List Spot → Option (List Char × List Spot)
  | _, [] => none
  | .code value missing, s :: rest => do
    let value := 16 * value + (← hexValue? s.char)
    if missing ≤ 1 then
      let c ← charOfCode? value
      let (text, rest) ← doubleQuoted? (.gap []) rest
      return (c :: text, rest)
    else doubleQuoted? (.code value (missing - 1)) rest
  | .escape, s :: rest =>
    if isBreak s.char then doubleQuoted? (.joined []) rest
    else
      match escape? s.char with
      | none => none
      | some (.char c) => do
        let (text, rest) ← doubleQuoted? (.gap []) rest
        return (c :: text, rest)
      | some (.digits count) => doubleQuoted? (.code 0 count) rest
  | .gap chars, s :: rest =>
    if isGap s.char then doubleQuoted? (.gap (chars ++ [s.char])) rest
    else if atDocumentMark (s :: rest) then none
    else if s.char = '"' then some (foldGap chars, rest)
    else if s.char = '\\' then do
      let (text, rest) ← doubleQuoted? .escape rest
      return (foldGap chars ++ text, rest)
    else do
      let (text, rest) ← doubleQuoted? (.gap []) rest
      return (foldGap chars ++ s.char :: text, rest)
  | .joined chars, s :: rest =>
    if isGap s.char then doubleQuoted? (.joined (chars ++ [s.char])) rest
    else if atDocumentMark (s :: rest) then none
    else if s.char = '"' then some (chars.filter isBreak, rest)
    else if s.char = '\\' then do
      let (text, rest) ← doubleQuoted? .escape rest
      return (chars.filter isBreak ++ text, rest)
    else do
      let (text, rest) ← doubleQuoted? (.gap []) rest
      return (chars.filter isBreak ++ s.char :: text, rest)

/-! ## Blocks -/

/-- What becomes of the line breaks at the end of a block. -/
inductive Chomping where
  | strip
  | clip
  | keep
  deriving DecidableEq

/-- The chomping and the indentation that a block announces behind its mark, in either order. -/
def blockHeader? (spots : List Spot) : Option (Chomping × Option Nat × List Spot) :=
  let chomping : List Spot → Option Chomping × List Spot
    | s :: rest =>
      if s.char = '+' then (some .keep, rest)
      else if s.char = '-' then (some .strip, rest)
      else (none, s :: rest)
    | [] => (none, [])
  let (before, spots) := chomping spots
  let (digit, spots) := match spots with
    | s :: rest =>
      if s.char.isDigit then (some (s.char.toNat - '0'.toNat), rest) else (none, s :: rest)
    | [] => (none, [])
  let (after, spots) := if before.isNone && digit.isSome then chomping spots else (none, spots)
  if digit = some 0 then none
  else some ((before.or after).getD .clip, digit, spots)

/-- The breaks of the empty lines at the front, the greatest column that was reached, and what
follows. Spaces are indentation up to the given column, or all of them if none is given; tabs are
none. -/
def emptyLines? (indent : Option Nat) (widest : Nat) :
    List Spot → Option (List Char × Nat × List Spot)
  | [] => some ([], widest, [])
  | s :: rest =>
    let isIndentation := indent.all (s.column < ·)
    if isIndentation && s.char = ' ' then emptyLines? indent widest rest
    else if isIndentation && s.char = '\t' then none
    else if isBreak s.char then do
      let (breaks, widest, rest) ← emptyLines? indent (max widest s.column) rest
      return (s.char :: breaks, widest, rest)
    else some ([], max widest s.column, s :: rest)

/-- The lines of a block and what follows them. `lead` is the break behind the line before, `breaks`
are those of the empty lines since, and `indented` tells whether that line began with a blank. -/
def blockLines? (folded : Bool) (chomping : Chomping) (indent : Nat) :
    (fuel : Nat) → (lead breaks : List Char) → (indented : Bool) → List Spot →
      Option (List Char × List Spot)
  | 0, _, _, _, _ => none
  | fuel + 1, lead, breaks, indented, spots =>
    match spots with
    | [] => some (ending lead breaks, [])
    | s :: rest =>
      if s.column ≠ indent then some (ending lead breaks, s :: rest)
      else do
        let isIndented := isBlank s.char
        let joint :=
          if folded && lead = ['\n'] && !indented && !isIndented then
            if breaks.isEmpty then [' '] else []
          else lead
        let (line, rest) := (s :: rest).span (!isBreak ·.char)
        let next := (rest.take 1).map (·.char)
        let (nextBreaks, _, rest) ← emptyLines? (some indent) 0 (rest.drop 1)
        let (text, rest) ← blockLines? folded chomping indent fuel next nextBreaks isIndented rest
        return (joint ++ breaks ++ line.map (·.char) ++ text, rest)
where
  ending (lead breaks : List Char) : List Char :=
    match chomping with
    | .strip => []
    | .clip => lead
    | .keep => lead ++ breaks

/-- A block behind its mark, in a surrounding of the given indentation. A block that announces no
indentation takes it from its first line that is not empty. -/
def block? (folded : Bool) (outer : Int) (spots : List Spot) : Option (List Char × List Spot) := do
  let (chomping, announced, spots) ← blockHeader? spots
  let spots ← skipLineEnd? spots
  let given := announced.map fun n => (max outer 0).toNat + n
  let (breaks, widest, spots) ← emptyLines? given 0 spots
  let indent := given.getD (max widest (max (outer + 1) 1).toNat)
  blockLines? folded chomping indent (spots.length + 1) [] breaks false spots

end CaseHarvest.Yaml
