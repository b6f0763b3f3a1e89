import CaseHarvest.Yaml.Token.Tag
/-!
The tokens of a text. Indentation opens and closes block collections. A mapping key may stand
without a mark in front of it, so that its token is put in only when the colon behind it is found.
-/
namespace CaseHarvest.Yaml

/-- A place where a key without a mark may have begun. -/
structure PendingKey where
  /-- Nothing but a key can stand there. -/
  required : Bool
  /-- How many tokens there were before. -/
  position : Nat
  /-- The first character of the key. -/
  first : Spot

structure Scan where
  rest : List Spot
  tokens : Array Token := #[]
  /-- The column of the innermost block collection, -1 outside of all. -/
  indent : Int := -1
  outerIndents : List Int := []
  /-- Whether a key without a mark may begin here. -/
  keyAllowed : Bool := true
  pending : Option PendingKey := none
  /-- What was pending outside of each open flow collection, innermost first. -/
  outerPending : List (Option PendingKey) := []

namespace Scan

def inFlow (s : Scan) : Bool := !s.outerPending.isEmpty

def push (s : Scan) (token : Token) : Scan := { s with tokens := s.tokens.push token }

/-- Passes over blanks, comments and line breaks. Tabs count as blanks only where they cannot be
taken for indentation; behind a line break of block context a key may begin. -/
def skipIdle (flow : Bool) : (keyAllowed comment : Bool) → List Spot → Bool × List Spot
  | keyAllowed, _, [] => (keyAllowed, [])
  | keyAllowed, comment, s :: rest =>
    if isBreak s.char then skipIdle flow (keyAllowed || !flow) false rest
    else if comment || s.char = '#' then skipIdle flow keyAllowed true rest
    else if s.char = ' ' || (s.char = '\t' && (flow || !keyAllowed))
        || (isByteOrderMark s.char && s.column = 0) then
      skipIdle flow keyAllowed false rest
    else (keyAllowed, s :: rest)

/-- How far behind its beginning the colon of a key without a mark may be, in bytes. -/
def maxKeyLength : Nat := 1024

/-- A key without a mark lies on one line and is not too long. -/
def PendingKey.isStale (key : PendingKey) (s : Spot) : Bool :=
  key.first.line < s.line || key.first.offset + maxKeyLength < s.offset

/-- Forgets a key, unless there had to be one. -/
def forget? (key : Option PendingKey) : Option (Option PendingKey) :=
  if key.any (·.required) then none else some none

def forgetStale? (at' : Spot) (key : Option PendingKey) : Option (Option PendingKey) :=
  if key.any (PendingKey.isStale · at') then forget? key else some key

def dropStale? (s : Scan) (at' : Spot) : Option Scan := do
  return { s with
    pending := ← forgetStale? at' s.pending
    outerPending := ← s.outerPending.mapM (forgetStale? at') }

/-- Forgets the key that may have begun in the current collection. -/
def dropKey? (s : Scan) : Option Scan := do
  return { s with pending := ← forget? s.pending }

/-- Notes that a key may begin here. -/
def noteKey? (s : Scan) (at' : Spot) : Option Scan :=
  if s.keyAllowed then do
    let s ← s.dropKey?
    let required := !s.inFlow && s.indent = at'.column
    return { s with pending := some ⟨required, s.tokens.size, at'⟩ }
  else some s

def closeBlocks (column : Int) : Int → List Int → Array Token → Int × List Int × Array Token
  | indent, [], tokens => (indent, [], tokens)
  | indent, outer :: indents, tokens =>
    if column < indent then closeBlocks column outer indents (tokens.push .blockEnd)
    else (indent, outer :: indents, tokens)

/-- Closes the block collections that are indented deeper than a column. -/
def unroll (s : Scan) (column : Int) : Scan :=
  if s.inFlow then s
  else
    let (indent, outerIndents, tokens) := closeBlocks column s.indent s.outerIndents s.tokens
    { s with indent, outerIndents, tokens }

/-- Opens a block collection at a column that is deeper than the current one. Its token comes in
front of the tokens from `position` on. -/
def roll (s : Scan) (column position : Nat) (token : Token) : Scan :=
  if s.inFlow || column ≤ s.indent then s
  else { s with
    indent := column
    outerIndents := s.indent :: s.outerIndents
    tokens := s.tokens.insertIdxIfInBounds position token }

/-- A token of so many characters, behind which a key may begin or not. -/
def mark (s : Scan) (length : Nat) (keyAllowed : Bool) (token : Token) : Scan :=
  { s with rest := s.rest.drop length, keyAllowed, tokens := s.tokens.push token }

def documentMark? (s : Scan) (token : Token) : Option Scan := do
  return (← (s.unroll (-1)).dropKey?).mark 3 false token

def takeDirective? (s : Scan) : Option Scan := do
  let s ← (s.unroll (-1)).dropKey?
  let (token, rest) ← directive? (s.rest.drop 1)
  return { s with rest, keyAllowed := false, tokens := s.tokens.push token }

def openFlow? (s : Scan) (at' : Spot) (token : Token) : Option Scan := do
  let s ← s.noteKey? at'
  return { s.mark 1 true token with pending := none, outerPending := s.pending :: s.outerPending }

def closeFlow? (s : Scan) (token : Token) : Option Scan := do
  let s ← s.dropKey?
  let s := s.mark 1 false token
  match s.outerPending with
  | [] => return s
  | pending :: outerPending => return { s with pending, outerPending }

def flowEntry? (s : Scan) : Option Scan := do
  return (← s.dropKey?).mark 1 true .flowEntry

def blockEntry? (s : Scan) (at' : Spot) : Option Scan := do
  if !s.inFlow && !s.keyAllowed then none
  else
    let s ← (s.roll at'.column s.tokens.size .blockSequenceStart).dropKey?
    return s.mark 1 true .blockEntry

def key? (s : Scan) (at' : Spot) : Option Scan := do
  if !s.inFlow && !s.keyAllowed then none
  else
    let s ← (s.roll at'.column s.tokens.size .blockMappingStart).dropKey?
    return s.mark 1 (!s.inFlow) .key

/-- The colon behind a key. A key without a mark gets its token now. -/
def value? (s : Scan) (at' : Spot) : Option Scan :=
  match s.pending with
  | some key =>
    let s := { s with tokens := s.tokens.insertIdxIfInBounds key.position .key }
    let s := s.roll key.first.column key.position .blockMappingStart
    some { s.mark 1 false .value with pending := none }
  | none =>
    if !s.inFlow && !s.keyAllowed then none
    else
      let s := s.roll at'.column s.tokens.size .blockMappingStart
      some (s.mark 1 (!s.inFlow) .value)

/-- A name behind its mark, and what may follow such a name. -/
def name? (s : Scan) (at' : Spot) (token : String → Token) : Option Scan := do
  let s ← s.noteKey? at'
  let (name, rest) := takeName (s.rest.drop 1)
  let ends := ['?', ':', ',', ']', '\x7d', '%', '@', '\x60']
  if name ≠ "" ∧ (atGap rest ∨ rest.head?.any (·.char ∈ ends))
  then return { s with rest, keyAllowed := false, tokens := s.tokens.push (token name) }
  else none

def takeTag? (s : Scan) (at' : Spot) : Option Scan := do
  let s ← s.noteKey? at'
  let (token, rest) ← tag? s.inFlow s.rest
  return { s with rest, keyAllowed := false, tokens := s.tokens.push token }

def takeBlock? (s : Scan) (folded : Bool) : Option Scan := do
  let s ← s.dropKey?
  let (text, rest) ← block? folded s.indent (s.rest.drop 1)
  let style := if folded then Style.folded else Style.literal
  return { s with
    rest, keyAllowed := true, tokens := s.tokens.push (.scalar style (String.ofList text)) }

def takeQuoted? (s : Scan) (at' : Spot) (single : Bool) : Option Scan := do
  let s ← s.noteKey? at'
  let behind := s.rest.drop 1
  let (text, rest) ← if single then singleQuoted? [] behind else doubleQuoted? (.gap []) behind
  let style := if single then Style.singleQuoted else Style.doubleQuoted
  return { s with
    rest, keyAllowed := false, tokens := s.tokens.push (.scalar style (String.ofList text)) }

def takePlain? (s : Scan) (at' : Spot) : Option Scan := do
  let s ← s.noteKey? at'
  let (text, broken, rest) ← plain? s.inFlow (s.indent + 1) [] s.rest
  return { s with
    rest, keyAllowed := broken, tokens := s.tokens.push (.scalar .plain (String.ofList text)) }

/-- Characters that have a meaning of their own at the front of a token. -/
def isIndicator (c : Char) : Bool :=
  c ∈ ['-', '?', ':', ',', '[', ']', '\x7b', '\x7d', '#', '&', '*', '!', '|', '>', '\'', '"', '%',
    '@', '\x60']

def startsPlain (flow : Bool) (c : Char) (behind : List Spot) : Bool :=
  !(isGap c || isIndicator c) || (c = '-' && !behind.head?.any (isBlank ·.char))
    || (!flow && (c = '?' || c = ':') && !atGap behind)

/-- The token that begins at a character, with the characters behind it. -/
def take? (s : Scan) (at' : Spot) (behind : List Spot) : Option Scan :=
  let c := at'.char
  if at'.column = 0 ∧ c = '%' then s.takeDirective?
  else if atRule '-' s.rest then s.documentMark? .documentStart
  else if atRule '.' s.rest then s.documentMark? .documentEnd
  else if c = '[' then s.openFlow? at' .flowSequenceStart
  else if c = '\x7b' then s.openFlow? at' .flowMappingStart
  else if c = ']' then s.closeFlow? .flowSequenceEnd
  else if c = '\x7d' then s.closeFlow? .flowMappingEnd
  else if c = ',' then s.flowEntry?
  else if c = '-' ∧ atGap behind then s.blockEntry? at'
  else if c = '?' ∧ (s.inFlow ∨ atGap behind) then s.key? at'
  else if c = ':' ∧ (s.inFlow ∨ atGap behind) then s.value? at'
  else if c = '*' then s.name? at' .alias
  else if c = '&' then s.name? at' .anchor
  else if c = '!' then s.takeTag? at'
  else if c = '|' ∧ !s.inFlow then s.takeBlock? false
  else if c = '>' ∧ !s.inFlow then s.takeBlock? true
  else if c = '\'' then s.takeQuoted? at' true
  else if c = '"' then s.takeQuoted? at' false
  else if startsPlain s.inFlow c behind then s.takePlain? at'
  else none

/-- All tokens from here on. Each takes at least one character. -/
def tokens? : (fuel : Nat) → Scan → Option (List Token)
  | 0, _ => none
  | fuel + 1, s => do
    let (keyAllowed, rest) := skipIdle s.inFlow s.keyAllowed false s.rest
    let s := { s with keyAllowed, rest }
    match rest with
    | [] => return (← (s.unroll (-1)).dropKey?).tokens.toList
    | at' :: behind =>
      let s := (← s.dropStale? at').unroll at'.column
      tokens? fuel (← s.take? at' behind)

end Scan

/-- The tokens of a text. -/
def Token.ofText? (text : String) : Option (List Token) := do
  let spots ← spots? text
  Scan.tokens? (spots.length + 1) { rest := spots }

end CaseHarvest.Yaml
