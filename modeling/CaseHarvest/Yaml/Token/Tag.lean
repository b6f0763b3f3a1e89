import CaseHarvest.Yaml.Token.Scalar
/-!
Reading tags and directives.
-/
namespace CaseHarvest.Yaml

/-- What a tag may hold beside the characters of names. -/
def isTagMark (c : Char) : Bool := c ∈ [';', '/', '?', ':', '@', '&', '=', '+', '$', '.', '!', '~',
  '*', '\'', '(', ')']

/-- What a tag may hold where no flow collection can end it. -/
def isTagFlowMark (c : Char) : Bool := c = ',' || c = '[' || c = ']'

/-- How many bytes a character has that begins with a byte. -/
def sequenceWidth? (b : UInt8) : Option Nat :=
  if b &&& 0x80 = 0 then some 1
  else if b &&& 0xe0 = 0xc0 then some 2
  else if b &&& 0xf0 = 0xe0 then some 3
  else if b &&& 0xf8 = 0xf0 then some 4
  else none

/-- The bytes of a tag and what follows it. A percent sign and two hexadecimal digits stand for a
byte; `missing` more bytes of a character are due in this form. -/
def tagBytes? (verbatim : Bool) (missing : Nat) : List Spot → Option (Bytes × List Spot)
  | [] => if missing = 0 then some ([], []) else none
  | s :: rest =>
    if s.char = '%' then
      match rest with
      | a :: b :: rest => do
        let byte := UInt8.ofNat (16 * (← hexValue? a.char) + (← hexValue? b.char))
        let missing ←
          if missing = 0 then (sequenceWidth? byte).map (· - 1)
          else if byte &&& 0xc0 = 0x80 then some (missing - 1) else none
        let (bytes, rest) ← tagBytes? verbatim missing rest
        return (byte :: bytes, rest)
      | _ => none
    else if missing ≠ 0 then none
    else if isNameChar s.char || isTagMark s.char || (verbatim && isTagFlowMark s.char) then do
      let (bytes, rest) ← tagBytes? verbatim 0 rest
      return (Bytes.ofString s.char.toString ++ bytes, rest)
    else some ([], s :: rest)

/-- What stands at the front of a tag: an exclamation mark, a name, and another mark if there is
one. -/
def tagHandle? (spots : List Spot) : Option (String × List Spot) :=
  match spots with
  | s :: rest =>
    if s.char ≠ '!' then none
    else
      let (name, rest) := takeName rest
      if startsWith '!' rest then some ("!" ++ name ++ "!", rest.drop 1)
      else some ("!" ++ name, rest)
  | [] => none

/-- A tag and what follows it: verbatim between angle brackets, or a handle with a suffix. -/
def tag? (flow : Bool) (spots : List Spot) : Option (Token × List Spot) := do
  let (token, rest) ← match spots with
    | _ :: ⟨'<', _, _, _⟩ :: spots => do
      let (bytes, rest) ← tagBytes? true 0 spots
      if bytes.isEmpty || !startsWith '>' rest then none
      else some (Token.tag "" bytes, rest.drop 1)
    | spots => do
      let (handle, rest) ← tagHandle? spots
      let (bytes, rest) ← tagBytes? false 0 rest
      if handle.length > 1 && handle.endsWith "!" then
        if bytes.isEmpty then none else some (Token.tag handle bytes, rest)
      else
        let suffix := Bytes.ofString (String.ofList (handle.toList.drop 1)) ++ bytes
        if suffix.isEmpty then some (Token.tag "" (Bytes.ofString "!"), rest)
        else some (Token.tag "!" suffix, rest)
  if atGap rest || (flow && startsWith ',' rest) then some (token, rest) else none

/-- A number of a version: one to nine digits. -/
def versionNumber? (spots : List Spot) : Option (Nat × List Spot) :=
  let (digits, rest) := spots.span (·.char.isDigit)
  if digits.isEmpty || digits.length > 9 then none
  else some (digits.foldl (fun n s => 10 * n + (s.char.toNat - '0'.toNat)) 0, rest)

/-- The directive behind a percent sign and what follows its line. -/
def directive? (spots : List Spot) : Option (Token × List Spot) := do
  let (name, rest) := takeName spots
  if name = "" ∨ !atGap rest then none
  else if name = "YAML" then
    let (major, rest) ← versionNumber? (skipBlanks rest)
    if !startsWith '.' rest then none
    else
      let (minor, rest) ← versionNumber? (rest.drop 1)
      return (.version major minor, ← skipLineEnd? rest)
  else if name = "TAG" then
    let (handle, rest) ← tagHandle? (skipBlanks rest)
    if !(handle = "!" || handle.endsWith "!") || !rest.head?.any (isBlank ·.char) then none
    else
      let (bytes, rest) ← tagBytes? true 0 (skipBlanks rest)
      if bytes.isEmpty || !atGap rest then none
      else return (.tagHandle handle bytes, ← skipLineEnd? rest)
  else none

end CaseHarvest.Yaml
