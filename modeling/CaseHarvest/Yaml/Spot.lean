/-!
The characters of a YAML text with the line and the column at which they stand. Indentation is
structure in YAML, so that a reader of any part has to know where the part stands; how long a part
is counts in bytes.
-/
namespace CaseHarvest.Yaml

/-- A character and its place; lines and columns are counted from zero. -/
structure Spot where
  char : Char
  line : Nat
  column : Nat
  /-- The bytes of the characters before it on its line. -/
  offset : Nat
  deriving DecidableEq

/-- A line break: a line feed, or the separator of lines or paragraphs. -/
def isBreak (c : Char) : Bool := c = '\n' || c = '\u2028' || c = '\u2029'

def isBlank (c : Char) : Bool := c = ' ' || c = '\t'

/-- A blank or a line break. -/
def isGap (c : Char) : Bool := isBlank c || isBreak c

def isByteOrderMark (c : Char) : Bool := c = '\ufeff'

/-- What names of anchors, handles and directives are made of. -/
def isNameChar (c : Char) : Bool := c.isAlphanum || c = '_' || c = '-'

/-- What may stand in a text at all: no controls but tab and line breaks, and no noncharacters at
the end of the first plane. -/
def isPermitted (c : Char) : Bool :=
  let n := c.toNat
  n = 0x09 || n = 0x0a || n = 0x0d || (0x20 ≤ n && n ≤ 0x7e) || n = 0x85
    || (0xa0 ≤ n && n ≤ 0xfffd) || 0x10000 ≤ n

/-- All line breaks of one character that mean the same become line feeds, and so does a carriage
return with the line feed behind it. -/
def unifyBreaks : List Char → List Char
  | [] => []
  | '\r' :: '\n' :: cs => '\n' :: unifyBreaks cs
  | '\r' :: cs => '\n' :: unifyBreaks cs
  | '\u0085' :: cs => '\n' :: unifyBreaks cs
  | c :: cs => c :: unifyBreaks cs

/-- Characters with their places, the first one at a given place. -/
def place : (line column offset : Nat) → List Char → List Spot
  | _, _, _, [] => []
  | line, column, offset, c :: cs =>
    ⟨c, line, column, offset⟩ ::
      if isBreak c then place (line + 1) 0 0 cs else place line (column + 1) (offset + c.utf8Size) cs

/-- The characters of a text, if they all may stand in one. -/
def spots? (text : String) : Option (List Spot) :=
  if text.toList.all isPermitted then some (place 0 0 0 (unifyBreaks text.toList)) else none

def startsWith (c : Char) (spots : List Spot) : Bool := spots.head?.any (·.char = c)

/-- At the end of the text, at a blank or at a line break. -/
def atGap (spots : List Spot) : Bool := spots.head?.all (isGap ·.char)

/-- At the end of the text or at a line break. -/
def atLineEnd (spots : List Spot) : Bool := spots.head?.all (isBreak ·.char)

/-- At the start of a line on which three equal marks stand alone. -/
def atRule (mark : Char) : List Spot → Bool
  | a :: b :: c :: rest =>
    a.column = 0 && a.char = mark && b.char = mark && c.char = mark && atGap rest
  | _ => false

/-- At the line that starts a document or at the one that ends it. -/
def atDocumentMark (spots : List Spot) : Bool := atRule '-' spots || atRule '.' spots

def skipBlanks (spots : List Spot) : List Spot := spots.dropWhile (isBlank ·.char)

/-- The rest of a line: blanks and a comment. Nothing else may stand there; the break is taken
too. -/
def skipLineEnd? (spots : List Spot) : Option (List Spot) :=
  let spots := skipBlanks spots
  let spots := if startsWith '#' spots then spots.dropWhile (!isBreak ·.char) else spots
  if atLineEnd spots then some (spots.drop 1) else none

/-- The characters at the front that a name is made of, and what follows them. -/
def takeName (spots : List Spot) : String × List Spot :=
  let (name, rest) := spots.span (isNameChar ·.char)
  (String.ofList (name.map (·.char)), rest)

end CaseHarvest.Yaml
