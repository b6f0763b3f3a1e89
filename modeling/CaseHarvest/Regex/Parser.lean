import CaseHarvest.Regex.Basic
import CaseHarvest.Text.Pieces
/-!
Reading regular expressions. There are no tables of scripts and cases here: what would need one,
such as a class of all letters or a word boundary among them, is refused unless the expression says
that it means bytes.
-/
namespace CaseHarvest.Regex

structure Flags where
  ignoreCase : Bool := false
  multiLine : Bool := false
  /-- The dot stands for line ends as well. -/
  dotAll : Bool := false
  /-- Carriage returns end lines. -/
  returns : Bool := false
  /-- White space and comments mean nothing. -/
  spaced : Bool := false
  /-- Characters are meant, not bytes. -/
  unicode : Bool := true

namespace Flags

/-- Sets the flag with a name. Which of two repetitions is preferred makes no difference here. -/
def set? (f : Flags) (name : Char) (value : Bool) : Option Flags :=
  match name with
  | 'i' => some { f with ignoreCase := value }
  | 'm' => some { f with multiLine := value }
  | 's' => some { f with dotAll := value }
  | 'U' => some f
  | 'u' => some { f with unicode := value }
  | 'R' => some { f with returns := value }
  | 'x' => some { f with spaced := value }
  | _ => none

/-- The flags up to a colon or a parenthesis. Each may be named once, and the ones behind a hyphen
are unset. -/
def read? (named : List Char) (value : Bool) (f : Flags) : List Char → Option (Flags × List Char)
  | [] => none
  | c :: cs =>
    if c = ':' ∨ c = ')' then if named.head? = some '-' then none else some (f, c :: cs)
    else if c ∈ named then none
    else if c = '-' then read? (c :: named) false f cs
    else do read? (c :: named) value (← f.set? c value) cs

/-- Skips white space and comments, where they mean nothing. -/
def skip (f : Flags) (cs : List Char) : List Char :=
  if f.spaced then go false cs else cs
where
  go : (comment : Bool) → List Char → List Char
    | _, [] => []
    | true, c :: cs => go (c ≠ '\n') cs
    | false, c :: cs =>
      if c = '#' then go true cs else if isWhiteSpace c then go false cs else c :: cs

/-- The set for the dot. -/
def dot? (f : Flags) : Option CharSet :=
  if !f.unicode then none
  else if f.dotAll then some .all
  else if f.returns then some (.complement (.ofRanges [('\n', '\n'), ('\r', '\r')]))
  else some (.complement (.single '\n'))

def lineStart (f : Flags) : Anchor := if f.multiLine then .lineStart f.returns else .textStart

def lineEnd (f : Flags) : Anchor := if f.multiLine then .lineEnd f.returns else .textEnd

/-- A word boundary; among all letters there is none. -/
def word? (f : Flags) (a : Anchor) : Option Anchor := if f.unicode then none else some a

/-- A set whose letters stand for both cases if cases are ignored. -/
def fold? (f : Flags) (s : CharSet) : Option CharSet :=
  if !f.ignoreCase then some s else if f.unicode then none else some (.anyCase s)

/-- A set that a class in brackets has come to. -/
def finish? (f : Flags) (negated : Bool) (s : CharSet) : Option CharSet :=
  let s := if f.ignoreCase then .anyCase s else s
  let s := if negated then .complement s else s
  if f.unicode || s.isAsciiAmongBytes then some s else none

end Flags

/-! ## Escapes -/

/-- What a backslash and what follows it stand for. -/
inductive Escape where
  | char (c : Char)
  | set (s : CharSet)
  | anchor (a : Anchor)

def isMeta (c : Char) : Bool :=
  c ∈ ['\\', '.', '+', '*', '?', '(', ')', '|', '[', ']', '\x7b', '\x7d', '^', '$', '#', '&', '-',
    '~']

/-- A character that stands for itself behind a backslash. -/
def isEscapable (c : Char) : Bool :=
  isMeta c || (c.toNat < 0x80 && !c.isAlphanum && c ≠ '<' && c ≠ '>')

def hexValue? (c : Char) : Option Nat :=
  if '0' ≤ c ∧ c ≤ '9' then some (c.toNat - '0'.toNat)
  else if 'a' ≤ c ∧ c ≤ 'f' then some (c.toNat - 'a'.toNat + 10)
  else if 'A' ≤ c ∧ c ≤ 'F' then some (c.toNat - 'A'.toNat + 10)
  else none

/-- The character with a number. -/
def charOf? (n : Nat) : Option Char := if n.isValidChar then some (Char.ofNat n) else none

/-- So many hexadecimal digits. -/
def fixedHex? (f : Flags) : (count value : Nat) → List Char → Option (Nat × List Char)
  | 0, value, cs => some (value, cs)
  | _ + 1, _, [] => none
  | count + 1, value, c :: cs => do fixedHex? f count (16 * value + (← hexValue? c)) (f.skip cs)

/-- The number in braces, behind the first of them. -/
def bracedHex? (f : Flags) : (fuel : Nat) → (value : Option Nat) → List Char →
    Option (Nat × List Char)
  | 0, _, _ => none
  | fuel + 1, value, cs =>
    match f.skip cs with
    | [] => none
    | '\x7d' :: rest => value.map (·, rest)
    | c :: rest => do bracedHex? f fuel (some (16 * value.getD 0 + (← hexValue? c))) rest

/-- The number behind a mark for so many digits. Two digits without braces name a byte. -/
def hex? (f : Flags) (count : Nat) (cs : List Char) : Option (Escape × List Char) :=
  match f.skip cs with
  | '\x7b' :: rest => do
    let (n, rest) ← bracedHex? f (rest.length + 1) none rest
    return (.char (← charOf? n), f.skip rest)
  | rest => do
    let (n, rest) ← fixedHex? f count 0 rest
    if count = 2 ∧ !f.unicode ∧ 0x7f < n then none else return (.char (← charOf? n), rest)

/-- A class of characters that a letter names, if only ASCII characters are in it. -/
def perlClass? (f : Flags) (c : Char) : Option CharSet :=
  if f.unicode then none
  else
    match c with
    | 'd' => some .digits
    | 's' => some .spaces
    | 'w' => some .wordChars
    | _ => none

/-- What stands in braces behind the mark of a word boundary, if it is not a number. -/
def boundary? (f : Flags) (cs : List Char) : Option (Anchor × List Char) :=
  let isNameChar (c : Char) : Bool := c.isAlpha || c = '-'
  match cs with
  | '\x7b' :: inside =>
    let inside := f.skip inside
    if !inside.head?.any isNameChar then if inside.isEmpty then none else some (.wordBoundary, cs)
    else
      let (name, rest) := inside.span fun c => isNameChar c || (f.spaced && isWhiteSpace c)
      match String.ofList (name.filter isNameChar), rest with
      | "start", '\x7d' :: rest => some (.wordStart, rest)
      | "end", '\x7d' :: rest => some (.wordEnd, rest)
      | "start-half", '\x7d' :: rest => some (.wordStartHalf, rest)
      | "end-half", '\x7d' :: rest => some (.wordEndHalf, rest)
      | _, _ => none
  | _ => some (.wordBoundary, cs)

/-- What follows a backslash. -/
def escape? (f : Flags) (cs : List Char) : Option (Escape × List Char) :=
  match cs with
  | [] => none
  | c :: rest =>
    if isEscapable c then some (.char c, rest)
    else
      match c with
      | 'x' => hex? f 2 rest
      | 'u' => hex? f 4 rest
      | 'U' => hex? f 8 rest
      | 'a' => some (.char '\x07', rest)
      | 'f' => some (.char '\x0c', rest)
      | 't' => some (.char '\t', rest)
      | 'n' => some (.char '\n', rest)
      | 'r' => some (.char '\r', rest)
      | 'v' => some (.char '\x0b', rest)
      | 'A' => some (.anchor .textStart, rest)
      | 'z' => some (.anchor .textEnd, rest)
      | 'b' => do
        let (a, rest) ← boundary? f rest
        return (.anchor (← f.word? a), rest)
      | 'B' => do return (.anchor (← f.word? .noWordBoundary), rest)
      | '<' => do return (.anchor (← f.word? .wordStart), rest)
      | '>' => do return (.anchor (← f.word? .wordEnd), rest)
      | c => do return (.set (← perlClass? f c), rest)

/-! ## Classes -/

/-- How two sets of a class are joined. -/
inductive SetOp where
  | inter
  | diff
  | symmDiff

def SetOp.apply : SetOp → CharSet → CharSet → CharSet
  | inter => .inter
  | diff => .diff
  | symmDiff => .symmDiff

/-- A named set between colons and its bracket, behind the bracket in front of it. -/
def namedSet? (cs : List Char) : Option (CharSet × List Char) := do
  let ':' :: cs := cs | none
  let (negated, cs) := match cs with
    | '^' :: rest => (true, rest)
    | _ => (false, cs)
  let (name, ':' :: ']' :: rest) := cs.span (· ≠ ':') | none
  let s ← CharSet.named? (String.ofList name)
  return (if negated then .complement s else s, rest)

/-- One character of a class, or a set that an escape stands for. -/
def classItem? (f : Flags) (cs : List Char) : Option ((Char ⊕ CharSet) × List Char) :=
  match cs with
  | [] => none
  | '\\' :: rest => do
    match ← escape? f rest with
    | (.char c, rest) => return (.inl c, rest)
    | (.set s, rest) => return (.inr s, rest)
    | (.anchor _, _) => none
  | c :: rest => some (.inl c, rest)

/-- Among bytes, a character of a class has to be one of ASCII. -/
def isClassChar (f : Flags) (c : Char) : Bool := f.unicode || c.toNat < 0x80

/-- An item of a class, or a range if a hyphen follows that does not stand for itself. -/
def classRange? (f : Flags) (cs : List Char) : Option (CharSet × List Char) := do
  let (item, rest) ← classItem? f cs
  let here := f.skip rest
  let range := here.head? = some '-' && !((f.skip here.tail).head?.any fun c => c = ']' || c = '-')
  if range then
    let (last, rest) ← classItem? f (f.skip here.tail)
    match item, last with
    | .inl a, .inl b =>
      if a ≤ b && isClassChar f a && isClassChar f b then some (.range a b, rest) else none
    | _, _ => none
  else
    match item with
    | .inl c => if isClassChar f c then some (.single c, here) else none
    | .inr s => some (s, here)

/-- The front of a class: whether it is negated, and hyphens or a closing bracket that stand for
themselves. -/
def classFront (f : Flags) (cs : List Char) : Bool × CharSet × List Char :=
  let cs := f.skip cs
  let (negated, cs) := match cs with
    | '^' :: rest => (true, f.skip rest)
    | _ => (false, cs)
  match cs with
  | '-' :: rest =>
    (negated, .single '-', rest.dropWhile fun c => c = '-' || (f.spaced && isWhiteSpace c))
  | ']' :: rest => (negated, .single ']', rest)
  | _ => (negated, .empty, cs)

/-- The set behind a joint of a class, joined to what is in front of it. -/
def joined (f : Flags) (front : Option (SetOp × CharSet)) (s : CharSet) : CharSet :=
  let fold (s : CharSet) : CharSet := if f.ignoreCase then .anyCase s else s
  match front with
  | none => s
  | some (op, a) => op.apply (fold a) (fold s)

mutual

/-- A class behind its bracket: its set, how deep classes are nested in it, and what follows. -/
def class? : (fuel : Nat) → Flags → List Char → Option (CharSet × Nat × List Char)
  | 0, _, _ => none
  | fuel + 1, f, cs => do
    let (negated, front, rest) := classFront f cs
    let front ← if front = .empty then some .empty else f.fold? front
    let (s, height, rest) ← classBody? fuel f none front 0 rest
    return (← f.finish? negated s, height + 1, rest)

/-- The rest of a class, behind sets that are joined and the set under way. -/
def classBody? : (fuel : Nat) → Flags → Option (SetOp × CharSet) → CharSet → (height : Nat) →
    List Char → Option (CharSet × Nat × List Char)
  | 0, _, _, _, _, _ => none
  | fuel + 1, f, front, s, height, cs =>
    let join (op : SetOp) (rest : List Char) : Option (CharSet × Nat × List Char) :=
      classBody? fuel f (some (op, joined f front s)) .empty height rest
    match f.skip cs with
    | [] => none
    | ']' :: rest => some (joined f front s, height, rest)
    | '[' :: rest =>
      match namedSet? rest with
      | some (named, rest) => do
        classBody? fuel f front (s.union (← f.fold? named)) height rest
      | none => do
        let (inner, innerHeight, rest) ← class? fuel f rest
        classBody? fuel f front (s.union inner) (max height innerHeight) rest
    | '&' :: '&' :: rest => join .inter rest
    | '-' :: '-' :: rest => join .diff rest
    | '~' :: '~' :: rest => join .symmDiff rest
    | rest => do
      let (item, rest) ← classRange? f rest
      classBody? fuel f front (s.union (← f.fold? item)) height rest

end

/-! ## Expressions -/

/-- An expression, and how deep other ones are nested in it. -/
structure Part where
  regex : Regex
  height : Nat

/-- What stands side by side: parts, and settings of flags. -/
inductive Item where
  | part (p : Part)
  | flags

namespace Item

def regex : Item → Regex
  | part p => p.regex
  | flags => .empty

def height : Item → Nat
  | part p => p.height
  | flags => 0

end Item

/-- Items in a row; the last one comes first. -/
def ofItems (items : List Item) : Part :=
  match items with
  | [] => ⟨.empty, 0⟩
  | [item] => ⟨item.regex, item.height⟩
  | last :: before =>
    ⟨before.foldl (fun r item => .concat item.regex r) last.regex,
      items.foldl (fun n item => max n item.height) 0 + 1⟩

/-- Branches of which one has to match; the last one comes first. -/
def ofBranches (last : Part) (before : List Part) : Part :=
  if before.isEmpty then last
  else
    ⟨before.foldl (fun r p => .alternate p.regex r) last.regex,
      before.foldl (fun n p => max n p.height) last.height + 1⟩

/-- Repeats the last item. A question mark behind says which repetition is preferred, which makes no
difference here. -/
def repeat? (least : Nat) (most : Option Nat) (items : List Item) (cs : List Char) :
    Option (List Item × List Char) :=
  match items with
  | .part p :: items =>
    let rest := if cs.head? = some '?' then cs.tail else cs
    some (.part ⟨.repeated p.regex least most, p.height + 1⟩ :: items, rest)
  | _ => none

/-- A decimal number of 32 bits with white space around it. -/
def decimal? (f : Flags) (cs : List Char) : Option (Nat × List Char) := do
  let isPart (c : Char) : Bool := c.isDigit || (f.spaced && isWhiteSpace c)
  let (digits, rest) := (cs.dropWhile isWhiteSpace).span isPart
  let n ← (String.ofList (digits.filter Char.isDigit)).toNat?
  if n < 0x100000000 then return (n, rest.dropWhile isWhiteSpace) else none

/-- The numbers in braces behind what they repeat. -/
def bounds? (f : Flags) (cs : List Char) : Option (Nat × Option Nat × List Char) := do
  match ← decimal? f (f.skip cs) with
  | (least, '\x7d' :: rest) => return (least, some least, rest)
  | (least, ',' :: rest) =>
    match f.skip rest with
    | '\x7d' :: rest => return (least, none, rest)
    | rest =>
      let (most, '\x7d' :: rest) ← decimal? f rest | none
      if least ≤ most then return (least, some most, rest) else none
  | _ => none

/-- The name of a group, which no other group may have, and the angle bracket behind it. -/
def groupName? (names : List String) (cs : List Char) : Option (List String × List Char) := do
  let isFirst (c : Char) : Bool := c = '_' || c.isAlpha || 0x80 ≤ c.toNat
  let isLater (c : Char) : Bool := isFirst c || c.isDigit || c ∈ ['.', '[', ']']
  let (name, _ :: rest) := cs.span (· ≠ '>') | none
  let s := String.ofList name
  if name.head?.any isFirst && name.all isLater && !names.contains s then return (s :: names, rest)
  else none

/-- What an opening parenthesis opens. -/
inductive Opening where
  /-- Nothing: flags are set for the rest of the group around it. -/
  | flags (f : Flags)
  /-- A group, with the flags that hold in it. -/
  | group (f : Flags)

/-- What stands behind an opening parenthesis. Nothing looks ahead or behind. -/
def opening? (f : Flags) (names : List String) (cs : List Char) :
    Option (Opening × List String × List Char) :=
  match cs with
  | '?' :: '<' :: '=' :: _ => none
  | '?' :: '<' :: '!' :: _ => none
  | '?' :: '<' :: rest => (groupName? names rest).map fun (names, rest) => (.group f, names, rest)
  | '?' :: 'P' :: '<' :: rest =>
    (groupName? names rest).map fun (names, rest) => (.group f, names, rest)
  | '?' :: ')' :: _ => none
  | '?' :: rest => do
    match ← Flags.read? [] true f rest with
    | (f, ':' :: rest) => return (.group f, names, rest)
    | (f, ')' :: rest) => return (.flags f, names, rest)
    | _ => none
  | rest => some (.group f, names, rest)

/-- What a character stands for outside of classes. -/
def single? (f : Flags) (cs : List Char) : Option (Regex × List Char) :=
  match cs with
  | [] => none
  | '.' :: rest => f.dot?.map fun s => (.chars s, rest)
  | '^' :: rest => some (.anchor f.lineStart, rest)
  | '$' :: rest => some (.anchor f.lineEnd, rest)
  | '\\' :: rest => do
    match ← escape? f rest with
    | (.char c, rest) => return (.chars (← f.fold? (.single c)), rest)
    | (.set s, rest) => return (.chars s, rest)
    | (.anchor a, rest) => return (.anchor a, rest)
  | c :: rest => (f.fold? (.single c)).map fun s => (.chars s, rest)

/-- The rest of a group, behind branches and the items of the branch under way: what the group comes
to, the names of groups, and what follows, which is nothing or a closing parenthesis. -/
def group? : (fuel : Nat) → Flags → (names : List String) → List Part → List Item → List Char →
    Option (Part × List String × List Char)
  | 0, _, _, _, _, _ => none
  | fuel + 1, f, names, branches, items, cs =>
    let repeated (least : Nat) (most : Option Nat) (rest : List Char) :
        Option (Part × List String × List Char) := do
      let (items, rest) ← repeat? least most items rest
      group? fuel f names branches items rest
    match f.skip cs with
    | [] => some (ofBranches (ofItems items) branches, names, [])
    | ')' :: rest => some (ofBranches (ofItems items) branches, names, ')' :: rest)
    | '|' :: rest => group? fuel f names (ofItems items :: branches) [] rest
    | '*' :: rest => repeated 0 none rest
    | '+' :: rest => repeated 1 none rest
    | '?' :: rest => repeated 0 (some 1) rest
    | '\x7b' :: rest => do
      let (least, most, rest) ← bounds? f rest
      repeated least most (f.skip rest)
    | '[' :: rest => do
      let (s, height, rest) ← class? (2 * rest.length + 2) f rest
      group? fuel f names branches (.part ⟨.chars s, height⟩ :: items) rest
    | '(' :: rest => do
      match ← opening? f names (f.skip rest) with
      | (.flags f, names, rest) => group? fuel f names branches (.flags :: items) rest
      | (.group inner, names, rest) =>
        let (p, names, ')' :: rest) ← group? fuel inner names [] [] rest | none
        group? fuel f names branches (.part ⟨p.regex, p.height + 1⟩ :: items) rest
    | rest => do
      let (r, rest) ← single? f rest
      group? fuel f names branches (.part ⟨r, 0⟩ :: items) rest

/-- How deep expressions may be nested, and how much room one may take. -/
def maxHeight : Nat := 250

def maxRoom : Nat := 10485760

/-- The expression that a text stands for, if it is one. Each step takes at least one character. -/
def parse? (text : String) : Option Regex := do
  let (p, _, []) ← group? (text.length + 1) {} [] [] [] text.toList | none
  if p.height ≤ maxHeight ∧ p.regex.room ≤ maxRoom then return p.regex else none

end CaseHarvest.Regex
