import CaseHarvest.Rehearsal.Script
/-!
The words and marks of a script.
-/
namespace CaseHarvest.Rehearsal

/-- A character before a word. Characters of one kind stay together. -/
def Word.cons (c : Char) (quoted : Bool) : Word → Word
  | .text cs q :: rest =>
    if q = quoted then .text (c :: cs) q :: rest else .text [c] quoted :: .text cs q :: rest
  | rest => .text [c] quoted :: rest

/-- What surrounds characters of a word. -/
inductive Scope where
  | bare
  /-- Between the braces of a variable. -/
  | braces (quoted : Bool)
  | quotes
  /-- Text that stands in the script on lines of its own. -/
  | document
  /-- Between the parentheses of an expression; so many more are open. -/
  | sum (depth : Nat)
  deriving DecidableEq, Repr

namespace Scope

/-- Whether characters stand for themselves. -/
def isQuoted : Scope → Bool
  | bare => false
  | braces quoted => quoted
  | _ => true

/-- Whether single quotation marks quote. -/
def takesSingle (s : Scope) : Bool := !s.isQuoted

/-- Whether double quotation marks quote. -/
def takesDouble : Scope → Bool
  | bare => true
  | braces _ => true
  | _ => false

/-- Whether a backslash quotes a character; otherwise it stands for itself. -/
def takesBackslash (s : Scope) (c : Char) : Bool :=
  match s with
  | bare => true
  | braces false => true
  | braces true => c ∈ ['$', '\x60', '"', '\\', '\x7d']
  | quotes => c ∈ ['$', '\x60', '"', '\\']
  | _ => c ∈ ['$', '\x60', '\\']

end Scope

namespace Lexer

def isNameStart (c : Char) : Bool := c.isAlpha || c = '_'

def isNameChar (c : Char) : Bool := c.isAlphanum || c = '_'

def isBlank (c : Char) : Bool := c = ' ' || c = '\t'

/-- Characters that end a word unless they are quoted. -/
def endsWord (c : Char) : Bool := c ∈ [' ', '\t', '\n', ';', '&', '|', '(', ')', '>', '<']

/-- Variables whose name is one mark. -/
def isSpecial (c : Char) : Bool := c ∈ ['@', '*', '#', '?', '-', '$', '!']

/-- The name of a variable between braces. -/
def name? : List Char → Option (List Char × List Char)
  | [] => none
  | c :: cs =>
    if isNameStart c then some ((c :: cs).span isNameChar)
    else if c.isDigit then some ((c :: cs).span Char.isDigit)
    else if isSpecial c then some ([c], cs)
    else none

/-- The text in backquotes, in which some characters may follow a backslash. -/
def backquoted? (quoted : Bool) : List Char → Option (List Char × List Char)
  | [] => none
  | '\x60' :: rest => some ([], rest)
  | '\\' :: c :: rest => do
    let (inside, rest) ← backquoted? quoted rest
    if c ∈ ['$', '\x60', '\\'] ∨ (quoted ∧ c = '"') then return (c :: inside, rest)
    else return ('\\' :: c :: inside, rest)
  | c :: rest => (backquoted? quoted rest).map fun (inside, rest) => (c :: inside, rest)

/-- Whether characters begin with a word that ends there. -/
def beginsWith (word : String) (cs : List Char) : Bool :=
  word.toList.isPrefixOf cs && (cs.drop word.length).head?.all fun c => !isNameChar c

/-- The text up to the parenthesis that closes it. Of the open parentheses and quotation marks,
parentheses carry the number of open choices in them, whose patterns end in parentheses as well. -/
def enclosed? : (fuel : Nat) → (opened : List (Option Nat)) → (wordStart : Bool) → List Char →
    Option (List Char × List Char)
  | 0, _, _, _ => none
  | _, [], _, rest => some ([], rest)
  | _, _, _, [] => none
  | fuel + 1, none :: opened, _, c :: cs =>
    let go (taken : List Char) (opened : List (Option Nat)) (cs : List Char) :=
      (enclosed? fuel opened false cs).map fun (inside, rest) => (taken ++ inside, rest)
    match c, cs with
    | '"', cs => go ['"'] opened cs
    | '\\', d :: cs => go ['\\', d] (none :: opened) cs
    | '$', '(' :: cs => go ['$', '('] (some 0 :: none :: opened) cs
    | c, cs => go [c] (none :: opened) cs
  | fuel + 1, some choices :: opened, wordStart, c :: cs =>
    let go (taken : List Char) (opened : List (Option Nat)) (cs : List Char) :=
      (enclosed? fuel opened (taken.getLast?.any endsWord) cs).map
        fun (inside, rest) => (taken ++ inside, rest)
    match c, cs with
    | '\\', d :: cs => go ['\\', d] (some choices :: opened) cs
    | '\'', cs =>
      let (inside, rest) := cs.span (· ≠ '\'')
      go ('\'' :: inside ++ ['\'']) (some choices :: opened) (rest.drop 1)
    | '"', cs => go ['"'] (none :: some choices :: opened) cs
    | '(', cs => go ['('] (some 0 :: some choices :: opened) cs
    | ')', cs =>
      if 0 < choices then go [')'] (some choices :: opened) cs
      else if opened = [] then some ([], cs)
      else go [')'] opened cs
    | c, cs =>
      if wordStart && c = '#' then
        let (inside, rest) := (c :: cs).span (· ≠ '\n')
        go inside (some choices :: opened) rest
      else if wordStart && beginsWith "case" (c :: cs) then
        go "case".toList (some (choices + 1) :: opened) (cs.drop 3)
      else if wordStart && beginsWith "esac" (c :: cs) then
        go "esac".toList (some (choices - 1) :: opened) (cs.drop 3)
      else go [c] (some choices :: opened) cs

/-- What use is made of a variable, as the mark behind its name says, and what follows the mark. A
use with a word behind it still lacks the word. -/
def use? (quoted : Bool) : List Char → Option ((Word → Use) × Bool × List Char)
  | ':' :: '-' :: cs => some (.default true, quoted, cs)
  | '-' :: cs => some (.default false, quoted, cs)
  | ':' :: '=' :: cs => some (.assign true, quoted, cs)
  | '=' :: cs => some (.assign false, quoted, cs)
  | ':' :: '?' :: cs => some (fun _ => .required true, quoted, cs)
  | '?' :: cs => some (fun _ => .required false, quoted, cs)
  | ':' :: '+' :: cs => some (.alternative true, quoted, cs)
  | '+' :: cs => some (.alternative false, quoted, cs)
  | '#' :: '#' :: cs => some (.trimmed .longestFront, false, cs)
  | '#' :: cs => some (.trimmed .shortestFront, false, cs)
  | '%' :: '%' :: cs => some (.trimmed .longestEnd, false, cs)
  | '%' :: cs => some (.trimmed .shortestEnd, false, cs)
  | '\x7d' :: cs => some (fun _ => .plain, quoted, '\x7d' :: cs)
  | _ => none

mutual

/-- The rest of a word in a scope, and what follows. -/
def word? : (fuel : Nat) → Scope → List Char → Option (Word × List Char)
  | 0, _, _ => none
  | _, .bare, [] => some ([], [])
  | _, .document, [] => some ([], [])
  | _, _, [] => none
  | fuel + 1, scope, c :: cs =>
    let go (scope : Scope) (c : Char) (quoted : Bool) (cs : List Char) :=
      (word? fuel scope cs).map fun (w, rest) => (Word.cons c quoted w, rest)
    match scope, c, cs with
    | .braces _, '\x7d', cs => some ([], cs)
    | .quotes, '"', cs => some ([], cs)
    | .sum 0, ')', ')' :: cs => some ([], cs)
    | .sum 0, ')', _ => none
    | .sum (depth + 1), ')', cs => go (.sum depth) ')' true cs
    | .sum depth, '(', cs => go (.sum (depth + 1)) '(' true cs
    | scope, '\\', '\n' :: cs => word? fuel scope cs
    | scope, '\\', d :: cs =>
      if scope.takesBackslash d then go scope d true cs else go scope '\\' scope.isQuoted (d :: cs)
    | scope, '$', cs => do
      let (fragment, rest) ← dollar? fuel scope.isQuoted cs
      let (w, rest) ← word? fuel scope rest
      return (fragment :: w, rest)
    | scope, '\x60', cs => do
      let (source, rest) ← backquoted? scope.isQuoted cs
      let (w, rest) ← word? fuel scope rest
      return (.output source scope.isQuoted :: w, rest)
    | scope, c, cs =>
      if scope = .bare ∧ endsWord c then some ([], c :: cs)
      else if c = '\'' ∧ scope.takesSingle then
        match cs.span (· ≠ '\'') with
        | (_, []) => none
        | (inside, _ :: rest) =>
          (word? fuel scope rest).map fun (w, rest) => (.text inside true :: w, rest)
      else if c = '"' ∧ scope.takesDouble then do
        let (inside, rest) ← word? fuel .quotes cs
        let (w, rest) ← word? fuel scope rest
        return (.text [] true :: inside ++ w, rest)
      else go scope c scope.isQuoted cs

/-- What follows a dollar sign. One that nothing follows stands for itself. -/
def dollar? : (fuel : Nat) → (quoted : Bool) → List Char → Option (Fragment × List Char)
  | 0, _, _ => none
  | fuel + 1, quoted, '\x7b' :: cs => braced? fuel quoted cs
  | fuel + 1, quoted, '(' :: '(' :: cs =>
    match word? fuel (.sum 0) cs with
    | some (w, rest) => some (.number w quoted, rest)
    | none =>
      (enclosed? (2 * cs.length + 4) [some 0] true ('(' :: cs)).map
        fun (source, rest) => (.output source quoted, rest)
  | _ + 1, quoted, '(' :: cs =>
    (enclosed? (2 * cs.length + 4) [some 0] true cs).map
      fun (source, rest) => (.output source quoted, rest)
  | _ + 1, quoted, [] => some (.text ['$'] quoted, [])
  | _ + 1, quoted, c :: cs =>
    if isNameStart c then
      let (name, rest) := (c :: cs).span isNameChar
      some (.value (String.ofList name) .plain quoted, rest)
    else if c.isDigit || isSpecial c then some (.value (String.singleton c) .plain quoted, cs)
    else some (.text ['$'] quoted, c :: cs)

/-- What follows an opening brace behind a dollar sign. -/
def braced? : (fuel : Nat) → (quoted : Bool) → List Char → Option (Fragment × List Char)
  | 0, _, _ => none
  | _, quoted, '#' :: '\x7d' :: rest => some (.value "#" .plain quoted, rest)
  | fuel + 1, quoted, cs =>
    let counted : Option (Fragment × List Char) :=
      match cs with
      | '#' :: cs =>
        match name? cs with
        | some (name, '\x7d' :: rest) => some (.value (String.ofList name) .length quoted, rest)
        | _ => none
      | _ => none
    match counted with
    | some found => some found
    | none =>
      let found := do
        let (name, rest) ← name? cs
        let (use, quoted, rest) ← use? quoted rest
        return (String.ofList name, use, quoted, rest)
      match found with
      | some (name, use, inner, rest) => do
        let (w, rest) ← word? fuel (.braces inner) rest
        return (.value name (use w) quoted, rest)
      | none => do
        let (_, rest) ← word? fuel (.braces quoted) cs
        return (.value "" .unknown quoted, rest)

end

/-- A bound on the calls for a word: each takes a character or is one of three for it. -/
def wordBound (cs : List Char) : Nat := 4 * cs.length + 4

/-- Text that follows the line that it is announced on, up to a line of its own. -/
structure Announced where
  delimiter : List Char
  /-- Whether the text stands for itself. -/
  quoted : Bool
  /-- Whether tabs in front of lines are left out. -/
  stripped : Bool

/-- A delimiter without its quotation marks, and whether there were any. The mark that is open may
be given. -/
def delimiter : (opened : Option Char) → List Char → List Char × Bool × List Char
  | _, [] => ([], false, [])
  | none, '\\' :: c :: cs =>
    let (text, _, rest) := delimiter none cs
    (c :: text, true, rest)
  | opened, c :: cs =>
    if opened = some c then
      let (text, _, rest) := delimiter none cs
      (text, true, rest)
    else if opened = none ∧ endsWord c then ([], false, c :: cs)
    else if opened = none ∧ (c = '\'' ∨ c = '"') then
      let (text, _, rest) := delimiter (some c) cs
      (text, true, rest)
    else
      let (text, quoted, rest) := delimiter opened cs
      (c :: text, quoted, rest)

/-- The lines up to the delimiter, and what follows it. -/
def documentLines (a : Announced) : (fuel : Nat) → List Char → List Char × List Char
  | 0, cs => ([], cs)
  | _, [] => ([], [])
  | fuel + 1, cs =>
    let (line, rest) := cs.span (· ≠ '\n')
    let line := if a.stripped then line.dropWhile (· = '\t') else line
    if line = a.delimiter then ([], rest.drop 1)
    else
      let (text, after) := documentLines a fuel (rest.drop 1)
      (line ++ rest.take 1 ++ text, after)

/-- The text that was announced, as a word. -/
def document? (a : Announced) (text : List Char) : Option Word :=
  if a.quoted then some [.text text true]
  else (word? (wordBound text) .document text).map (·.1)

end Lexer

inductive Token where
  | word (w : Word)
  | newline
  | semicolon
  | doubleSemicolon
  | ampersand
  | doubleAmpersand
  | bar
  | doubleBar
  | openParen
  | closeParen
  | redirect (channel : Option Nat) (kind : RedirectionKind)
  /-- Text that follows on later lines. -/
  | announced (channel : Option Nat)
  /-- The text that has been announced. -/
  | document (w : Word)
  /-- From here on the text is no script. -/
  | broken

namespace Token

open Lexer

/-- A mark at the front of a text. -/
def mark? : List Char → Option (Token × List Char)
  | ';' :: ';' :: cs => some (.doubleSemicolon, cs)
  | ';' :: cs => some (.semicolon, cs)
  | '&' :: '&' :: cs => some (.doubleAmpersand, cs)
  | '&' :: cs => some (.ampersand, cs)
  | '|' :: '|' :: cs => some (.doubleBar, cs)
  | '|' :: cs => some (.bar, cs)
  | '(' :: cs => some (.openParen, cs)
  | ')' :: cs => some (.closeParen, cs)
  | _ => none

/-- A redirection at the front of a text. -/
def redirection? : List Char → Option (RedirectionKind × List Char)
  | '<' :: '&' :: cs => some (.copy, cs)
  | '<' :: '>' :: cs => some (.both, cs)
  | '<' :: cs => some (.input, cs)
  | '>' :: '>' :: cs => some (.append, cs)
  | '>' :: '&' :: cs => some (.copy, cs)
  | '>' :: '|' :: cs => some (.overwrite, cs)
  | '>' :: cs => some (.output, cs)
  | _ => none

/-- The number of a channel in front of a redirection. -/
def channel (cs : List Char) : Option Nat × List Char :=
  match cs.span Char.isDigit with
  | (digits, c :: rest) =>
    if digits ≠ [] ∧ (c = '<' ∨ c = '>') then ((String.ofList digits).toNat?, c :: rest)
    else (none, cs)
  | _ => (none, cs)

/-- The texts that were announced on a line, and what follows them. -/
def documents : List Announced → List Char → List Token × List Char
  | [], cs => ([], cs)
  | a :: more, cs =>
    let (text, rest) := documentLines a (cs.length + 1) cs
    let (tokens, rest) := documents more rest
    ((document? a text).elim .broken .document :: tokens, rest)

/-- The tokens of a text; a comment reaches to the end of its line. -/
def ofChars : (fuel : Nat) → List Announced → List Char → List Token
  | 0, _, _ => []
  | _, waiting, [] => (documents waiting []).1
  | fuel + 1, waiting, '\\' :: '\n' :: cs => ofChars fuel waiting cs
  | fuel + 1, waiting, '\n' :: cs =>
    let (tokens, rest) := documents waiting cs
    .newline :: tokens ++ ofChars fuel [] rest
  | fuel + 1, waiting, '#' :: cs => ofChars fuel waiting (cs.dropWhile (· ≠ '\n'))
  | fuel + 1, waiting, cs =>
    if cs.head?.any isBlank then ofChars fuel waiting (cs.drop 1)
    else
      match mark? cs with
      | some (token, rest) => token :: ofChars fuel waiting rest
      | none =>
        let (number, rest) := channel cs
        match rest with
        | '<' :: '<' :: rest =>
          let stripped := rest.head? = some '-'
          let rest := (if stripped then rest.drop 1 else rest).dropWhile isBlank
          let (text, quoted, rest) := delimiter none rest
          .announced number :: ofChars fuel (waiting ++ [⟨text, quoted, stripped⟩]) rest
        | rest =>
          match redirection? rest with
          | some (kind, after) =>
            let channel := number.or (if rest.head? = some '<' then some 0 else some 1)
            .redirect channel kind :: ofChars fuel waiting after
          | none =>
            match word? (wordBound rest) .bare rest with
            | none => [.broken]
            | some (w, rest) => .word w :: ofChars fuel waiting rest

/-- Puts announced texts where they belong. -/
def placed (texts : List Token) : List Token → List Token
  | [] => []
  | .announced channel :: rest =>
    let body := match texts with
      | .document w :: _ => .word w
      | _ => .broken
    .redirect channel .text :: body :: placed (texts.drop 1) rest
  | .document _ :: rest => placed texts rest
  | token :: rest => token :: placed texts rest

def isDocument : Token → Bool
  | .document _ => true
  | _ => false

/-- The tokens of a script. Each takes at least one character. -/
def ofText (text : List Char) : List Token :=
  let tokens := ofChars (text.length + 1) [] text
  placed (tokens.filter isDocument) tokens

end Token

end CaseHarvest.Rehearsal
