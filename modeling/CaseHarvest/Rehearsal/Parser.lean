import CaseHarvest.Rehearsal.Lexer
/-!
The statements of a script. A script is read one command line after the other, so that what stands
before a line that makes no sense is still run.
-/
namespace CaseHarvest.Rehearsal

/-- The plain text of a word without quotation marks or variables. -/
def Word.keyword? : Word → Option String
  | [.text chars false] => some (String.ofList chars)
  | _ => none

/-- The variable and the value if a word sets a variable. -/
def Word.assignment? (w : Word) : Option (String × Word) :=
  match w with
  | .text chars false :: rest =>
    let (name, value) := chars.span Lexer.isNameChar
    match value with
    | '=' :: value =>
      if name.head?.any Lexer.isNameStart then
        some (String.ofList name, if value.isEmpty then rest else .text value false :: rest)
      else none
    | _ => none
  | _ => none

namespace Script

def isKeyword (keyword : String) : List Token → Bool
  | .word w :: _ => w.keyword? = some keyword
  | _ => false

/-- What follows a keyword that has to be there. -/
def afterKeyword? (keyword : String) (tokens : List Token) : Option (List Token) :=
  if isKeyword keyword tokens then some (tokens.drop 1) else none

def skipNewlines : List Token → List Token
  | .newline :: rest => skipNewlines rest
  | rest => rest

/-- Line ends, and one semicolon in front of them. -/
def skipSeparator : List Token → List Token
  | .semicolon :: rest => skipNewlines rest
  | rest => skipNewlines rest

/-- The words up to something else. -/
def takeWords : List Token → List Word × List Token
  | .word w :: rest =>
    let (words, rest) := takeWords rest
    (w :: words, rest)
  | rest => ([], rest)

/-- The words of a command and where its channels lead to. -/
def takeCommand : List Token → List Word × List Redirection × List Token
  | .word w :: rest =>
    let (words, redirections, rest) := takeCommand rest
    (w :: words, redirections, rest)
  | .redirect channel kind :: .word w :: rest =>
    let (words, redirections, rest) := takeCommand rest
    (words, ⟨channel.getD 0, kind, w⟩ :: redirections, rest)
  | rest => ([], [], rest)

/-- Assignments at the front of words. -/
def splitAssignments : List Word → List (String × Word) × List Word
  | [] => ([], [])
  | w :: words =>
    match w.assignment? with
    | none => ([], w :: words)
    | some a =>
      let (assignments, words) := splitAssignments words
      (a :: assignments, words)

/-- The patterns of a branch up to the parenthesis behind them. -/
def patterns? : List Token → Option (List Word × List Token)
  | .word w :: .closeParen :: rest => some ([w], rest)
  | .word w :: .bar :: rest => do
    let (ws, rest) ← patterns? rest
    return (w :: ws, rest)
  | _ => none

/-- Where the channels of a compound statement lead to. -/
def redirect? (s : Statement) (tokens : List Token) : Option (Statement × List Token) :=
  match takeCommand tokens with
  | ([], [], rest) => some (s, rest)
  | ([], redirections, rest) => some (.redirected s redirections, rest)
  | _ => none

/-- Words that begin a statement of their own kind. -/
def openers : List String := ["\x7b", "!", "if", "for", "while", "until", "case"]

def closers : List String := ["do", "done", "esac", "then", "elif", "else", "fi", "\x7d"]

/-- Whether a list of statements is at its end. -/
def isEnd : List Token → Bool
  | [] => true
  | .closeParen :: _ => true
  | .doubleSemicolon :: _ => true
  | tokens => closers.any (isKeyword · tokens)

mutual

/-- Statements up to an end, or up to the end of their line. -/
def statements? : (fuel : Nat) → (oneLine : Bool) → List Token → Option (Script × List Token)
  | 0, _, _ => none
  | fuel + 1, oneLine, tokens => do
    let tokens := if oneLine then tokens else skipNewlines tokens
    if isEnd tokens then if oneLine && !tokens.isEmpty then none else return ([], tokens)
    let (s, rest) ← list? fuel tokens
    match rest with
    | .ampersand :: rest =>
      let (script, rest) ← more? fuel oneLine rest
      return ((s, true) :: script, rest)
    | .semicolon :: rest =>
      let (script, rest) ← more? fuel oneLine rest
      return ((s, false) :: script, rest)
    | .newline :: rest =>
      if oneLine then return ([(s, false)], rest)
      else
        let (script, rest) ← statements? fuel oneLine rest
        return ((s, false) :: script, rest)
    | rest =>
      if isEnd rest && !(oneLine && !rest.isEmpty) then return ([(s, false)], rest) else none

/-- What follows a statement and its mark. -/
def more? : (fuel : Nat) → (oneLine : Bool) → List Token → Option (Script × List Token)
  | 0, _, _ => none
  | fuel + 1, oneLine, tokens =>
    match oneLine, tokens with
    | true, .newline :: rest => some ([], rest)
    | _, tokens => statements? fuel oneLine tokens

/-- Pipelines that hang on each other. -/
def list? : (fuel : Nat) → List Token → Option (Statement × List Token)
  | 0, _ => none
  | fuel + 1, tokens => do
    let (s, rest) ← pipeline? fuel tokens
    rest? fuel s rest

def rest? : (fuel : Nat) → Statement → List Token → Option (Statement × List Token)
  | 0, _, _ => none
  | fuel + 1, s, .doubleAmpersand :: rest => do
    let (t, rest) ← pipeline? fuel (skipNewlines rest)
    rest? fuel (.both s t) rest
  | fuel + 1, s, .doubleBar :: rest => do
    let (t, rest) ← pipeline? fuel (skipNewlines rest)
    rest? fuel (.either s t) rest
  | _ + 1, s, rest => some (s, rest)

def pipeline? : (fuel : Nat) → List Token → Option (Statement × List Token)
  | 0, _ => none
  | fuel + 1, tokens =>
    if isKeyword "!" tokens then do
      if isKeyword "!" (tokens.drop 1) then none
      let (s, rest) ← pipeline? fuel (tokens.drop 1)
      return (.negated s, rest)
    else do
      let (stages, rest) ← stages? fuel tokens
      match stages with
      | [s] => return (s, rest)
      | stages => return (.pipeline stages, rest)

def stages? : (fuel : Nat) → List Token → Option (List Statement × List Token)
  | 0, _ => none
  | fuel + 1, tokens => do
    let (s, rest) ← statement? fuel tokens
    match rest with
    | .bar :: rest =>
      let (stages, rest) ← stages? fuel (skipNewlines rest)
      return (s :: stages, rest)
    | rest => return ([s], rest)

/-- Statements that must not be missing. -/
def body? : (fuel : Nat) → List Token → Option (Script × List Token)
  | 0, _ => none
  | fuel + 1, tokens => do
    let (script, rest) ← statements? fuel false tokens
    if script.isEmpty then none else return (script, rest)

def statement? : (fuel : Nat) → List Token → Option (Statement × List Token)
  | 0, _ => none
  | fuel + 1, .openParen :: rest => do
    let (body, rest) ← body? fuel rest
    match rest with
    | .closeParen :: rest => redirect? (.subshell body) rest
    | _ => none
  | fuel + 1, .word name :: .openParen :: .closeParen :: rest => do
    let (body, rest) ← statement? fuel (skipNewlines rest)
    return (.define (← name.keyword?) body, rest)
  | fuel + 1, tokens =>
    if isEnd tokens then none
    else if isKeyword "\x7b" tokens then do
      let (body, rest) ← body? fuel (tokens.drop 1)
      redirect? (.group body) (← afterKeyword? "\x7d" rest)
    else if isKeyword "for" tokens then do
      let .word w :: rest := tokens.drop 1 | none
      let name ← w.keyword?
      let (words, rest) :=
        if isKeyword "in" (skipNewlines rest) then
          let (words, rest) := takeWords ((skipNewlines rest).drop 1)
          (some words, rest)
        else (none, rest)
      let rest ← afterKeyword? "do" (skipSeparator rest)
      let (body, rest) ← body? fuel rest
      redirect? (.forEach name words body) (← afterKeyword? "done" rest)
    else if isKeyword "while" tokens ∨ isKeyword "until" tokens then do
      let (condition, rest) ← body? fuel (tokens.drop 1)
      let (body, rest) ← body? fuel (← afterKeyword? "do" rest)
      redirect? (.loop (isKeyword "until" tokens) condition body) (← afterKeyword? "done" rest)
    else if isKeyword "case" tokens then do
      let .word w :: rest := tokens.drop 1 | none
      let rest ← afterKeyword? "in" (skipNewlines rest)
      let (branches, rest) ← branches? fuel (skipNewlines rest)
      redirect? (.choose w branches) rest
    else if isKeyword "if" tokens then do
      let (s, rest) ← test? fuel (tokens.drop 1)
      redirect? s rest
    else
      let (words, redirections, rest) := takeCommand tokens
      if words.isEmpty && redirections.isEmpty then none
      else
        let (assignments, words) := splitAssignments words
        some (.simple assignments words redirections, rest)

/-- The condition and the branches behind an `if`. -/
def test? : (fuel : Nat) → List Token → Option (Statement × List Token)
  | 0, _ => none
  | fuel + 1, tokens => do
    let (condition, rest) ← body? fuel tokens
    let (yes, rest) ← body? fuel (← afterKeyword? "then" rest)
    if isKeyword "elif" rest then
      let (s, rest) ← test? fuel (rest.drop 1)
      return (.test condition yes [(s, false)], rest)
    else if isKeyword "else" rest then
      let (no, rest) ← body? fuel (rest.drop 1)
      return (.test condition yes no, ← afterKeyword? "fi" rest)
    else return (.test condition yes [], ← afterKeyword? "fi" rest)

/-- The branches of a choice and the keyword that ends it. -/
def branches? : (fuel : Nat) → List Token → Option (List (List Word × Script) × List Token)
  | 0, _ => none
  | fuel + 1, tokens =>
    match afterKeyword? "esac" tokens with
    | some rest => some ([], rest)
    | none => do
      let tokens := match tokens with
        | .openParen :: rest => rest
        | rest => rest
      let (patterns, rest) ← patterns? tokens
      let (body, rest) ← statements? fuel false rest
      match rest with
      | .doubleSemicolon :: rest =>
        let (branches, rest) ← branches? fuel (skipNewlines rest)
        return ((patterns, body) :: branches, rest)
      | rest => return ([(patterns, body)], ← afterKeyword? "esac" rest)

end

/-- A bound on the calls: each takes a token or is one of twelve for it. -/
def callBound (tokens : List Token) : Nat := 12 * tokens.length + 12

/-- The next command line of a script, which may reach over several lines. -/
def nextLine? (tokens : List Token) : Option (Script × List Token) := do
  let (script, rest) ← statements? (callBound tokens) true (skipNewlines tokens)
  if script.isEmpty then none else return (script, rest)

end Script

end CaseHarvest.Rehearsal
