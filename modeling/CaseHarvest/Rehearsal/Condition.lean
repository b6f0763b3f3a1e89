import CaseHarvest.Rehearsal.Program
/-!
Conditions on files, texts and numbers, as they stand between brackets.
-/
namespace CaseHarvest.Rehearsal.Condition

/-- What a condition comes to, or nothing if it makes no sense. -/
abbrev Verdict := Option Bool

def isFile : Entry → Bool
  | .file _ _ => true
  | _ => false

def isEmptyFile : Entry → Bool
  | .file content _ => content.isEmpty
  | _ => false

def isLink : Entry → Bool
  | .link _ => true
  | _ => false

def isRunnable : Entry → Bool
  | .file _ executable => executable
  | .directory => true
  | _ => false

/-- Whether a letter in front of an operand asks something of it. -/
def isUnary (operator : String) : Bool :=
  match operator.toList with
  | ['-', c] => "bcdefghknpqrstuwxzGLOS".toList.contains c
  | _ => false

def unary (s : Surroundings) (operator operand : String) : Verdict :=
  let entry := s.disk.entry? s.cwd operand
  match operator with
  | "-e" => some entry.isSome
  | "-r" => some entry.isSome
  | "-w" => some entry.isSome
  | "-f" => some (entry.any isFile)
  | "-d" => some (entry = some .directory)
  | "-s" => some (entry.any fun e => !isEmptyFile e && e ≠ .pipe)
  | "-x" => some (entry.any isRunnable)
  | "-p" => some (entry = some .pipe)
  | "-h" => some ((s.disk.ownEntry? s.cwd operand).any isLink)
  | "-L" => some ((s.disk.ownEntry? s.cwd operand).any isLink)
  | "-O" => some entry.isSome
  | "-G" => some entry.isSome
  | "-n" => some (operand ≠ "")
  | "-z" => some (operand = "")
  | _ => some false

/-- A decimal number with a sign, between blanks. -/
def integer? (text : String) : Option Int := do
  let isSpace := CharSet.spaces.contains
  let trimmed := ((text.toList.dropWhile isSpace).reverse.dropWhile isSpace).reverse
  let value ← match trimmed with
    | '-' :: cs => (Arithmetic.ofDigits? 10 cs).map fun n => (cs, -n)
    | '+' :: cs => (Arithmetic.ofDigits? 10 cs).map fun n => (cs, n)
    | cs => (Arithmetic.ofDigits? 10 cs).map fun n => (cs, n)
  let (digits, n) := value
  if digits.isEmpty ∨ Arithmetic.wrap n ≠ n then none else some n

def isBinary (s : Surroundings) (operator : String) : Bool :=
  operator ∈ ["=", "!=", "<", ">", "-eq", "-ne", "-lt", "-le", "-gt", "-ge", "-nt", "-ot", "-ef"]
    || operator = "==" && !s.strict

/-- How two operands compare. Files have no times here, so none is newer than another. -/
def binary (s : Surroundings) (operator a b : String) : Verdict :=
  let numbers (f : Int → Int → Bool) : Verdict := do return f (← integer? a) (← integer? b)
  let place (path : String) := s.disk.find? s.cwd path
  match operator with
  | "=" => some (a = b)
  | "==" => some (a = b)
  | "!=" => some (a ≠ b)
  | "<" => some (a < b)
  | ">" => some (b < a)
  | "-eq" => numbers fun m n => m = n
  | "-ne" => numbers fun m n => m ≠ n
  | "-lt" => numbers fun m n => m < n
  | "-le" => numbers fun m n => m ≤ n
  | "-gt" => numbers fun m n => n < m
  | "-ge" => numbers fun m n => n ≤ m
  | "-nt" => some ((place a).isSome && (place b).isNone)
  | "-ot" => some ((place a).isNone && (place b).isSome)
  | _ => some ((place a).isSome && place a = place b)

mutual

/-- A condition and the words behind it. -/
def disjunction : (fuel : Nat) → Surroundings → List String → Option (Bool × List String)
  | 0, _, _ => none
  | fuel + 1, s, words => do
    let (a, rest) ← conjunction fuel s words
    match rest with
    | "-o" :: rest =>
      let (b, rest) ← disjunction fuel s rest
      return (a || b, rest)
    | rest => return (a, rest)

def conjunction : (fuel : Nat) → Surroundings → List String → Option (Bool × List String)
  | 0, _, _ => none
  | fuel + 1, s, words => do
    let (a, rest) ← primary fuel s words
    match rest with
    | "-a" :: rest =>
      let (b, rest) ← conjunction fuel s rest
      return (a && b, rest)
    | rest => return (a, rest)

def primary : (fuel : Nat) → Surroundings → List String → Option (Bool × List String)
  | 0, _, _ => none
  | _ + 1, _, [] => none
  | fuel + 1, s, a :: rest =>
    match rest with
    | operator :: b :: after =>
      if isBinary s operator then (binary s operator a b).map (·, after)
      else plain fuel s a rest
    | rest => plain fuel s a rest

/-- A condition that does not begin with an operand of a comparison. -/
def plain : (fuel : Nat) → Surroundings → String → List String → Option (Bool × List String)
  | 0, _, _, _ => none
  | fuel + 1, s, a, rest =>
    if a = "!" ∧ rest ≠ [] then
      (primary fuel s rest).map fun (b, rest) => (!b, rest)
    else if a = "(" ∧ rest ≠ [] then do
      let (b, rest) ← disjunction fuel s rest
      match rest with
      | ")" :: rest => return (b, rest)
      | _ => none
    else
      match rest with
      | operand :: after =>
        if isUnary a then (unary s a operand).map (·, after) else some (a ≠ "", rest)
      | [] => some (a ≠ "", [])

end

/-- What words between brackets come to. Few words are first taken as what they most likely are. -/
def verdict (s : Surroundings) (words : List String) : Verdict :=
  match words with
  | [] => some false
  | [a] => some (a ≠ "")
  | ["!", a] => some (a = "")
  | [operator, a] => if isUnary operator then unary s operator a else none
  | ["!", operator, a] =>
    if isBinary s operator then binary s operator "!" a
    else if isUnary operator then (unary s operator a).map (!·)
    else none
  | ["(", a, ")"] => some (a ≠ "")
  | words =>
    match disjunction (4 * words.length + 8) s words with
    | some (b, []) => some b
    | _ => none

def conclude (s : Surroundings) (v : Verdict) : Effect :=
  s.leave (match v with
    | some true => 0
    | some false => 1
    | none => 2)

def test (s : Surroundings) (words : List String) : Effect := conclude s (verdict s words)

/-- The condition between brackets; the closing one is its last word. -/
def bracket (s : Surroundings) (words : List String) : Effect :=
  if words.getLast? = some "]" then test s words.dropLast else s.leave 2

end CaseHarvest.Rehearsal.Condition
