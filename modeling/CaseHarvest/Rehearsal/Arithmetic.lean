import CaseHarvest.Rehearsal.Lexer
/-!
Whole numbers of 64 bits and the expressions over them.
-/
namespace CaseHarvest.Rehearsal

/-- Variables of a shell by their names. -/
abbrev Variables := List (String × String)

namespace Arithmetic

inductive Term where
  | number (n : Int)
  | name (name : String)
  | operator (text : String)
  deriving DecidableEq, Repr

/-- The value in 64 bits with a sign. -/
def wrap (n : Int) : Int := n.bmod 18446744073709551616

/-- What a digit is worth, whatever the base. -/
def digitValue (c : Char) : Nat :=
  if c.isDigit then c.toNat - '0'.toNat
  else if c.isLower then c.toNat - 'a'.toNat + 10
  else if c.isUpper then c.toNat - 'A'.toNat + 10
  else 99

def ofDigits? (base : Nat) (digits : List Char) : Option Int :=
  if digits.all fun c => digitValue c < base then
    some (Int.ofNat (digits.foldl (fun n c => n * base + digitValue c) 0))
  else none

/-- A number: octal with a zero in front, hexadecimal with a zero and an x. -/
def number? : List Char → Option Int
  | '0' :: 'x' :: digits => if digits.isEmpty then none else ofDigits? 16 digits
  | '0' :: 'X' :: digits => if digits.isEmpty then none else ofDigits? 16 digits
  | '0' :: digits => ofDigits? 8 digits
  | digits => if digits.isEmpty then none else ofDigits? 10 digits

/-- A number with a sign, between blanks. -/
def signed? (text : String) : Option Int :=
  let trimmed := (text.toList.dropWhile CharSet.spaces.contains).reverse.dropWhile CharSet.spaces.contains
  match trimmed.reverse with
  | '-' :: cs => (number? cs).map (- ·)
  | '+' :: cs => number? cs
  | cs => number? cs

def operators : List String :=
  ["<<=", ">>=", "&&", "||", "<<", ">>", "<=", ">=", "==", "!=", "+=", "-=", "*=", "/=", "%=",
    "&=", "|=", "^=", "+", "-", "*", "/", "%", "<", ">", "=", "!", "~", "&", "|", "^", "?", ":",
    "(", ")", ","]

def terms? : (fuel : Nat) → List Char → Option (List Term)
  | 0, _ => none
  | _, [] => some []
  | fuel + 1, c :: cs =>
    if CharSet.spaces.contains c then terms? fuel cs
    else if c.isDigit then do
      let (digits, rest) := (c :: cs).span Char.isAlphanum
      return .number (← number? digits) :: (← terms? fuel rest)
    else if Lexer.isNameStart c then do
      let (name, rest) := (c :: cs).span Lexer.isNameChar
      return .name (String.ofList name) :: (← terms? fuel rest)
    else do
      let operator ← operators.find? fun (o : String) => o.toList.isPrefixOf (c :: cs)
      return .operator operator :: (← terms? fuel ((c :: cs).drop operator.length))

/-- The levels of binary operators, from the loosest. -/
def levels : List (List String) :=
  [["||"], ["&&"], ["|"], ["^"], ["&"], ["==", "!="], ["<=", ">=", "<", ">"], ["<<", ">>"],
    ["+", "-"], ["*", "/", "%"]]

def ofBool (b : Bool) : Int := if b then 1 else 0

def bitwise (f : Nat → Nat → Nat) (a b : Int) : Int :=
  let bits (n : Int) : Nat := (n % 18446744073709551616).toNat
  wrap (f (bits a) (bits b))

/-- The value of a binary operator; none if it divides by zero. -/
def result? (operator : String) (a b : Int) : Option Int :=
  let shift : Nat := (b % 64).toNat
  match operator with
  | "||" => some (ofBool (a ≠ 0 || b ≠ 0))
  | "&&" => some (ofBool (a ≠ 0 && b ≠ 0))
  | "|" => some (bitwise Nat.lor a b)
  | "^" => some (bitwise Nat.xor a b)
  | "&" => some (bitwise Nat.land a b)
  | "==" => some (ofBool (a = b))
  | "!=" => some (ofBool (a ≠ b))
  | "<=" => some (ofBool (a ≤ b))
  | ">=" => some (ofBool (b ≤ a))
  | "<" => some (ofBool (a < b))
  | ">" => some (ofBool (b < a))
  | "<<" => some (wrap (a * Int.ofNat (1 <<< shift)))
  | ">>" => some (a.fdiv (Int.ofNat (1 <<< shift)))
  | "+" => some (wrap (a + b))
  | "-" => some (wrap (a - b))
  | "*" => some (wrap (a * b))
  | "/" => if b = 0 then none else some (wrap (a.tdiv b))
  | "%" => if b = 0 then none else some (a.tmod b)
  | _ => none

/-- The value of a variable; one that is missing or empty counts as zero. -/
def ofVariable? (vars : Variables) (name : String) : Option Int :=
  match vars.lookup name with
  | none => some 0
  | some "" => some 0
  | some text => signed? text

/-- The operator that an assignment applies first, if it is an assignment. -/
def assignment? (operator : String) : Option String :=
  if operator = "=" then some ""
  else if operator ∈ ["<<=", ">>=", "+=", "-=", "*=", "/=", "%=", "&=", "|=", "^="] then
    some (String.ofList operator.toList.dropLast)
  else none

/-- A value, what follows it, and the variables behind it. Where the flag is off only the form of the
expression matters. -/
abbrev Result := Option (Int × List Term × Variables)

mutual

def value? : (fuel : Nat) → (counts : Bool) → Variables → List Term → Result
  | 0, _, _, _ => none
  | fuel + 1, counts, vars, .name name :: .operator operator :: rest =>
    match assignment? operator with
    | none => choice? fuel counts vars (.name name :: .operator operator :: rest)
    | some operator => do
      let (b, rest, vars) ← value? fuel counts vars rest
      let value ← if operator = "" ∨ !counts then some b
        else do result? operator (← ofVariable? vars name) b
      return (value, rest, if counts then (name, toString value) :: vars else vars)
  | fuel + 1, counts, vars, ts => choice? fuel counts vars ts

def choice? : (fuel : Nat) → (counts : Bool) → Variables → List Term → Result
  | 0, _, _, _ => none
  | fuel + 1, counts, vars, ts => do
    let (condition, rest, vars) ← binary? fuel counts vars levels ts
    match rest with
    | .operator "?" :: rest =>
      let (a, rest, vars) ← value? fuel (counts && condition ≠ 0) vars rest
      let .operator ":" :: rest := rest | none
      let (b, rest, vars) ← choice? fuel (counts && condition = 0) vars rest
      return (if condition ≠ 0 then a else b, rest, vars)
    | rest => return (condition, rest, vars)

/-- Operators of a level and of all tighter ones. -/
def binary? : (fuel : Nat) → (counts : Bool) → Variables → List (List String) → List Term → Result
  | 0, _, _, _, _ => none
  | fuel + 1, counts, vars, [], ts => unary? fuel counts vars ts
  | fuel + 1, counts, vars, level :: tighter, ts => do
    let (a, rest, vars) ← binary? fuel counts vars tighter ts
    chain? fuel counts vars level tighter a rest

/-- Further operators of a level behind a value. -/
def chain? : (fuel : Nat) → (counts : Bool) → Variables → List String → List (List String) → Int →
    List Term → Result
  | 0, _, _, _, _, _, _ => none
  | fuel + 1, counts, vars, level, tighter, a, .operator operator :: rest =>
    if operator ∈ level then do
      let needed : Bool := match operator with
        | "||" => a = 0
        | "&&" => a ≠ 0
        | _ => true
      let (b, rest, vars) ← binary? fuel (counts && needed) vars tighter rest
      let value ← if counts then result? operator a b else some 0
      chain? fuel counts vars level tighter value rest
    else some (a, .operator operator :: rest, vars)
  | _ + 1, _, vars, _, _, a, rest => some (a, rest, vars)

def unary? : (fuel : Nat) → (counts : Bool) → Variables → List Term → Result
  | 0, _, _, _ => none
  | _ + 1, _, vars, .number n :: rest => some (wrap n, rest, vars)
  | _ + 1, counts, vars, .name name :: rest => do
    return (← if counts then ofVariable? vars name else some 0, rest, vars)
  | fuel + 1, counts, vars, .operator "(" :: rest => do
    let (a, rest, vars) ← value? fuel counts vars rest
    let .operator ")" :: rest := rest | none
    return (a, rest, vars)
  | fuel + 1, counts, vars, .operator "-" :: rest => do
    let (a, rest, vars) ← unary? fuel counts vars rest
    return (wrap (-a), rest, vars)
  | fuel + 1, counts, vars, .operator "+" :: rest => unary? fuel counts vars rest
  | fuel + 1, counts, vars, .operator "!" :: rest => do
    let (a, rest, vars) ← unary? fuel counts vars rest
    return (ofBool (a = 0), rest, vars)
  | fuel + 1, counts, vars, .operator "~" :: rest => do
    let (a, rest, vars) ← unary? fuel counts vars rest
    return (wrap (-a - 1), rest, vars)
  | _ + 1, _, _, _ => none

end

/-- The value of an expression and the variables behind it. An empty expression is zero. -/
def evaluate? (vars : Variables) (text : String) : Option (Int × Variables) := do
  let ts ← terms? (text.length + 1) text.toList
  if ts.isEmpty then return (0, vars)
  match ← value? (24 * ts.length + 24) true vars ts with
  | (value, [], vars) => return (value, vars)
  | _ => none

end Arithmetic

end CaseHarvest.Rehearsal
