import CaseHarvest.Binary64.Basic
/-!
Reading numbers from text: decimal notation with an optional point and exponent, rounded once to
the nearest binary64 value, and whole numbers.
-/
namespace CaseHarvest

def digitValue? (c : Char) : Option Nat :=
  if '0' ≤ c ∧ c ≤ '9' then some (c.toNat - '0'.toNat) else none

/-- The digits at the front and what follows them. -/
def takeDigits : List Char → List Nat × List Char
  | [] => ([], [])
  | c :: cs =>
    match digitValue? c with
    | some d => let (ds, rest) := takeDigits cs; (d :: ds, rest)
    | none => ([], c :: cs)

def ofDigits (digits : List Nat) : Nat := digits.foldl (fun n d => 10 * n + d) 0

/-- A sign, if there is one, and what follows it. -/
def takeSign : List Char → Bool × List Char
  | '-' :: cs => (true, cs)
  | '+' :: cs => (false, cs)
  | cs => (false, cs)

/-- A whole number in decimal digits after an optional sign. -/
def integer? (text : String) : Option Int :=
  let (negative, cs) := takeSign text.toList
  match takeDigits cs with
  | (d :: ds, []) => let n := ofDigits (d :: ds); some (if negative then -n else n)
  | _ => none

def int32OfInt? (n : Int) : Option Int32 :=
  if -0x80000000 ≤ n ∧ n < 0x80000000 then some (Int32.ofInt n) else none

/-- A whole number of 32 bits in decimal digits after an optional sign. -/
def int32? (text : String) : Option Int32 := integer? text >>= int32OfInt?

namespace Binary64

/-- The exponent part up to the end of the text; none at all is zero. -/
def exponent? : List Char → Option Int
  | [] => some 0
  | c :: cs =>
    if c = 'e' ∨ c = 'E' then
      let (negative, cs) := takeSign cs
      match takeDigits cs with
      | (d :: ds, []) => let n := ofDigits (d :: ds); some (if negative then -n else n)
      | _ => none
    else none

/-- A decimal without sign: digits before or after the point, and an exponent if there is one. -/
def decimal? (cs : List Char) : Option Binary64 :=
  let (whole, rest) := takeDigits cs
  let (fraction, rest) :=
    match rest with
    | '.' :: rest => takeDigits rest
    | _ => ([], rest)
  if whole.isEmpty && fraction.isEmpty then none
  else do
    let exponent ← exponent? rest
    return ofDecimal (ofDigits (whole ++ fraction)) (exponent - fraction.length)

/-- The names of the values that have no digits, in any case. -/
def named? (cs : List Char) : Option Binary64 :=
  match String.ofList (cs.map Char.toLower) with
  | "inf" => some (infinity false)
  | "infinity" => some (infinity false)
  | "nan" => some notANumber
  | _ => none

/-- A number in decimal notation, or the name of an infinity or of what is no number. -/
def parse? (text : String) : Option Binary64 :=
  let (negative, cs) := takeSign text.toList
  ((named? cs).orElse fun _ => decimal? cs).map (withSign negative)

end Binary64

end CaseHarvest
