import CaseHarvest.Binary64.Parse
import CaseHarvest.ValueReader
/-!
JSON values. Numbers keep their digits, because what a number means depends on where it stands.
-/
namespace CaseHarvest

/-- A number as it is written. -/
structure Numeral where
  negative : Bool
  whole : List Nat
  /-- The digits after the point, if there is one. -/
  fraction : Option (List Nat)
  exponent : Option Int
  deriving DecidableEq

inductive Json where
  | null
  | bool (b : Bool)
  | number (n : Numeral)
  /-- `none` is a text with an unpaired surrogate, which may be passed over but not read. -/
  | string (s : Option String)
  | array (items : List Json)
  | object (members : List (Option String × Json))

namespace Numeral

/-- The digits of a natural number. -/
def digitsOf (n : Nat) : List Nat := (Nat.toDigits 10 n).map fun c => c.toNat - '0'.toNat

def ofInt (n : Int) : Numeral := ⟨n < 0, digitsOf n.natAbs, none, none⟩

def isInteger (n : Numeral) : Bool := n.fraction.isNone && n.exponent.isNone

/-- The whole number meant, if the numeral has neither point nor exponent. Minus zero is no whole
number. -/
def toInt? (n : Numeral) : Option Int :=
  let value := ofDigits n.whole
  if !n.isInteger then none
  else if n.negative then (if value = 0 then none else some (-value))
  else some value

/-- Digits are taken up while they fit into 64 bits. -/
def fits (significand digit : Nat) : Bool := significand * 10 + digit < 0x10000000000000000

/-- The number that the digits before the point give, and how many digits were left out. -/
def wholePart : (significand : Nat) → List Nat → Nat × Nat
  | s, [] => (s, 0)
  | s, d :: ds => if fits s d then wholePart (s * 10 + d) ds else (s, ds.length + 1)

/-- The number with the digits after the point taken up, and how many were. -/
def fractionPart : (significand : Nat) → List Nat → Nat × Nat
  | s, [] => (s, 0)
  | s, d :: ds =>
    if fits s d then
      let (s, n) := fractionPart (s * 10 + d) ds
      (s, n + 1)
    else (s, 0)

def powerOfTen (e : Nat) : Binary64 := Binary64.ofNat (Nat.pow 10 e)

/-- A value times a power of ten, in steps that are each rounded. Past the greatest value there is
no result; past the least there is zero. -/
def scale : Nat → Binary64 → Int → Option Binary64
  | 0, x, _ => some x
  | steps + 1, x, e =>
    if e.natAbs ≤ 308 then
      if e < 0 then some (x.div (powerOfTen e.natAbs))
      else
        let y := x.mul (powerOfTen e.natAbs)
        if y.isFinite then some y else none
    else if x.magnitude = 0 then some x
    else if 0 < e then none
    else scale steps (x.div (powerOfTen 308)) (e + 308)

/-- The value of a numeral. Digits beyond 64 bits are dropped and each step is rounded, so that the
result may miss the nearest value by a little; two divisions take every 64-bit number to zero. -/
def toBinary64? (n : Numeral) : Option Binary64 :=
  let (whole, dropped) := wholePart 0 n.whole
  let (significand, places) := fractionPart whole (n.fraction.getD [])
  (scale 4 (Binary64.ofNat significand) (n.exponent.getD 0 + dropped - places)).map
    (Binary64.withSign n.negative)

end Numeral

namespace Json

def text (s : String) : Json := .string (some s)

def ofInt (n : Int) : Json := .number (.ofInt n)

def ofNat (n : Nat) : Json := .number (.ofInt n)

def ofMembers (members : List (String × Json)) : Json :=
  .object (members.map fun (key, value) => (some key, value))

def toString? : Json → Option String
  | .string s => s
  | _ => none

def toBool? : Json → Option Bool
  | .bool b => some b
  | _ => none

def toBinary64? : Json → Option Binary64
  | .number n => n.toBinary64?
  | _ => none

def toInt32? : Json → Option Int32
  | .number n => n.toInt? >>= int32OfInt?
  | _ => none

def toListOf? {α : Type} (read : Json → Option α) : Json → Option (List α)
  | .array items => items.mapM read
  | _ => none

/-- The members that a structure knows, each at most once; other members are passed over if their
key can be read. -/
def knownMembers (names : List String) : List (Option String × Json) → Option (List (String × Json))
  | [] => some []
  | (none, _) :: _ => none
  | (some key, value) :: rest => do
    let known ← knownMembers names rest
    if key ∈ names then
      if known.any (·.1 = key) then none else return (key, value) :: known
    else return known

/-- The fields of a structure, which is written as an object or as an array of its first fields. -/
def fields? (names : List String) : Json → Option (List (String × Json))
  | .object members => knownMembers names members
  | .array items => if items.length ≤ names.length then some (names.zip items) else none
  | _ => none

end Json

/-- Reading values that are written as JSON. -/
def Json.reader : ValueReader Json where
  text := Json.toString?
  texts := Json.toListOf? Json.toString?
  seconds := Json.toBinary64?
  int32 := Json.toInt32?
  fields := Json.fields?

end CaseHarvest
