/-!
Numbers of seconds as binary64 values, by their bit patterns. A finite value is a whole number of
units of 2^-1074, so that all rounding is done on natural numbers.
-/
namespace CaseHarvest

/-- A binary64 value: its sign and the other 63 bits, the exponent field above the fraction. -/
structure Binary64 where
  negative : Bool
  magnitude : Nat
  magnitude_lt : magnitude < 0x8000000000000000 := by omega
  deriving DecidableEq

namespace Binary64

/-- A step of the exponent field: 2^52. -/
def exponentStep : Nat := 0x10000000000000

/-- The magnitude of the infinities; greater ones are not numbers. -/
def infiniteMagnitude : Nat := 0x7ff * exponentStep

/-- How many units make one. -/
def unit : Nat := Nat.pow 2 1074

def zero : Binary64 := ⟨false, 0, by decide⟩

def infinity (negative : Bool) : Binary64 := ⟨negative, infiniteMagnitude, by decide⟩

def notANumber : Binary64 := ⟨false, infiniteMagnitude + exponentStep / 2, by decide⟩

def isFinite (x : Binary64) : Bool := x.magnitude < infiniteMagnitude

def isNaN (x : Binary64) : Bool := infiniteMagnitude < x.magnitude

/-- Greater than zero: neither zero, nor negative, nor no number at all. -/
def isPositive (x : Binary64) : Bool :=
  !x.negative && 0 < x.magnitude && x.magnitude ≤ infiniteMagnitude

/-- The value with the other sign. -/
def neg (x : Binary64) : Binary64 := { x with negative := !x.negative }

def withSign (negative : Bool) (x : Binary64) : Binary64 := { x with negative }

/-- The bit pattern. -/
def bits (x : Binary64) : Nat := x.magnitude + if x.negative then 0x8000000000000000 else 0

/-- The units in a finite magnitude. Below 2^53 a magnitude is its own number of units; after that
each step of the exponent doubles them. -/
def unitsOf (magnitude : Nat) : Nat :=
  let exponent := magnitude / exponentStep
  if exponent = 0 then magnitude
  else (exponentStep + magnitude % exponentStep) * Nat.pow 2 (exponent - 1)

def units (x : Binary64) : Nat := unitsOf x.magnitude

end Binary64

/-- The quotient rounded to the nearest whole number, of two equally near ones to the even. -/
def roundHalfEven (num den : Nat) : Nat :=
  let quotient := num / den
  let twice := 2 * (num % den)
  if twice < den ∨ (twice = den ∧ quotient % 2 = 0) then quotient else quotient + 1

namespace Binary64

/-- The magnitude nearest to a quotient. The quotient in units has some binary digits; 53 of them
are kept. -/
def nearestMagnitude (num den : Nat) : Nat :=
  let shift := Nat.log2 (num * unit / den) - 52
  let magnitude := shift * exponentStep + roundHalfEven (num * unit) (den * Nat.pow 2 shift)
  min magnitude infiniteMagnitude

/-- The value nearest to a quotient of natural numbers; beyond the greatest one, infinity. -/
def ofRatio (num den : Nat) : Binary64 where
  negative := false
  magnitude := nearestMagnitude num den
  magnitude_lt := Nat.lt_of_le_of_lt (Nat.min_le_right _ _) (by decide)

def ofNat (n : Nat) : Binary64 := ofRatio n 1

def digitCount (n : Nat) : Nat := (Nat.toDigits 10 n).length

/-- The value nearest to `digits` times a power of ten. Where the power alone decides, it is not
computed: every number of at least 10^309 is beyond the greatest value and every number below
10^-330 is nearer to zero than to anything else. -/
def ofDecimal (digits : Nat) (exponent : Int) : Binary64 :=
  let top := exponent + digitCount digits
  if digits = 0 then zero
  else if 310 < top then infinity false
  else if top < -330 then zero
  else if 0 ≤ exponent then ofRatio (digits * Nat.pow 10 exponent.toNat) 1
  else ofRatio digits (Nat.pow 10 (-exponent).toNat)

/-- Product and quotient of magnitudes, and the sum, each rounded once. -/
def mul (x y : Binary64) : Binary64 := ofRatio (x.units * y.units) (unit * unit)

def div (x y : Binary64) : Binary64 := ofRatio x.units y.units

def add (x y : Binary64) : Binary64 := ofRatio (x.units + y.units) unit

end Binary64

end CaseHarvest
