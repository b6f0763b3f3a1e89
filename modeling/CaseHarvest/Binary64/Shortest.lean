import CaseHarvest.Binary64.Basic
/-!
The text of a binary64 value: the fewest digits that read back, always positional.
-/
namespace CaseHarvest.Binary64

/-- Decimal digits and the place of the point: the value is 0.d₁d₂… times ten to the `point`. -/
structure Decimal where
  digits : Nat
  count : Nat
  point : Int
  deriving DecidableEq, Repr

/-- The numbers that are nearer to a value than to its neighbours, in half units, and whether the
ends belong to them. -/
structure Neighbourhood where
  low : Nat
  high : Nat
  closed : Bool

def neighbourhood (magnitude : Nat) : Neighbourhood where
  low := unitsOf (magnitude - 1) + unitsOf magnitude
  high := unitsOf magnitude + unitsOf (magnitude + 1)
  closed := magnitude % 2 = 0

/-- Whether `c` times ten to the `e` reads back as the value. -/
def Neighbourhood.holds (n : Neighbourhood) (c : Nat) (e : Int) : Bool :=
  let here := c * Nat.pow 10 e.toNat * (2 * unit)
  let low := n.low * Nat.pow 10 (-e).toNat
  let high := n.high * Nat.pow 10 (-e).toNat
  if n.closed then low ≤ here && here ≤ high else low < here && here < high

/-- The zeros after the point: the least `z` below the bound with `den` at most `num` times ten to
the `z + 1`. -/
def leadingZeros (num den : Nat) : Nat → Nat
  | 0 => 0
  | bound + 1 => if den ≤ num * 10 then 0 else leadingZeros (num * 10) den bound + 1

/-- Where the point stands in the digits of a positive value. -/
def pointOf (units : Nat) : Int :=
  if unit ≤ units then digitCount (units / unit) else -(leadingZeros units unit 330 : Int)

/-- The value on the grid of `count` digits: the nearer of the two neighbours on it that read
back, and of two equally near ones the greater. -/
def onGrid (magnitude : Nat) (point : Int) (count : Nat) : Option Decimal :=
  let n := neighbourhood magnitude
  let e := point - count
  let num := unitsOf magnitude * Nat.pow 10 (-e).toNat
  let den := unit * Nat.pow 10 e.toNat
  let below := num / den
  let pick (c : Nat) : Option Decimal := some ⟨c, count, point⟩
  match n.holds below e, n.holds (below + 1) e with
  | true, true => if 2 * (num % den) < den then pick below else pick (below + 1)
  | true, false => pick below
  | false, true => pick (below + 1)
  | false, false => none

/-- Seventeen digits tell all values apart. -/
def shortest (magnitude : Nat) : Decimal :=
  let point := pointOf (unitsOf magnitude)
  ((List.range 17).findSome? fun n => onGrid magnitude point (n + 1)).getD ⟨0, 1, point⟩

/-- The significant digits, without zeros at the end, and the place of the point; rounding up may
have brought one digit more. -/
def Decimal.significant (d : Decimal) : List Char × Int :=
  let digits := Nat.toDigits 10 d.digits
  ((digits.reverse.dropWhile (· = '0')).reverse, d.point + digits.length - d.count)

/-- Digits with the point at its place, and zeros between them where they do not meet. -/
def positional (digits : List Char) (point : Int) : List Char :=
  if point ≤ 0 then '0' :: '.' :: List.replicate (-point).toNat '0' ++ digits
  else if digits.length ≤ point.toNat then
    digits ++ List.replicate (point.toNat - digits.length) '0'
  else digits.take point.toNat ++ '.' :: digits.drop point.toNat

def magnitudeText (magnitude : Nat) : List Char :=
  if magnitude = 0 then ['0']
  else if magnitude = infiniteMagnitude then ['i', 'n', 'f']
  else
    let (digits, point) := (shortest magnitude).significant
    positional digits point

/-- The text of a value: no exponent, no point before nothing, and a sign also before zero. -/
def text (x : Binary64) : String :=
  if x.isNaN then "NaN"
  else String.ofList ((if x.negative then ['-'] else []) ++ magnitudeText x.magnitude)

end CaseHarvest.Binary64
