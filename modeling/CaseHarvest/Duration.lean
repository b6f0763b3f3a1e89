import CaseHarvest.Binary64.Shortest
/-!
Spans of time in whole nanoseconds, how a number of seconds becomes one and back, and their text.
-/
namespace CaseHarvest

def Duration.nanosPerSec : Nat := 1000000000

structure Duration where
  secs : Nat
  nanos : Nat
  nanos_lt : nanos < Duration.nanosPerSec := by decide
  deriving DecidableEq, Repr

namespace Duration

def ofNanos (n : Nat) : Duration :=
  ⟨n / nanosPerSec, n % nanosPerSec, Nat.mod_lt n (by decide)⟩

def toNanos (d : Duration) : Nat := d.secs * nanosPerSec + d.nanos

/-- The longest span: seconds are counted in 64 bits. -/
def max : Duration := { secs := 0xffffffffffffffff, nanos := 999999999 }

/-- A number of seconds rounded to the nearest nanosecond, a half to the even one. What is negative
or no number counts as zero, what does not fit as the longest span. -/
def ofSeconds (x : Binary64) : Duration :=
  if x.isNaN || x.negative then { secs := 0, nanos := 0 }
  else if x.isFinite && x.units < 0x10000000000000000 * Binary64.unit then
    ofNanos (roundHalfEven (x.units * nanosPerSec) Binary64.unit)
  else max

/-- The span as a number of seconds: whole seconds and fraction, each rounded, then their sum. -/
def toSeconds (d : Duration) : Binary64 :=
  (Binary64.ofNat d.secs).add ((Binary64.ofNat d.nanos).div (Binary64.ofNat nanosPerSec))

/-- A whole part, and of a fraction over ten to the `places` the digits up to the last that is not
zero. -/
def fixedText (whole fraction places : Nat) : String :=
  let digits := Nat.toDigits 10 fraction
  let padded := List.replicate (places - digits.length) '0' ++ digits
  let kept := (padded.reverse.dropWhile (· = '0')).reverse
  toString whole ++ if kept.isEmpty then "" else "." ++ String.ofList kept

/-- The text of a span in the greatest unit that leaves a whole part. -/
def text (d : Duration) : String :=
  if d.secs > 0 then fixedText d.secs d.nanos 9 ++ "s"
  else if d.nanos ≥ 1000000 then fixedText (d.nanos / 1000000) (d.nanos % 1000000) 6 ++ "ms"
  else if d.nanos ≥ 1000 then fixedText (d.nanos / 1000) (d.nanos % 1000) 3 ++ "µs"
  else toString d.nanos ++ "ns"

end Duration

end CaseHarvest
