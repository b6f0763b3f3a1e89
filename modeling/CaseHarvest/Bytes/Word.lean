import CaseHarvest.Bytes
/-!
Whole numbers as bytes: four big-endian bytes for the numbers of a record's layout, and
little-endian bytes of any width for the numbers in a payload.
-/
namespace CaseHarvest.Bytes

/-- Most significant byte first. -/
def ofWord (w : Int32) : Bytes :=
  let n := w.toUInt32.toNat
  [UInt8.ofNat (n / 0x1000000), UInt8.ofNat (n / 0x10000), UInt8.ofNat (n / 0x100), UInt8.ofNat n]

/-- The number whose bytes these are, most significant first. -/
def bigEndian (bytes : Bytes) : Nat := bytes.foldl (fun n b => 256 * n + b.toNat) 0

def toWord (bytes : Bytes) : Int32 := (UInt32.ofNat (bigEndian bytes)).toInt32

/-- The unsigned number whose bytes these are, least significant first. -/
def unsigned : Bytes → Nat
  | [] => 0
  | b :: bs => b.toNat + 256 * unsigned bs

/-- The two's-complement number at the width of the byte string, least significant byte first. -/
def signed (bytes : Bytes) : Int :=
  let n := unsigned bytes
  let period := Nat.pow 256 bytes.length
  if 2 * n < period then n else (n : Int) - period

end CaseHarvest.Bytes
