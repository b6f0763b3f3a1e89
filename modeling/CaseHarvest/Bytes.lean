/-!
Byte strings as lists: their order, their text forms and the removal of trailing zeros.
-/
namespace CaseHarvest

abbrev Bytes := List UInt8

namespace Bytes

/-- The UTF-8 form of a text. -/
def ofString (s : String) : Bytes := s.toUTF8.data.toList

/-- The text whose UTF-8 form this is, if there is one. -/
def toString? (bytes : Bytes) : Option String := String.fromUTF8? ⟨bytes.toArray⟩

/-- How many bytes a character takes that begins with a byte, and the bounds of the second one. -/
def characterShape? (first : UInt8) : Option (Nat × UInt8 × UInt8) :=
  if first < 0x80 then some (1, 0, 0)
  else if 0xc2 ≤ first ∧ first ≤ 0xdf then some (2, 0x80, 0xbf)
  else if first = 0xe0 then some (3, 0xa0, 0xbf)
  else if first = 0xed then some (3, 0x80, 0x9f)
  else if 0xe1 ≤ first ∧ first ≤ 0xef then some (3, 0x80, 0xbf)
  else if first = 0xf0 then some (4, 0x90, 0xbf)
  else if first = 0xf4 then some (4, 0x80, 0x8f)
  else if 0xf1 ≤ first ∧ first ≤ 0xf3 then some (4, 0x80, 0xbf)
  else none

/-- The bytes behind a first one that go with it, as far as they are there. -/
def continuation (first : UInt8) (rest : Bytes) : Bytes :=
  match characterShape? first, rest with
  | some (length, low, high), second :: rest =>
    if 1 < length ∧ low ≤ second ∧ second ≤ high then
      second :: (rest.take (length - 2)).takeWhile fun b => 0x80 ≤ b && b ≤ 0xbf
    else []
  | _, _ => []

/-- The text of bytes, read as far as it can be: the longest beginning of a character that does not
go on as it should, or a byte that begins none, is shown as a replacement character. -/
def readable (bytes : Bytes) : String := String.ofList (go bytes.length bytes)
where
  go : (fuel : Nat) → Bytes → List Char
    | 0, _ => []
    | _, [] => []
    | fuel + 1, first :: rest =>
      let taken := continuation first rest
      let shown := match toString? (first :: taken) with
        | some s => s.toList
        | none => ['\ufffd']
      shown ++ go fuel (rest.drop taken.length)

def isAscii (bytes : Bytes) : Bool := bytes.all (· < 128)

/-- One character per byte, with the byte as its code point. -/
def toLatin1 (bytes : Bytes) : String := String.ofList (bytes.map fun b => Char.ofNat b.toNat)

/-- The order of dictionaries, with bytes compared as unsigned numbers. -/
def le : Bytes → Bytes → Bool
  | [], _ => true
  | _ :: _, [] => false
  | a :: as, b :: bs => a < b || (a == b && le as bs)

/-- All bytes up to the last one that is not zero. -/
def trimZeros : Bytes → Bytes
  | [] => []
  | b :: bs =>
    match trimZeros bs with
    | [] => if b = 0 then [] else [b]
    | kept => b :: kept

/-- Four bytes a piece, the last piece with what is left. -/
def words : Bytes → List Bytes
  | a :: b :: c :: d :: rest => [a, b, c, d] :: words rest
  | [] => []
  | short => [short]

def hexDigit (n : Nat) : Char :=
  if n < 10 then Char.ofNat ('0'.toNat + n) else Char.ofNat ('a'.toNat + (n - 10))

/-- Two lower-case digits for a byte. -/
def hexPair (b : UInt8) : List Char := [hexDigit (b.toNat / 16), hexDigit (b.toNat % 16)]

def toHex (bytes : Bytes) : String := String.ofList (bytes.flatMap hexPair)

end Bytes

end CaseHarvest
