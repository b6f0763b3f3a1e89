import CaseHarvest.Bytes
/-!
Text as shells have it: bytes, each of which is a character of its own.
-/
namespace CaseHarvest.Rehearsal.Octets

def ofBytes (bytes : Bytes) : String := bytes.toLatin1

def toBytes (s : String) : Bytes := s.toList.map fun c => UInt8.ofNat c.toNat

/-- The bytes of a text. -/
def ofText (s : String) : String := ofBytes (Bytes.ofString s)

/-- The text that bytes stand for. -/
def toText (s : String) : String := (toBytes s).readable

end CaseHarvest.Rehearsal.Octets
