import CaseHarvest.Bytes.Word
import CaseHarvest.Record.Basic
/-!
The binary layout of a record: a magic, the version, the arguments, the two numbers about symbolic
arguments where the version has them, and the objects. Numbers are four bytes, most significant
first; texts and payloads follow their length.
-/
namespace CaseHarvest.Record

/-- The magic of records written today: `KTEST`. -/
def currentMagic : Bytes := [75, 84, 69, 83, 84]

/-- The magic of records written by old engines: `BOUT` and a line feed. -/
def legacyMagic : Bytes := [66, 79, 85, 84, 10]

def encodeBlob (bytes : Bytes) : Bytes := Bytes.ofWord (Int32.ofNat bytes.length) ++ bytes

def encodeArg (arg : String) : Bytes := encodeBlob (Bytes.ofString arg)

def encodeObject (o : Object) : Bytes := encodeBlob (Bytes.ofString o.name) ++ encodeBlob o.bytes

/-- The two numbers about symbolic arguments, where the version has them. -/
def encodeSymbolic (r : Record) : Bytes :=
  if HasSymbolic r.version then Bytes.ofWord r.symArgvs ++ Bytes.ofWord r.symArgvLen else []

/-- What follows the magic. -/
def encodeBody (r : Record) : Bytes :=
  Bytes.ofWord r.version
    ++ Bytes.ofWord (Int32.ofNat r.args.length) ++ r.args.flatMap encodeArg
    ++ encodeSymbolic r
    ++ Bytes.ofWord (Int32.ofNat r.objects.length) ++ r.objects.flatMap encodeObject

def encode (r : Record) : Bytes := currentMagic ++ encodeBody r

end CaseHarvest.Record
