import CaseHarvest.Bytes.Word
import CaseHarvest.Record.Basic
import CaseHarvest.Record.ByteSource
import CaseHarvest.Record.Encode
/-!
Reading a record from a source of bytes. The reader takes the layout field by field and stops at
the first field that is missing, negative where it counts, or not text where text is due.
-/
namespace CaseHarvest

/-- A field of the layout, as errors name it. -/
inductive Field where
  | magic
  | version
  | argumentCount
  | argument
  | symbolicArgvCount
  | symbolicArgvLength
  | objectCount
  | objectName
  | objectBytes
  deriving DecidableEq, Repr

def Field.label : Field → String
  | magic => "magic"
  | version => "version"
  | argumentCount => "argument count"
  | argument => "argument"
  | symbolicArgvCount => "symbolic argv count"
  | symbolicArgvLength => "symbolic argv length"
  | objectCount => "object count"
  | objectName => "object name"
  | objectBytes => "object bytes"

inductive DecodeError where
  | badMagic (found : Bytes)
  | unsupportedVersion (found max : Int32)
  | truncated (field : Field)
  | negativeLength (field : Field) (value : Int32)
  | invalidArgument (index : Nat)
  | invalidName (index : Nat)
  | io (fault : Fault)
  deriving DecidableEq, Repr

namespace DecodeError

def message : DecodeError → String
  | badMagic found =>
    "unrecognized magic [" ++ ", ".intercalate (found.map fun b => toString b.toNat) ++ "]"
  | unsupportedVersion found max =>
    "unsupported version " ++ toString found.toInt ++ "; maximum supported is "
      ++ toString max.toInt
  | truncated field => "stream truncated while reading " ++ field.label
  | negativeLength field value =>
    "negative " ++ field.label ++ " (" ++ toString value.toInt ++ ")"
  | invalidArgument index => "argument " ++ toString index ++ " is not valid ASCII"
  | invalidName index => "object name " ++ toString index ++ " is not valid UTF-8"
  | io fault => "I/O error: " ++ fault.message

/-- The error and what lies behind it, outermost first. -/
def chain (e : DecodeError) : List String :=
  match e with
  | io fault => [e.message, fault.message]
  | _ => [e.message]

/-- What a fault means for a field of a fixed number of bytes. A source that says itself that it has
ended too early is taken at its word. -/
def ofFault (field : Field) : Fault → DecodeError
  | .endedEarly _ => truncated field
  | fault => io fault

end DecodeError

/-- A step of reading: it moves the source on or fails. -/
abbrev Reading (σ α : Type) := StateT σ (Except DecodeError) α

namespace Reading

variable {σ : Type} (src : ByteSource σ)

/-- Exactly `n` bytes of a field. -/
def exactly (field : Field) (n : Nat) : Reading σ Bytes := fun s =>
  (src.fill n s).mapError (.ofFault field)

/-- Exactly `n` bytes of a field, for which no room is made before they have come. Here a fault is
told as it is. -/
def portion (field : Field) (n : Nat) : Reading σ Bytes := fun s =>
  match src.collect n s with
  | .error fault => .error (.io fault)
  | .ok (bytes, s) => if bytes.length = n then .ok (bytes, s) else .error (.truncated field)

def word (field : Field) : Reading σ Int32 := do
  return Bytes.toWord (← exactly src field 4)

/-- A length or a count, which is never negative. -/
def count (field : Field) : Reading σ Nat := do
  let value ← word src field
  if value < 0 then throw (.negativeLength field value)
  return value.toInt.toNat

/-- Bytes that follow their length. -/
def blob (field : Field) : Reading σ Bytes := do
  portion src field (← count src field)

def magic : Reading σ Unit := do
  let found ← exactly src .magic 5
  unless found = Record.currentMagic ∨ found = Record.legacyMagic do
    throw (.badMagic found)

def version (max : Int32) : Reading σ Int32 := do
  let found ← word src .version
  if max < found then throw (.unsupportedVersion found max)
  return found

/-- The argument at a position; arguments are ASCII. -/
def arg (index : Nat) : Reading σ String := do
  let bytes ← blob src .argument
  if bytes.isAscii then return bytes.toLatin1 else throw (.invalidArgument index)

/-- So many arguments, the first one at the given position. -/
def args : (count index : Nat) → Reading σ (List String)
  | 0, _ => return []
  | n + 1, index => do
    let first ← arg src index
    return first :: (← args n (index + 1))

def object (index : Nat) : Reading σ Object := do
  let nameBytes ← blob src .objectName
  match nameBytes.toString? with
  | none => throw (.invalidName index)
  | some name => return { name, bytes := ← blob src .objectBytes }

/-- So many objects, the first one at the given position. -/
def objects : (count index : Nat) → Reading σ (List Object)
  | 0, _ => return []
  | n + 1, index => do
    let first ← object src index
    return first :: (← objects n (index + 1))

/-- The numbers about symbolic arguments, zero where the version has none. -/
def symbolic (version : Int32) : Reading σ (Int32 × Int32) := do
  if Record.HasSymbolic version then
    let symArgvs ← word src .symbolicArgvCount
    return (symArgvs, ← word src .symbolicArgvLength)
  else return (0, 0)

/-- A whole record whose version is at most `max`. -/
def record (max : Int32) : Reading σ Record := do
  magic src
  let version ← version src max
  let args ← args src (← count src .argumentCount) 0
  let (symArgvs, symArgvLen) ← symbolic src version
  let objects ← objects src (← count src .objectCount) 0
  return { version, args, symArgvs, symArgvLen, objects }

end Reading

namespace Record

/-- Reads a record from a source, giving the source as it is afterwards. -/
def decodeFrom {σ : Type} (src : ByteSource σ) (max : Int32) (s : σ) :
    Except DecodeError (Record × σ) :=
  (Reading.record src max).run s

/-- Reads a record from the front of a byte string, giving the bytes behind it. -/
def decode (max : Int32) (bytes : Bytes) : Except DecodeError (Record × Bytes) :=
  decodeFrom ByteSource.memory max bytes

/-- Reads records one after another until no byte is left: each with the number of bytes behind
it, and the error that ended the reading, if one did. A record takes at least one byte, so the
number of bytes bounds the number of records. -/
def decodeAll (max : Int32) (bytes : Bytes) : List (Record × Nat) × Option DecodeError :=
  within bytes.length bytes
where
  within : Nat → Bytes → List (Record × Nat) × Option DecodeError
    | _, [] => ([], none)
    | 0, _ => ([], none)
    | fuel + 1, bytes =>
      match decode max bytes with
      | .error e => ([], some e)
      | .ok (r, rest) =>
        let (records, error) := within fuel rest
        ((r, rest.length) :: records, error)

end Record

end CaseHarvest
