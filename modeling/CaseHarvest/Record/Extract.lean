import CaseHarvest.Files.Access
import CaseHarvest.Record.Decode
import CaseHarvest.Text.Quoted
/-!
Reading records from files, and writing the payloads of chosen objects to files beside a record.
-/
namespace CaseHarvest

namespace Record

/-- Reads the record in a file; bytes behind it are left alone. -/
def load (files : FileTree) (cwd : Location) (path : String) (max : Int32) :
    Except DecodeError Record :=
  match files.read cwd path with
  | .error fault => .error (.io fault)
  | .ok bytes =>
    match decode max bytes with
    | .error e => .error e
    | .ok (r, _) => .ok { r with source := some path }

end Record

inductive ExtractError where
  | notFromFile
  | unusableName (name : String)
  | fault (fault : Fault)
  /-- The requested names that no object has, ascending and each once. -/
  | missing (names : List String)
  deriving DecidableEq, Repr

namespace ExtractError

def message : ExtractError → String
  | notFromFile => "record was not decoded from a file"
  | unusableName name => "object name " ++ quoted name ++ " cannot be used as a file suffix"
  | fault f => f.message
  | missing names =>
    "could not find " ++ (if names.length = 1 then "object" else "objects") ++ ": "
      ++ ", ".intercalate names

/-- The class under which callers sort the error. -/
def kind : ExtractError → String
  | notFromFile => "InvalidInput"
  | unusableName _ => "InvalidInput"
  | fault f => f.kind
  | missing _ => "NotFound"

end ExtractError

namespace Record

/-- A name with which a file of another directory, or none, would be named. -/
def isUnusableName (name : String) : Bool :=
  name.toList.any fun c => c = '\x00' || Path.isSeparator c

/-- The file for an object of a record. -/
def extractPath (source name : String) : String := source ++ "." ++ name

def nameLe (a b : String) : Bool := (Bytes.ofString a).le (Bytes.ofString b)

/-- Leaves one of equal neighbours. -/
def dropRepeats : List String → List String
  | a :: b :: rest => if a = b then dropRepeats (b :: rest) else a :: dropRepeats (b :: rest)
  | short => short

/-- The requested names that no object has, ascending and each once. -/
def missingNames (r : Record) (names : List String) : List String :=
  dropRepeats ((names.filter fun n => !r.objects.any (·.name = n)).mergeSort nameLe)

/-- The objects with a requested name, in the order of the record. -/
def requested (r : Record) (names : List String) : List Object :=
  r.objects.filter (·.name ∈ names)

/-- Writes objects in order up to the first that cannot be written. The device may break off each of
the writes, which are counted. -/
def writeObjects (device : Nat → Option FileTree.Breakdown) (cwd : Location) (source : String)
    (trim : Bool) : (position : Nat) → FileTree → List Object →
      FileTree × Except Fault (List String)
  | _, files, [] => (files, .ok [])
  | position, files, o :: rest =>
    let path := extractPath source o.name
    match files.writeOn (device position) cwd path (o.shown trim) with
    | (files, .error fault) => (files, .error fault)
    | (files, .ok ()) =>
      let (files, written) := writeObjects device cwd source trim (position + 1) files rest
      (files, written.map (path :: ·))

/-- Writes the objects with a requested name, in the order of the record, and gives their paths.
Names that no object has are reported after the others have been written. -/
def extractOn (device : Nat → Option FileTree.Breakdown) (files : FileTree) (cwd : Location)
    (r : Record) (names : List String) (trim : Bool) :
    FileTree × Except ExtractError (List String) :=
  match r.source with
  | none => (files, .error .notFromFile)
  | some source =>
    match names.find? isUnusableName with
    | some name => (files, .error (.unusableName name))
    | none =>
      match writeObjects device cwd source trim 0 files (r.requested names) with
      | (files, .error fault) => (files, .error (.fault fault))
      | (files, .ok written) =>
        let missing := r.missingNames names
        (files, if missing = [] then .ok written else .error (.missing missing))

/-- Writes out objects on a device that takes all that is written. -/
def extract (files : FileTree) (cwd : Location) (r : Record) (names : List String) (trim : Bool) :
    FileTree × Except ExtractError (List String) :=
  extractOn (fun _ => none) files cwd r names trim

end Record

end CaseHarvest
