import CaseHarvest.Files.Access
import CaseHarvest.Suite.Document
import CaseHarvest.Text.Quoted
/-!
Putting a suite's document into a file so that the file never holds a part of it: the document goes
into a temporary file of the same directory, which then takes the file's place in one step.
-/
namespace CaseHarvest

/-- The steps of putting a document in place. -/
inductive PersistStep where
  | createTemporary
  | writeBody
  | writeNewline
  | sync
  | moveIntoPlace
  deriving DecidableEq, Repr

/-- What a device adds to what is asked of it: it may refuse any step for a reason of its own, and
the bytes of a step reach the file in portions. -/
structure Device where
  refuses : PersistStep → Option Fault := fun _ => none
  /-- The sizes of the portions that a step writes before its last one, or before it is refused. -/
  portions : PersistStep → List Nat := fun _ => []

def Device.reliable : Device := {}

inductive SuiteError where
  /-- The temporary file could not be made or written; the fault is told with its path. -/
  | temporary (path file : String) (fault : Fault)
  | persist (path : String) (fault : Fault)
  deriving DecidableEq, Repr

namespace SuiteError

def path : SuiteError → String
  | temporary path _ _ => path
  | persist path _ => path

/-- What lies behind the error. -/
def cause : SuiteError → String
  | temporary _ file fault => fault.message ++ " at path " ++ quoted file
  | persist _ fault => fault.message

def message (e : SuiteError) : String :=
  "failed to write test suite to " ++ e.path ++ ": " ++ e.cause

def chain (e : SuiteError) : List String := [e.message, e.cause]

end SuiteError

namespace TestSuite

def usualTemporary : String := ".tmpXXXXXX"

/-- A name that is not among others: the usual one, or one that is longer than all. -/
def freshName (others : List String) : String :=
  if usualTemporary ∈ others then
    let longest := others.foldl (fun n name => max n name.length) 0
    String.ofList ('.' :: 't' :: 'm' :: 'p' :: List.replicate longest 'X')
  else usualTemporary

/-- The names of a path, of the directory that it starts from, and of what is beside its end. -/
def takenNames (files : FileTree) (cwd : Location) (path : String) : List String :=
  let beside := match files.resolve cwd (Path.directory path) with
    | .ok dir => (files.children dir).map (·.1)
    | .error _ => []
  cwd ++ Path.pieces path ++ beside

/-- A name for the temporary file of a path, one that nothing beside the path's end has. -/
def temporaryName (files : FileTree) (cwd : Location) (path : String) : String :=
  freshName (takenNames files cwd path)

/-- The path of a path's temporary file, from the root. -/
def temporaryPath (cwd : Location) (path : String) : String :=
  Path.join ("/" ++ "/".intercalate cwd) (Path.join (Path.directory path) usualTemporary)

/-- An error about a path's temporary file, which is told by its path as the directory is given. -/
def temporaryError (path : String) (fault : Fault) : SuiteError :=
  .temporary path (Path.join (Path.directory path) usualTemporary) fault

/-- A device's refusal, or else the outcome of the step. -/
def onDevice {α : Type} (device : Device) (step : PersistStep) (outcome : Except Fault α) :
    Except Fault α :=
  match device.refuses step with
  | some fault => .error fault
  | none => outcome

/-- Where the temporary file for a path comes to stand. -/
def temporaryLocation (files : FileTree) (cwd : Location) (path name : String) :
    Except Fault Location := do
  FileTree.checkPath (temporaryPath cwd path)
  let dir ← files.resolve cwd (Path.directory path)
  if files.isDirectory dir then .ok (dir ++ [name]) else .error .notADirectory

/-- What a file holds, one after the other, while more bytes come in portions behind those in it. -/
def growing (held : Bytes) : (portions : List Nat) → Bytes → List Bytes
  | [], _ => [held]
  | n :: portions, bytes => held :: growing (held ++ bytes.take n) portions (bytes.drop n)

/-- What the temporary file holds, one after the other, from its making to its being kept, as far as
it comes. -/
def writing (device : Device) (path : String) (body : Bytes) :
    List Bytes × Except SuiteError Unit :=
  let ofBody := growing [] (device.portions .writeBody) body
  match device.refuses .writeBody with
  | some fault => (ofBody, .error (temporaryError path fault))
  | none =>
    let ofNewline := growing body (device.portions .writeNewline) [10]
    match device.refuses .writeNewline with
    | some fault => (ofBody ++ ofNewline, .error (temporaryError path fault))
    | none =>
      (ofBody ++ ofNewline ++ [body ++ [10]],
        (onDevice device .sync (.ok ())).mapError (.persist path))

/-- The trees in which a file holds one content after the other. -/
def rewriting (temporary : Location) : FileTree → List Bytes → List FileTree
  | _, [] => []
  | files, content :: contents =>
    let files := files.put temporary (.file content false)
    files :: rewriting temporary files contents

/-- The files after each step, and whether all steps were taken. After a step that fails the
temporary file is removed. -/
def persistSteps (files : FileTree) (cwd : Location) (device : Device) (path name : String)
    (body : Bytes) : List FileTree × Except SuiteError Unit :=
  match onDevice device .createTemporary (temporaryLocation files cwd path name) with
  | .error fault => ([files], .error (temporaryError path fault))
  | .ok temporary =>
    let (contents, written) := writing device path body
    let during := rewriting temporary files contents
    let ended := during.getLastD files
    let placed := do
      written
      (onDevice device .moveIntoPlace (ended.move cwd temporary path)).mapError (.persist path)
    match placed with
    | .error e => (during ++ [ended.erase temporary], .error e)
    | .ok placed => (during ++ [placed], .ok ())

/-- Puts a suite's document and a line feed into a file, by way of a temporary file of some name. -/
def persistAs (files : FileTree) (cwd : Location) (device : Device) (path name : String)
    (suite : TestSuite) : FileTree × Except SuiteError Unit :=
  let (steps, outcome) := persistSteps files cwd device path name (Bytes.ofString suite.document)
  (steps.getLastD files, outcome)

/-- Puts a suite's document and a line feed into a file. -/
def persist (files : FileTree) (cwd : Location) (device : Device) (path : String)
    (suite : TestSuite) : FileTree × Except SuiteError Unit :=
  persistAs files cwd device path (temporaryName files cwd path) suite

end TestSuite

end CaseHarvest
