import CaseHarvest.Machine.Activity
import CaseHarvest.Suite.Persist
/-!
A machine as far as a run can tell: where paths start, where executables are searched for, what
starting a program leads to, what a report says about time, and which paths are Unicode. Processes
that were left behind may run on while later programs run.
-/
namespace CaseHarvest

/-- A program with its arguments. -/
structure Command where
  program : String
  args : List String
  deriving DecidableEq, Repr

/-- The times that reports show. A clock that is not set shows none. -/
structure Clock where
  startedAt : String := ""
  finishedAt : String := ""
  /-- The milliseconds shown for a number of nanoseconds. -/
  millis : Nat → Nat := fun _ => 0

structure Machine where
  /-- What may run on the machine when no program is waited for. -/
  Running : Type
  /-- Nothing runs. -/
  idle : Running
  workingDir : Location
  /-- The directories in which a program without a path is searched for. -/
  searchPath : List String
  /-- What a command does to the files of the machine, if it can be started, beside what runs
  already. -/
  launch : Running → FileTree → Command → Except Fault (Activity Running)
  device : Device := Device.reliable
  clock : Clock := {}
  /-- Whether a path is Unicode. One that is not leads to files like any other, but it cannot be put into
  JSON. -/
  isUnicode : String → Bool := fun _ => true

namespace Machine

/-- The path of a location from the root. -/
def absolutePath (l : Location) : String := "/" ++ "/".intercalate l

def isExecutable (m : Machine) (files : FileTree) (path : String) : Bool :=
  match files.resolve m.workingDir path with
  | .error _ => false
  | .ok l =>
    match files.lookup l with
    | some (.file _ executable) => executable
    | _ => false

/-- The directories that a search path names. A tilde in front of one stands for the home
directory. -/
def searchDirs (home path : String) : List String :=
  (piecesBetween ':' path.toList).map fun dir =>
    match Path.pieces (String.ofList dir) with
    | "~" :: rest => (rest.filter (!Path.isIdle ·)).foldl Path.join home
    | _ => String.ofList dir

/-- The paths that a program may be found at. A path leads from the working directory; a name is
searched for. -/
def candidates (m : Machine) (program : String) : List String :=
  if Path.componentCount program > 1 then
    [Path.join (absolutePath m.workingDir) program]
  else m.searchPath.map fun dir => Path.join dir program

/-- The first executable file that a program may be found at. -/
def find? (m : Machine) (files : FileTree) (program : String) : Option String :=
  (m.candidates program).find? (m.isExecutable files)

end Machine

end CaseHarvest
