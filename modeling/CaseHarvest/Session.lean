import CaseHarvest.Engine
import CaseHarvest.Notice
import CaseHarvest.Record.Extract
/-!
A session runs an engine over units, one at a time and each under the time limit. It owns the output
directory of each unit from before the engine is started until it is closed; then all of them are
removed, whatever became of their units.
-/
namespace CaseHarvest

inductive UnitStatus where
  /-- The engine ended in time. Its exit code is only reported. -/
  | completed (exitCode : Option Nat)
  /-- The engine was killed at the time limit; what it left is not looked at. -/
  | timedOut
  /-- The engine could not be started, or not be waited for. -/
  | failed (fault : Fault)
  deriving DecidableEq, Repr

structure UnitReport where
  unit : String
  outputDir : String
  status : UnitStatus
  elapsedMs : Nat
  /-- The records found, by name; none unless the unit was completed. -/
  recordFiles : List String
  deriving DecidableEq, Repr

structure Session (Running : Type) where
  files : FileTree
  /-- What engines have left running. -/
  running : Running
  units : List UnitReport
  /-- The output directories that the session owns, each once. -/
  dirs : List String
  notices : List Notice

namespace Session

/-- Takes over a directory. -/
def own {Running : Type} (s : Session Running) (dir : String) : Session Running :=
  if dir ∈ s.dirs then s else { s with dirs := s.dirs ++ [dir] }

/-- Whether an entry of an output directory is a record. -/
def isRecordFile (extension : String) (name : String) (entry : Entry) : Bool :=
  match entry with
  | .file _ _ => Path.extension? name = some extension
  | _ => false

/-- The records directly in a directory, ascending by name. -/
def recordFiles (files : FileTree) (cwd : Location) (extension dir : String) :
    Except Fault (List String) := do
  let entries ← files.list cwd dir
  let names := (entries.filter fun (name, entry) => isRecordFile extension name entry).map (·.1)
  return (names.mergeSort Record.nameLe).map (Path.join dir)

/-- The files without what a former run left at an output directory's place. -/
def clear (files : FileTree) (cwd : Location) (dir : String) : Except Fault FileTree :=
  if files.exists? cwd dir then files.removeTree cwd dir else .ok files

/-- What became of starting an engine on a unit. -/
structure Attempt (Running : Type) where
  files : FileTree
  running : Running
  status : UnitStatus
  time : Nat

/-- Starts a command once its output directory is cleared, and waits for it. -/
def attempt (machine : Machine) (limit : Duration) (running : machine.Running) (files : FileTree)
    (dir : String) (command : Command) : Attempt machine.Running :=
  match clear files machine.workingDir dir with
  | .error fault => ⟨files, running, .failed fault, 0⟩
  | .ok files =>
    match machine.launch running files command with
    | .error fault => ⟨files, running, .failed fault, 0⟩
    | .ok activity =>
      let outcome := activity.await limit
      let status := match outcome.status with
        | .ok (some status) => .completed status.code?
        | .ok none => .timedOut
        | .error fault => .failed fault
      ⟨outcome.files, outcome.running, status, outcome.time⟩

/-- The records of a unit and what there is to tell about it. -/
def collect (engine : Engine) (machine : Machine) (settings : Settings) (unit dir : String)
    (a : Attempt machine.Running) : List String × List Notice :=
  match a.status with
  | .timedOut => ([], [.timedOut engine.name settings.timeout unit])
  | .failed fault => ([], [.failed engine.name unit fault])
  | .completed _ =>
    match recordFiles a.files machine.workingDir settings.recordExtension dir with
    | .ok found => (found, [.finished engine.name unit])
    | .error fault => ([], [.finished engine.name unit, .noRecords unit dir fault])

variable (engine : Engine) (machine : Machine) (settings : Settings) (executable : String)

/-- Runs the engine on a unit, with an output directory that the session owns. -/
def runInto (s : Session machine.Running) (unit dir : String) : Session machine.Running :=
  let a := attempt machine settings.timeout s.running s.files dir
    (engine.command executable unit dir)
  let (recordFiles, notices) := collect engine machine settings unit dir a
  { s with
    files := a.files
    running := a.running
    units := s.units ++ [⟨unit, dir, a.status, machine.clock.millis a.time, recordFiles⟩]
    notices := s.notices ++ notices }

/-- Takes over the output directory of the unit at a position, and then runs the engine on the
unit. -/
def runUnit (s : Session machine.Running) (unit : String) (ordinal : Nat) :
    Session machine.Running :=
  let dir := unitOutputDir settings.outputDirPrefix unit ordinal
  runInto engine machine settings executable (s.own dir) unit dir

/-- Runs the engine on units in order; the first one has the given position. -/
def runUnits (s : Session machine.Running) (ordinal : Nat) (units : List String) :
    Session machine.Running :=
  (units.zipIdx ordinal).foldl
    (fun s (unit, ordinal) => runUnit engine machine settings executable s unit ordinal) s

/-- Runs an engine over units. If it has no executable, nothing is touched. -/
def execute (running : machine.Running) (files : FileTree) (units : List String) :
    Except EngineError (Session machine.Running) := do
  let executable ← engine.locate machine files
  return runUnits engine machine settings executable ⟨files, running, [], [], []⟩ 0 units

/-- The records of all units, in order. -/
def allRecordFiles {Running : Type} (s : Session Running) : List String :=
  s.units.flatMap (·.recordFiles)

/-- Removes directories in order. One that is not there is no matter; one that cannot be removed is
told about. -/
def removeAll (cwd : Location) : FileTree → List String → FileTree × List Notice
  | files, [] => (files, [])
  | files, dir :: dirs =>
    match files.removeTree cwd dir with
    | .ok files => removeAll cwd files dirs
    | .error fault =>
      let (files, notices) := removeAll cwd files dirs
      (files, if fault = .notFound then notices else .notRemoved dir fault :: notices)

/-- Removes all directories that the session owns. -/
def close {Running : Type} (cwd : Location) (s : Session Running) : FileTree × List Notice :=
  removeAll cwd s.files s.dirs

end Session

end CaseHarvest
