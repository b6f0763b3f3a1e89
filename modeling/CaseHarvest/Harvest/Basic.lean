import CaseHarvest.Harvest.Gather
import CaseHarvest.Harvest.Select
import CaseHarvest.Record.Fingerprint
import CaseHarvest.Session
/-!
A harvest: an engine runs over the units among some inputs, the records that it leaves are read, of
those with one fingerprint the first is kept, and the suite made from them is put on disk.
-/
namespace CaseHarvest

structure RunReport where
  startedAt : String
  finishedAt : String
  skipped : List SkippedInput
  units : List UnitReport
  recordsFound : Nat
  recordsDecoded : Nat
  failures : List DecodeFailure
  duplicatesRemoved : Nat
  testCases : Nat
  output : String
  deriving DecidableEq, Repr

/-- What ends a run without a report. -/
inductive HarvestError where
  | settings (error : SettingsError)
  | engine (error : EngineError)
  | suite (error : SuiteError)
  deriving DecidableEq

namespace HarvestError

/-- The error and what lies behind it, outermost first. -/
def chain : HarvestError → List String
  | settings e => e.chain
  | engine e => [e.message]
  | suite e => e.chain

end HarvestError

/-- What a run leaves: the files, what still runs, what it told about, and its report or error. -/
structure Harvest (Running : Type) where
  files : FileTree
  running : Running
  notices : List Notice
  result : Except HarvestError RunReport

namespace Harvest

/-- What is told once records are unique: how many were dropped, if any. -/
def droppedNotices (count : Nat) : List Notice := if count = 0 then [] else [.dropped count]

/-- The end of a run behind a session: records are read while the session's directories are
there. -/
def finish (machine : Machine) (settings : Settings) (skipped : List SkippedInput)
    (session : Session machine.Running) : Harvest machine.Running :=
  let cwd := machine.workingDir
  let found := session.allRecordFiles
  let (records, failures) := gatherRecords session.files cwd settings.maxVersion found
  let (files, closing) := session.close cwd
  let unique := Record.dedup records
  let removed := records.length - unique.length
  let suite := TestSuite.assemble unique settings.suite
  let notices := session.notices ++ failures.map DecodeFailure.notice ++ closing
    ++ droppedNotices removed
  match TestSuite.persist files cwd machine.device settings.output suite with
  | (files, .error e) => ⟨files, session.running, notices, .error (.suite e)⟩
  | (files, .ok ()) =>
    ⟨files, session.running, notices ++ [.wrote suite.testCases.length settings.output], .ok {
      startedAt := machine.clock.startedAt
      finishedAt := machine.clock.finishedAt
      skipped
      units := session.units
      recordsFound := found.length
      recordsDecoded := records.length
      failures
      duplicatesRemoved := removed
      testCases := suite.testCases.length
      output := settings.output }⟩

/-- Runs an engine over the units among inputs. Settings are checked before anything else. -/
def runWith (engine : Engine) (machine : Machine) (settings : Settings) (running : machine.Running)
    (files : FileTree) (inputs : List String) : Harvest machine.Running :=
  match settings.validate with
  | .error e => ⟨files, running, [], .error (.settings e)⟩
  | .ok () =>
    let (units, skipped) := selectUnits files machine.workingDir settings.irExtension inputs
    let told := skipped.map (SkippedInput.notice settings.irExtension)
    match Session.execute engine machine settings running files units with
    | .error e => ⟨files, running, told, .error (.engine e)⟩
    | .ok session =>
      let harvest := finish machine settings skipped session
      { harvest with notices := told ++ harvest.notices }

/-- Runs the engine that the settings ask for. -/
def run (machine : Machine) (settings : Settings) (running : machine.Running) (files : FileTree)
    (inputs : List String) : Harvest machine.Running :=
  runWith (Engine.ofSettings settings) machine settings running files inputs

end Harvest

end CaseHarvest
