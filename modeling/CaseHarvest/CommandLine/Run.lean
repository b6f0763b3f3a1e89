import CaseHarvest.CommandLine.Arguments
import CaseHarvest.CommandLine.Filter
import CaseHarvest.Harvest.Report
import CaseHarvest.Record.Dump
import CaseHarvest.Record.Snapshot
import CaseHarvest.Settings.Load
/-!
What a command line does: the files it leaves, what it prints, what it tells about, and how it ends.
-/
namespace CaseHarvest.CommandLine

def programName : String := "ktest-suite"

def programVersion : String := "0.1.0"

/-- The environment variable that specifies which notices are shown. -/
def filterVariable : String := "RUST_LOG"

/-- What the environment says: which engine to use, and which notices to show. -/
structure Environment where
  engine : Option String := none
  filter : Option String := none
  deriving DecidableEq, Repr

/-- What a task leaves. A failure is told from the outside inwards. -/
structure TaskResult (Running : Type) where
  files : FileTree
  running : Running
  printed : String := ""
  notices : List Notice := []
  failure : List String := []

/-! ## Tasks -/

/-- Reads a record; an error says which file it is about. -/
def loadRecord (files : FileTree) (cwd : Location) (max : Int32) (path : String) :
    Except (List String) Record :=
  (Record.load files cwd path max).mapError fun e =>
    ("Failed to decode KTest file " ++ path) :: e.chain

/-- Prints something for each file up to the first that cannot be read. -/
def printEach (files : FileTree) (cwd : Location) (max : Int32)
    (print : (first : Bool) → (path : String) → Record → String) :
    (first : Bool) → List String → String × List String
  | _, [] => ("", [])
  | first, path :: paths =>
    match loadRecord files cwd max path with
    | .error failure => ("", failure)
    | .ok r =>
      let (printed, failure) := printEach files cwd max print false paths
      (print first path r ++ printed, failure)

/-- A dump, set off from the one before by an empty line. -/
def showDump (trim first : Bool) (r : Record) : String :=
  (if first then "" else "\n") ++ r.describe trim

def fingerprintLine (path : String) (r : Record) : String := r.fingerprint ++ "  " ++ path ++ "\n"

/-- The failure of a document with a path that is not Unicode. -/
def notUnicode (document : String) : List String :=
  ["Failed to serialize " ++ document, "path contains invalid UTF-8 characters"]

/-- The document of some records; it is printed as a whole or not at all. -/
def showJson (machine : Machine) (files : FileTree) (max : Int32) (paths : List String) :
    Except (List String) String := do
  let snapshots ← paths.mapM fun path => do
    return (Snapshot.ofRecord path (← loadRecord files machine.workingDir max path)).toJson
  if paths.all machine.isUnicode then return (Json.array snapshots).pretty ++ "\n"
  else throw (notUnicode "records")

/-- The files with what is extracted, what is printed, and the failure if there is one. -/
def extract (files : FileTree) (cwd : Location) (max : Int32) (path : String) (names : List String)
    (trim : Bool) : FileTree × String × List String :=
  match loadRecord files cwd max path with
  | .error failure => (files, "", failure)
  | .ok r =>
    match r.extract files cwd names trim with
    | (files, .error e) => (files, "", ["Failed to extract objects from " ++ path, e.message])
    | (files, .ok written) => (files, String.join (written.map (· ++ "\n")), [])

/-- The settings of a single run; an error says which option it is about. -/
def overridden (overrides : RunOverrides) (settings : Settings) : Except (List String) Settings :=
  (overrides.apply settings).mapError fun e =>
    ("Invalid --timeout-secs " ++ (overrides.timeoutSecs.map Binary64.text).getD "") :: e.chain

def run (machine : Machine) (settings : Settings) (running : machine.Running) (files : FileTree)
    (inputs : List String) (overrides : RunOverrides) (json : Bool) :
    TaskResult machine.Running :=
  match overridden overrides settings with
  | .error failure => { files, running, failure }
  | .ok settings =>
    let harvest := Harvest.run machine settings running files inputs
    match harvest.result with
    | .error e =>
      { files := harvest.files, running := harvest.running, notices := harvest.notices,
        failure := "Test suite generation failed" :: e.chain }
    | .ok report =>
      let left : TaskResult machine.Running :=
        { files := harvest.files, running := harvest.running, notices := harvest.notices }
      if !json then { left with printed := report.summary }
      else if report.paths.all machine.isUnicode then
        { left with printed := report.toJson.pretty ++ "\n" }
      else { left with failure := notUnicode "run report" }

/-- Does a task with settings. -/
def perform (machine : Machine) (settings : Settings) (running : machine.Running)
    (files : FileTree) : Task → TaskResult machine.Running
  | .run inputs overrides json => run machine settings running files inputs overrides json
  | .show paths trim json =>
    if json then
      match showJson machine files settings.maxVersion paths with
      | .ok printed => { files, running, printed }
      | .error failure => { files, running, failure }
    else
      let (printed, failure) := printEach files machine.workingDir settings.maxVersion
        (fun first _ r => showDump trim first r) true paths
      { files, running, printed, failure }
  | .extract path names trim =>
    let (files, printed, failure) :=
      extract files machine.workingDir settings.maxVersion path names trim
    { files, running, printed, failure }
  | .fingerprint paths =>
    let (printed, failure) := printEach files machine.workingDir settings.maxVersion
      (fun _ path r => fingerprintLine path r) true paths
    { files, running, printed, failure }

/-- The settings of a command line; an error says which file it is about. -/
def settingsOf (files : FileTree) (cwd : Location) (config : Option String) (env : Environment) :
    Except (List String) Settings :=
  (Settings.start files cwd config env.engine).mapError fun e =>
    ("Failed to load config from " ++ config.getD "") :: e.chain

/-! ## The whole command line -/

/-- What a command line leaves. -/
structure Result (Running : Type) where
  files : FileTree
  running : Running
  exitCode : Nat
  printed : String := ""
  failure : List String := []
  /-- The notices that are shown. -/
  shown : List Notice := []

def helpText : String :=
  "Usage: " ++ programName ++ " [--verbose] [--quiet] [--config <CONFIG>] <COMMAND>\n\n"
    ++ "Commands:\n  run\n  show\n  extract\n  fingerprint\n  help\n"

def versionText : String := programName ++ " " ++ programVersion ++ "\n"

/-- Settings are read before anything else is done. -/
def obey (machine : Machine) (env : Environment) (running : machine.Running) (files : FileTree)
    (i : Invocation) : Result machine.Running :=
  match settingsOf files machine.workingDir i.config env with
  | .error failure => { files, running, exitCode := 1, failure }
  | .ok settings =>
    let r := perform machine settings running files i.task
    let filter := Filter.ofRun env.filter i.quiet i.verbose
    { files := r.files
      running := r.running
      exitCode := if r.failure.isEmpty then 0 else 1
      printed := r.printed
      failure := r.failure
      shown := r.notices.filter filter.shows }

/-- Runs a command line. What is no use of the program ends it with code 2. -/
def execute (machine : Machine) (env : Environment) (running : machine.Running) (files : FileTree)
    (args : List String) : Result machine.Running :=
  match parse args with
  | .error .usage => { files, running, exitCode := 2 }
  | .error .help => { files, running, exitCode := 0, printed := helpText }
  | .error .version => { files, running, exitCode := 0, printed := versionText }
  | .ok i => obey machine env running files i

/-! ## Failures -/

/-- A text whose further lines are indented. -/
def indentLines (indent : String) (s : String) : String :=
  String.intercalate ("\n" ++ indent) ((piecesBetween '\n' s.toList).map String.ofList)

/-- The causes of a failure from a position on, each with its number. -/
def numberedCauses : (number : Nat) → List String → String
  | _, [] => ""
  | number, cause :: causes =>
    let shown := toString number
    let padding := String.ofList (List.replicate (5 - shown.length) ' ')
    "\n" ++ padding ++ shown ++ ": " ++ indentLines "       " cause
      ++ numberedCauses (number + 1) causes

/-- The text of a failure. A single cause has no number. -/
def failureText : List String → String
  | [] => ""
  | [message] => "Error: " ++ message ++ "\n"
  | [message, cause] =>
    "Error: " ++ message ++ "\n\nCaused by:\n    " ++ indentLines "    " cause ++ "\n"
  | message :: causes => "Error: " ++ message ++ "\n\nCaused by:" ++ numberedCauses 0 causes ++ "\n"

end CaseHarvest.CommandLine
