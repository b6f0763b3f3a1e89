import CaseHarvest.Duration
import CaseHarvest.Files.Fault
import CaseHarvest.Record.Basic
import CaseHarvest.Suite.Basic
/-!
The settings of a run, each with a usual value, and the one rule that they are checked for: the time
limit is a positive number of seconds.
-/
namespace CaseHarvest

structure Settings where
  /-- The engine's executable: a name to be searched for, or a path. -/
  engine : String := "klee"
  /-- Arguments in front of the output directory and the unit. -/
  engineArgs : List String := ["-optimize"]
  /-- How long an engine may take for one unit, in seconds. -/
  timeoutSecs : Binary64 := Binary64.ofNat 1000
  maxVersion : Int32 := Record.defaultMaxVersion
  /-- Where the suite is written. -/
  output : String := "test_suite_generated.json"
  /-- The extension of input units. -/
  irExtension : String := "ll"
  /-- The extension of the records that an engine leaves. -/
  recordExtension : String := "ktest"
  outputDirPrefix : String := "klee-out"
  suite : SuiteMetadata := {}
  deriving DecidableEq

inductive SettingsError where
  | read (path : String) (fault : Fault)
  | parse (path : String)
  | invalidTimeout (secs : Binary64)
  deriving DecidableEq

namespace SettingsError

def message : SettingsError → String
  | read path fault => "failed to read config at " ++ path ++ ": " ++ fault.message
  | parse path => "failed to parse config at " ++ path
  | invalidTimeout secs =>
    "invalid timeout_secs: must be a positive number of seconds, got " ++ secs.text

/-- The error and what lies behind it, outermost first. -/
def chain (e : SettingsError) : List String :=
  match e with
  | read _ fault => [e.message, fault.message]
  | _ => [e.message]

end SettingsError

namespace Settings

/-- A time limit that a run can keep: more than nothing, and an end to it. -/
def isUsableTimeout (secs : Binary64) : Bool := secs.isFinite && secs.isPositive

def validate (s : Settings) : Except SettingsError Unit :=
  if isUsableTimeout s.timeoutSecs then .ok () else .error (.invalidTimeout s.timeoutSecs)

def timeout (s : Settings) : Duration := .ofSeconds s.timeoutSecs

def withTimeout (s : Settings) (d : Duration) : Settings := { s with timeoutSecs := d.toSeconds }

end Settings

end CaseHarvest
