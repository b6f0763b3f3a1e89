import CaseHarvest.Duration
import CaseHarvest.Record.Decode
/-!
What a run tells about while it is under way.
-/
namespace CaseHarvest

inductive Level where
  | error
  | warn
  | info
  | debug
  | trace
  deriving DecidableEq, Repr

namespace Level

/-- How much is let through: each level lets the ones before it through as well. -/
def rank : Level → Nat
  | error => 1
  | warn => 2
  | info => 3
  | debug => 4
  | trace => 5

def label : Level → String
  | error => "ERROR"
  | warn => "WARN"
  | info => "INFO"
  | debug => "DEBUG"
  | trace => "TRACE"

end Level

inductive Notice where
  | wrongExtension (path expected : String)
  | missingInput (path : String)
  | finished (engine unit : String)
  | noRecords (unit dir : String) (fault : Fault)
  | timedOut (engine : String) (limit : Duration) (unit : String)
  | failed (engine unit : String) (fault : Fault)
  | undecodable (path : String) (error : DecodeError)
  | notRemoved (dir : String) (fault : Fault)
  | dropped (count : Nat)
  | wrote (count : Nat) (output : String)
  deriving DecidableEq, Repr

namespace Notice

def level : Notice → Level
  | finished _ _ => .info
  | dropped _ => .info
  | wrote _ _ => .info
  | _ => .warn

def text : Notice → String
  | wrongExtension path expected => path ++ " is not a ." ++ expected ++ " file, skipping"
  | missingInput path => path ++ " does not exist, skipping"
  | finished engine unit => engine ++ " finished: " ++ unit
  | noRecords unit dir fault =>
    "no records for " ++ unit ++ ": cannot read " ++ dir ++ ": " ++ fault.message
  | timedOut engine limit unit => engine ++ " timed out after " ++ limit.text ++ ": " ++ unit
  | failed engine unit fault => engine ++ " failed for " ++ unit ++ ": " ++ fault.message
  | undecodable path error => "skipping undecodable record " ++ path ++ ": " ++ error.message
  | notRemoved dir fault => "failed to remove output dir " ++ dir ++ ": " ++ fault.message
  | dropped count => "dropped " ++ toString count ++ " duplicate test case(s)"
  | wrote count output => "wrote " ++ toString count ++ " test case(s) to " ++ output

/-- The part of a run that a notice comes from, by the name under which filters know it. -/
def source : Notice → String
  | finished _ _ => "ktest_core::services::orchestrator"
  | noRecords _ _ _ => "ktest_core::services::orchestrator"
  | timedOut _ _ _ => "ktest_core::services::orchestrator"
  | failed _ _ _ => "ktest_core::services::orchestrator"
  | notRemoved _ _ => "ktest_core::services::orchestrator"
  | _ => "ktest_core::services::pipeline"

end Notice

end CaseHarvest
