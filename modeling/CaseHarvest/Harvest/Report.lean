import CaseHarvest.Harvest.Basic
import CaseHarvest.Json.Pretty
/-!
The two forms in which a report is printed: JSON, and a summary for readers.
-/
namespace CaseHarvest

def SkipReason.label : SkipReason → String
  | wrongExtension => "wrong_extension"
  | missing => "missing"

/-- The reason as a summary names it. -/
def SkipReason.name : SkipReason → String
  | wrongExtension => "WrongExtension"
  | missing => "Missing"

def SkippedInput.toJson (s : SkippedInput) : Json :=
  .ofMembers [("path", .text s.path), ("reason", .text s.reason.label)]

namespace UnitStatus

def toJson : UnitStatus → Json
  | completed exitCode =>
    .ofMembers [("state", .text "completed"), ("exit_code", exitCode.elim .null Json.ofNat)]
  | timedOut => .ofMembers [("state", .text "timed_out")]
  | failed fault => .ofMembers [("state", .text "failed"), ("reason", .text fault.message)]

end UnitStatus

namespace UnitReport

def toJson (u : UnitReport) : Json :=
  .ofMembers [
    ("unit", .text u.unit),
    ("output_dir", .text u.outputDir),
    ("status", u.status.toJson),
    ("elapsed_ms", .ofNat u.elapsedMs),
    ("record_files", .array (u.recordFiles.map .text))]

def statusText (u : UnitReport) : String :=
  match u.status with
  | .completed _ => "completed, " ++ toString u.recordFiles.length ++ " record(s)"
  | .timedOut => "timed out"
  | .failed fault => "failed: " ++ fault.message

def line (u : UnitReport) : String :=
  "  - " ++ u.unit ++ " [" ++ u.statusText ++ "] " ++ toString u.elapsedMs ++ " ms"

end UnitReport

def DecodeFailure.toJson (f : DecodeFailure) : Json :=
  .ofMembers [("path", .text f.path), ("error", .text f.error.message)]

namespace RunReport

/-- All paths that a report tells. -/
def paths (r : RunReport) : List String :=
  r.skipped.map (·.path) ++ r.units.flatMap (fun u => u.unit :: u.outputDir :: u.recordFiles)
    ++ r.failures.map (·.path) ++ [r.output]

def toJson (r : RunReport) : Json :=
  .ofMembers [
    ("started_at", .text r.startedAt),
    ("finished_at", .text r.finishedAt),
    ("skipped_inputs", .array (r.skipped.map SkippedInput.toJson)),
    ("units", .array (r.units.map UnitReport.toJson)),
    ("records_found", .ofNat r.recordsFound),
    ("records_decoded", .ofNat r.recordsDecoded),
    ("decode_failures", .array (r.failures.map DecodeFailure.toJson)),
    ("duplicates_removed", .ofNat r.duplicatesRemoved),
    ("test_cases", .ofNat r.testCases),
    ("output", .text r.output)]

/-- The lines of the summary. -/
def summaryLines (r : RunReport) : List String :=
  ["Engine runs (" ++ toString r.units.length ++ "):"]
    ++ (if r.units.isEmpty then ["  (none)"] else [])
    ++ r.units.map UnitReport.line
    ++ r.skipped.map (fun s => "  - " ++ s.path ++ " [skipped: " ++ s.reason.name ++ "]")
    ++ ["Records: " ++ toString r.recordsFound ++ " found, " ++ toString r.recordsDecoded
          ++ " decoded"]
    ++ r.failures.map (fun f => "  - " ++ f.path ++ ": " ++ f.error.message)
    ++ ["Duplicates removed: " ++ toString r.duplicatesRemoved,
        "Test cases: " ++ toString r.testCases,
        "Output: " ++ r.output]

def summary (r : RunReport) : String := String.join (r.summaryLines.map (· ++ "\n"))

end RunReport

end CaseHarvest
