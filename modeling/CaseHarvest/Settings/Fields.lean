import CaseHarvest.Settings.Basic
import CaseHarvest.Suite.Document
/-!
The names under which a file gives settings. A file gives the ones that it changes.
-/
namespace CaseHarvest.Settings

def fieldNames : List String :=
  ["engine", "engine_args", "timeout_secs", "max_version", "output", "ir_extension",
    "record_extension", "output_dir_prefix", "suite"]

/-- Reads settings; each one that is missing is as usual. -/
def read {ν : Type} (reader : ValueReader ν) (value : ν) : Option Settings := do
  let fields ← reader.fields fieldNames value
  let usual : Settings := {}
  return {
    engine := ← optionalField fields "engine" usual.engine reader.text
    engineArgs := ← optionalField fields "engine_args" usual.engineArgs reader.texts
    timeoutSecs := ← optionalField fields "timeout_secs" usual.timeoutSecs reader.seconds
    maxVersion := ← optionalField fields "max_version" usual.maxVersion reader.int32
    output := ← optionalField fields "output" usual.output reader.text
    irExtension := ← optionalField fields "ir_extension" usual.irExtension reader.text
    recordExtension := ← optionalField fields "record_extension" usual.recordExtension reader.text
    outputDirPrefix := ← optionalField fields "output_dir_prefix" usual.outputDirPrefix reader.text
    suite := ← optionalField fields "suite" usual.suite (SuiteMetadata.read reader) }

end CaseHarvest.Settings
