import CaseHarvest.Settings.Basic
/-!
What takes the place of settings from a file: an environment variable that names the engine, and
then what is given for a single run.
-/
namespace CaseHarvest

/-- The environment variable that names the engine. -/
def engineVariable : String := "KLEE_BIN"

/-- What is given for a single run. -/
structure RunOverrides where
  engine : Option String := none
  timeoutSecs : Option Binary64 := none
  output : Option String := none
  maxVersion : Option Int32 := none
  funcName : Option String := none
  srcFile : Option String := none
  description : Option String := none
  deriving DecidableEq

namespace Settings

/-- The settings with the engine that the environment variable names; no text is no name. -/
def withEngineVariable (s : Settings) (engineVar : Option String) : Settings :=
  match engineVar with
  | none => s
  | some engine => if engine = "" then s else { s with engine }

end Settings

namespace RunOverrides

/-- The settings with everything that is given in place of what was there. -/
def replace (o : RunOverrides) (s : Settings) : Settings :=
  { s with
    engine := o.engine.getD s.engine
    timeoutSecs := o.timeoutSecs.getD s.timeoutSecs
    output := o.output.getD s.output
    maxVersion := o.maxVersion.getD s.maxVersion
    suite := {
      description := o.description.getD s.suite.description
      funcName := o.funcName.getD s.suite.funcName
      srcFile := o.srcFile.getD s.suite.srcFile } }

/-- As `replace`; a time limit that is given is checked. -/
def apply (o : RunOverrides) (s : Settings) : Except SettingsError Settings := do
  if o.timeoutSecs.isSome then (o.replace s).validate
  return o.replace s

end RunOverrides

end CaseHarvest
