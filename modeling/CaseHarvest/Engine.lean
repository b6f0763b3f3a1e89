import CaseHarvest.Layout
import CaseHarvest.Machine.Basic
import CaseHarvest.Settings.Basic
/-!
Engines, which turn a unit into records: how the executable of one is found and how it is called.
-/
namespace CaseHarvest

inductive EngineError where
  | missingExecutable (engine : String)
  deriving DecidableEq, Repr

namespace EngineError

/-- Why there is no executable. -/
def reason : EngineError → String
  | missingExecutable _ => "cannot find binary path"

def message (e : EngineError) : String :=
  match e with
  | missingExecutable engine => "engine executable '" ++ engine ++ "' not found: " ++ e.reason

end EngineError

structure Engine where
  /-- What notices call it. -/
  name : String
  /-- The executable on a machine. -/
  locate : Machine → FileTree → Except EngineError String
  /-- The command for a unit whose records go into a directory. -/
  command : (executable unit outputDir : String) → Command

namespace Engine

/-- The arguments of an engine: the given ones, the output directory, and the unit. -/
def kleeArgs (args : List String) (unit outputDir : String) : List String :=
  args ++ ["-output-dir=" ++ outputDir, unit]

/-- The engine with this executable and these arguments. -/
def klee (executable : String) (args : List String) : Engine where
  name := "klee"
  locate machine files :=
    match machine.find? files executable with
    | some path => .ok path
    | none => .error (.missingExecutable executable)
  command program unit outputDir := { program, args := kleeArgs args unit outputDir }

/-- The engine that settings ask for. -/
def ofSettings (s : Settings) : Engine := klee s.engine s.engineArgs

/-- An engine that is always taken to be at a path. -/
def locatedAt (e : Engine) (path : String) : Engine := { e with locate := fun _ _ => .ok path }

end Engine

end CaseHarvest
