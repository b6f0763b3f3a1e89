import CaseHarvest.Files.Access
import CaseHarvest.Notice
/-!
Which inputs are units: those that exist and have the right extension.
-/
namespace CaseHarvest

inductive SkipReason where
  | wrongExtension
  | missing
  deriving DecidableEq, Repr

structure SkippedInput where
  path : String
  reason : SkipReason
  deriving DecidableEq, Repr

namespace SkippedInput

def notice (extension : String) (s : SkippedInput) : Notice :=
  match s.reason with
  | .wrongExtension => .wrongExtension s.path extension
  | .missing => .missingInput s.path

end SkippedInput

/-- Why an input is not a unit, if it is none. -/
def skipReason? (files : FileTree) (cwd : Location) (extension path : String) : Option SkipReason :=
  if Path.extension? path ≠ some extension then some .wrongExtension
  else if !files.exists? cwd path then some .missing
  else none

/-- The units among inputs and the inputs that are none, each in the order given. -/
def selectUnits (files : FileTree) (cwd : Location) (extension : String) :
    List String → List String × List SkippedInput
  | [] => ([], [])
  | path :: paths =>
    let (units, skipped) := selectUnits files cwd extension paths
    match skipReason? files cwd extension path with
    | none => (path :: units, skipped)
    | some reason => (units, ⟨path, reason⟩ :: skipped)

end CaseHarvest
