import CaseHarvest.Notice
import CaseHarvest.Record.Extract
/-!
Reading many record files. One that cannot be read is left out and reported.
-/
namespace CaseHarvest

/-- A record file that could not be read. -/
structure DecodeFailure where
  path : String
  error : DecodeError
  deriving DecidableEq, Repr

def DecodeFailure.notice (f : DecodeFailure) : Notice := .undecodable f.path f.error

/-- The records in files and the files that hold none, each in the order given. -/
def gatherRecords (files : FileTree) (cwd : Location) (max : Int32) :
    List String → List Record × List DecodeFailure
  | [] => ([], [])
  | path :: paths =>
    let (records, failures) := gatherRecords files cwd max paths
    match Record.load files cwd path max with
    | .ok r => (r :: records, failures)
    | .error e => (records, ⟨path, e⟩ :: failures)

end CaseHarvest
