import CaseHarvest.Json.Pretty
import CaseHarvest.Record.Fingerprint
import CaseHarvest.Suite.Document
/-!
A record file as JSON: the header, the fingerprint, and the objects as typed inputs.
-/
namespace CaseHarvest

structure Snapshot where
  file : String
  version : Int32
  args : List String
  symArgvs : Int32
  symArgvLen : Int32
  fingerprint : String
  inputs : List InputVar
  deriving DecidableEq, Repr

namespace Snapshot

/-- The record that was read from a file. -/
def ofRecord (file : String) (r : Record) : Snapshot where
  file := file
  version := r.version
  args := r.args
  symArgvs := r.symArgvs
  symArgvLen := r.symArgvLen
  fingerprint := r.fingerprint
  inputs := r.objects.map InputVar.ofObject

def toJson (s : Snapshot) : Json :=
  .ofMembers [
    ("file", .text s.file),
    ("version", .ofInt s.version.toInt),
    ("args", .array (s.args.map .text)),
    ("sym_argvs", .ofInt s.symArgvs.toInt),
    ("sym_argv_len", .ofInt s.symArgvLen.toInt),
    ("fingerprint", .text s.fingerprint),
    ("inputs", .array (s.inputs.map InputVar.toJson))]

end Snapshot

end CaseHarvest
