import CaseHarvest.Digest.Sha256
import CaseHarvest.Record.Basic
/-!
When two records count as the same test case: their payloads, taken in the order of names and
payloads, run together to the same bytes. A digest of those bytes is a record's fingerprint, and
of the records with one fingerprint only the first is kept.
-/
namespace CaseHarvest

namespace Object

/-- Objects are ordered by name, and objects of one name by payload. -/
def le (x y : Object) : Bool :=
  let xName := Bytes.ofString x.name
  let yName := Bytes.ofString y.name
  if xName = yName then x.bytes.le y.bytes else xName.le yName

/-- The payloads in canonical order. -/
def payloads (objects : List Object) : List Bytes := (objects.mergeSort le).map (·.bytes)

/-- The digest of the payloads in canonical order, run together, as hexadecimal digits. -/
def fingerprint (objects : List Object) : String :=
  (Sha256.digest (payloads objects).flatten).toHex

end Object

namespace Record

def fingerprint (r : Record) : String := Object.fingerprint r.objects

/-- Keeps the first record of each fingerprint, apart from fingerprints seen before. -/
def dedupFrom (seen : List String) : List Record → List Record
  | [] => []
  | r :: rest =>
    let print := r.fingerprint
    if print ∈ seen then dedupFrom seen rest else r :: dedupFrom (print :: seen) rest

/-- Keeps the first record of each fingerprint, in order. -/
def dedup (records : List Record) : List Record := dedupFrom [] records

end Record

end CaseHarvest
