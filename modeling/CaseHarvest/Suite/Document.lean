import CaseHarvest.Binary64.Shortest
import CaseHarvest.Json.Parser
import CaseHarvest.Json.Pretty
import CaseHarvest.Suite.Basic
/-!
The document that a suite is kept as, and reading it back.
-/
namespace CaseHarvest

/-- The numeral of a finite value: its shortest digits with at least one after the point, in
positional notation from 10^-5 to 10^16 and with an exponent beyond. -/
def Numeral.ofBinary64 (x : Binary64) : Numeral :=
  let value (c : Char) : Nat := c.toNat - '0'.toNat
  if x.magnitude = 0 then ⟨x.negative, [0], some [0], none⟩
  else
    let (digits, point) := (Binary64.shortest x.magnitude).significant
    let digits := digits.map value
    if -5 < point ∧ point ≤ 0 then
      ⟨x.negative, [0], some (List.replicate (-point).toNat 0 ++ digits), none⟩
    else if 0 < point ∧ point ≤ 16 then
      let whole := digits.take point.toNat
      let zeros := List.replicate (point.toNat - digits.length) 0
      let fraction := digits.drop point.toNat
      ⟨x.negative, whole ++ zeros, some (if fraction.isEmpty then [0] else fraction), none⟩
    else
      let fraction := digits.drop 1
      let fraction := if fraction.isEmpty then none else some fraction
      ⟨x.negative, digits.take 1, fraction, some (point - 1)⟩

namespace InputVar

def toJson (v : InputVar) : Json :=
  .ofMembers [("name", .text v.name), ("data", .text v.data), ("type", .text v.kind.label)]

/-- A kind is its label, or an object with the label as its only key and `null` as its value. -/
def kindOfJson? : Json → Option ValueKind
  | .string (some label) => ValueKind.ofLabel? label
  | .object [(some label, .null)] => ValueKind.ofLabel? label
  | _ => none

def ofJson? (j : Json) : Option InputVar := do
  let fields ← j.fields? ["name", "data", "type"]
  return {
    name := ← requiredField fields "name" Json.toString?
    data := ← requiredField fields "data" Json.toString?
    kind := ← requiredField fields "type" kindOfJson? }

end InputVar

namespace TestCase

def toJson (c : TestCase) : Json :=
  .ofMembers [
    ("inputs", .array (c.inputs.map InputVar.toJson)),
    ("outputs", .ofMembers (c.outputs.map fun (key, value) => (key, .text value))),
    ("description", .text c.description),
    ("reserved", .bool c.reserved)]

/-- Puts a text under a name into a list that is ascending by name, in place of an earlier one. -/
def insertOutput (key value : String) : List (String × String) → List (String × String)
  | [] => [(key, value)]
  | (k, v) :: rest =>
    if key < k then (key, value) :: (k, v) :: rest
    else if key = k then (key, value) :: rest
    else (k, v) :: insertOutput key value rest

/-- Outputs are an object of texts; of several members with one name the last one counts. -/
def outputsOfJson? : Json → Option (List (String × String))
  | .object members => members.foldlM (fun outputs (key, value) => do
      return insertOutput (← key) (← value.toString?) outputs) []
  | _ => none

def ofJson? (j : Json) : Option TestCase := do
  let fields ← j.fields? ["inputs", "outputs", "description", "reserved"]
  return {
    inputs := ← requiredField fields "inputs" (Json.toListOf? InputVar.ofJson?)
    outputs := ← optionalField fields "outputs" [] outputsOfJson?
    description := ← requiredField fields "description" Json.toString?
    reserved := ← optionalField fields "reserved" false Json.toBool? }

end TestCase

namespace SuiteMetadata

def toJson (m : SuiteMetadata) : Json :=
  .ofMembers [("description", .text m.description), ("func_name", .text m.funcName),
    ("src_file", .text m.srcFile)]

/-- Reads what a suite says about itself; each part that is missing is as usual. -/
def read {ν : Type} (reader : ValueReader ν) (value : ν) : Option SuiteMetadata := do
  let fields ← reader.fields ["description", "func_name", "src_file"] value
  let usual : SuiteMetadata := {}
  return {
    description := ← optionalField fields "description" usual.description reader.text
    funcName := ← optionalField fields "func_name" usual.funcName reader.text
    srcFile := ← optionalField fields "src_file" usual.srcFile reader.text }

def parse? (text : String) : Option SuiteMetadata :=
  Json.parse? text >>= read Json.reader

end SuiteMetadata

namespace TestSuite

def toJson (s : TestSuite) : Json :=
  .ofMembers [
    ("coverage", .number (.ofBinary64 s.coverage)),
    ("description", .text s.description),
    ("executed", .bool s.executed),
    ("funcName", .text s.funcName),
    ("srcFile", .text s.srcFile),
    ("testCases", .array (s.testCases.map TestCase.toJson))]

/-- The document of a suite. -/
def document (s : TestSuite) : String := s.toJson.pretty

def ofJson? (j : Json) : Option TestSuite := do
  let fields ← j.fields?
    ["coverage", "description", "executed", "funcName", "srcFile", "testCases"]
  return {
    coverage := ← requiredField fields "coverage" Json.toBinary64?
    description := ← requiredField fields "description" Json.toString?
    executed := ← requiredField fields "executed" Json.toBool?
    funcName := ← requiredField fields "funcName" Json.toString?
    srcFile := ← requiredField fields "srcFile" Json.toString?
    testCases := ← requiredField fields "testCases" (Json.toListOf? TestCase.ofJson?) }

/-- Reads a document. -/
def parse? (text : String) : Option TestSuite := Json.parse? text >>= ofJson?

end TestSuite

end CaseHarvest
