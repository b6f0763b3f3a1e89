import CaseHarvest.Record.Basic
import CaseHarvest.Value
import CaseHarvest.Binary64.Basic
/-!
A test suite: one test case for each record, with the record's objects as typed inputs.
-/
namespace CaseHarvest

/-- An input of a test case. Its data is always a text. -/
structure InputVar where
  name : String
  data : String
  kind : ValueKind
  deriving DecidableEq, Repr

/-- The object of a record as an input. -/
def InputVar.ofObject (o : Object) : InputVar where
  name := o.name
  data := (Value.interpret o.bytes).render
  kind := (Value.interpret o.bytes).kind

structure TestCase where
  inputs : List InputVar
  /-- Outputs by name, in the order of names; nothing here fills them. -/
  outputs : List (String × String)
  description : String
  reserved : Bool
  deriving DecidableEq, Repr

/-- The test case of the record at a position. -/
def TestCase.ofRecord (index : Nat) (r : Record) : TestCase where
  inputs := r.objects.map InputVar.ofObject
  outputs := []
  description := "test case " ++ toString index ++ " generated"
  reserved := false

/-- What a suite says about itself. -/
structure SuiteMetadata where
  description : String := "new test suite generated"
  funcName : String := "test"
  srcFile : String := "./test.c"
  deriving DecidableEq, Repr

structure TestSuite where
  coverage : Binary64
  description : String
  executed : Bool
  funcName : String
  srcFile : String
  testCases : List TestCase
  deriving DecidableEq

/-- The suite with a test case for each record, in order; nothing has been executed or covered. -/
def TestSuite.assemble (records : List Record) (metadata : SuiteMetadata) : TestSuite where
  coverage := .zero
  description := metadata.description
  executed := false
  funcName := metadata.funcName
  srcFile := metadata.srcFile
  testCases := records.zipIdx.map fun (r, i) => TestCase.ofRecord i r

end CaseHarvest
