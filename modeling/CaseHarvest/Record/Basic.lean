import CaseHarvest.Bytes
/-!
A record: the concrete inputs that drove one path of a program, as named byte objects, together
with the arguments of the run that found it.
-/
namespace CaseHarvest

structure Object where
  name : String
  bytes : Bytes
  deriving DecidableEq, Repr

/-- The bytes that are shown or written out: the whole payload, or all up to its trailing zeros. -/
def Object.shown (trim : Bool) (o : Object) : Bytes := if trim then o.bytes.trimZeros else o.bytes

structure Record where
  version : Int32
  args : List String
  symArgvs : Int32
  symArgvLen : Int32
  objects : List Object
  /-- The file that the record was read from. -/
  source : Option String := none
  deriving DecidableEq

namespace Record

/-- The highest version that is read unless a caller says otherwise. -/
def defaultMaxVersion : Int32 := 3

/-- From version 2 on, the layout holds the two numbers about symbolic arguments. -/
def HasSymbolic (version : Int32) : Prop := 2 ≤ version

instance (version : Int32) : Decidable (HasSymbolic version) :=
  inferInstanceAs (Decidable (2 ≤ version))

/-- A record held in memory; numbers that its version has no room for are zero. -/
def create (version : Int32) (args : List String) (symArgvs symArgvLen : Int32)
    (objects : List Object) : Record :=
  if HasSymbolic version then { version, args, symArgvs, symArgvLen, objects }
  else { version, args, symArgvs := 0, symArgvLen := 0, objects }

end Record

end CaseHarvest
