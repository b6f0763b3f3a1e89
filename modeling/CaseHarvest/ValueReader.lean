import CaseHarvest.Binary64.Basic
/-!
What a notation for values offers to whoever reads a structure from it.
-/
namespace CaseHarvest

/-- A field that must be there. -/
def requiredField {ν α : Type} (fields : List (String × ν)) (name : String) (read : ν → Option α) :
    Option α := fields.lookup name >>= read

/-- A field with a value to take where it is missing. -/
def optionalField {ν α : Type} (fields : List (String × ν)) (name : String) (missing : α)
    (read : ν → Option α) : Option α :=
  match fields.lookup name with
  | none => some missing
  | some value => read value

/-- How values of a notation are read. -/
structure ValueReader (ν : Type) where
  text : ν → Option String
  texts : ν → Option (List String)
  seconds : ν → Option Binary64
  int32 : ν → Option Int32
  /-- The fields of a structure, of which the names are given, as far as they are written. -/
  fields : List String → ν → Option (List (String × ν))

end CaseHarvest
