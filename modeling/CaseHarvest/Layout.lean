import CaseHarvest.Files.Path
/-!
Where an engine puts what it finds: one output directory for each unit, beside the unit.
-/
namespace CaseHarvest

/-- The name of the output directory of the unit at a position. -/
def outputDirName (namePrefix : String) (ordinal : Nat) : String :=
  namePrefix ++ "-" ++ toString ordinal

/-- The output directory of the unit at a position, in the directory of the unit. -/
def unitOutputDir (namePrefix unit : String) (ordinal : Nat) : String :=
  Path.join (Path.directory unit) (outputDirName namePrefix ordinal)

end CaseHarvest
