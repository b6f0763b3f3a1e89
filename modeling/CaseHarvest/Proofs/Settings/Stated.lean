import CaseHarvest.Settings.Load
/-!
What a file states. A file states any of the settings and may leave out all others. Main statement: what is read
from a value in any notation is what the value states, and the usual setting where it states none
(`read_eq_some_iff`).
-/
namespace CaseHarvest

/-- What is stated of a field: nothing if it is missing, and otherwise what its value is read as. -/
def States {ν α : Type} (fields : List (String × ν)) (name : String) (read : ν → α → Prop) :
    Option α → Prop
  | none => fields.lookup name = none
  | some x => ∃ value, fields.lookup name = some value ∧ read value x

section States

variable {ν α : Type} {fields : List (String × ν)} {name : String} {x missing : α}

theorem optionalField_eq_some_iff {read : ν → Option α} :
    optionalField fields name missing read = some x
      ↔ ∃ stated, States fields name (read · = some ·) stated ∧ x = stated.getD missing := by
  unfold optionalField
  constructor
  · intro h
    split at h
    · rename_i hnone
      cases h
      exact ⟨none, hnone, rfl⟩
    · rename_i value hvalue
      exact ⟨some x, ⟨value, hvalue, h⟩, rfl⟩
  · rintro ⟨stated, hstated, rfl⟩
    cases stated with
    | none =>
      rw [show fields.lookup name = none from hstated]
      rfl
    | some y =>
      obtain ⟨value, hvalue, hread⟩ := hstated
      rw [hvalue]
      exact hread

/-- A field that may be missing is read as what is stated of it. -/
theorem bind_optionalField_eq_some_iff {β : Type} {read : ν → Option α} {f : α → Option β} {y : β} :
    (optionalField fields name missing read >>= f) = some y
      ↔ ∃ stated, States fields name (read · = some ·) stated ∧ f (stated.getD missing) = some y := by
  rw [Option.bind_eq_bind, Option.bind_eq_some_iff]
  constructor
  · rintro ⟨x, hx, hf⟩
    obtain ⟨stated, hstated, rfl⟩ := optionalField_eq_some_iff.1 hx
    exact ⟨stated, hstated, hf⟩
  · rintro ⟨stated, hstated, hf⟩
    exact ⟨_, optionalField_eq_some_iff.2 ⟨stated, hstated, rfl⟩, hf⟩

/-- A structure may itself state some of its parts. -/
theorem states_complete_iff {β : Type} {read : ν → β → Prop} {complete : β → α} {stated : Option α} :
    States fields name (fun value x => ∃ y, read value y ∧ x = complete y) stated
      ↔ ∃ part : Option β, States fields name read part ∧ stated = part.map complete := by
  constructor
  · intro h
    cases stated with
    | none => exact ⟨none, h, rfl⟩
    | some x =>
      obtain ⟨value, hvalue, y, hread, rfl⟩ := h
      exact ⟨some y, ⟨value, hvalue, hread⟩, rfl⟩
  · rintro ⟨part, hpart, rfl⟩
    cases part with
    | none => exact hpart
    | some y =>
      obtain ⟨value, hvalue, hread⟩ := hpart
      exact ⟨value, hvalue, y, hread, rfl⟩

end States

namespace SuiteMetadata

/-- What is stated about a suite. -/
structure Stated where
  description : Option String := none
  funcName : Option String := none
  srcFile : Option String := none
  deriving DecidableEq

/-- With the usual texts in the places of those that are not stated. -/
def Stated.complete (stated : Stated) : SuiteMetadata :=
  let usual : SuiteMetadata := {}
  { description := stated.description.getD usual.description
    funcName := stated.funcName.getD usual.funcName
    srcFile := stated.srcFile.getD usual.srcFile }

/-- A value states something about a suite. -/
def IsStated {ν : Type} (reader : ValueReader ν) (value : ν) (stated : Stated) : Prop :=
  ∃ fields, reader.fields ["description", "func_name", "src_file"] value = some fields
    ∧ States fields "description" (reader.text · = some ·) stated.description
    ∧ States fields "func_name" (reader.text · = some ·) stated.funcName
    ∧ States fields "src_file" (reader.text · = some ·) stated.srcFile

theorem read_eq_some_iff {ν : Type} {reader : ValueReader ν} {value : ν} {m : SuiteMetadata} :
    read reader value = some m ↔ ∃ stated, IsStated reader value stated ∧ m = stated.complete := by
  unfold read
  constructor
  · intro h
    obtain ⟨fields, hfields, h⟩ := Option.bind_eq_some_iff.1 h
    obtain ⟨description, hdescription, h⟩ := bind_optionalField_eq_some_iff.1 h
    obtain ⟨funcName, hfuncName, h⟩ := bind_optionalField_eq_some_iff.1 h
    obtain ⟨srcFile, hsrcFile, h⟩ := bind_optionalField_eq_some_iff.1 h
    cases h
    exact ⟨⟨description, funcName, srcFile⟩, ⟨fields, hfields, hdescription, hfuncName, hsrcFile⟩,
      rfl⟩
  · rintro ⟨stated, ⟨fields, hfields, hdescription, hfuncName, hsrcFile⟩, rfl⟩
    refine Option.bind_eq_some_iff.2 ⟨fields, hfields, ?_⟩
    refine bind_optionalField_eq_some_iff.2 ⟨_, hdescription, ?_⟩
    refine bind_optionalField_eq_some_iff.2 ⟨_, hfuncName, ?_⟩
    exact bind_optionalField_eq_some_iff.2 ⟨_, hsrcFile, rfl⟩

end SuiteMetadata

namespace Settings

/-- Settings as far as they are stated. -/
structure Stated where
  engine : Option String := none
  engineArgs : Option (List String) := none
  timeoutSecs : Option Binary64 := none
  maxVersion : Option Int32 := none
  output : Option String := none
  irExtension : Option String := none
  recordExtension : Option String := none
  outputDirPrefix : Option String := none
  suite : Option SuiteMetadata.Stated := none
  deriving DecidableEq

/-- With the usual settings in the places of those that are not stated. -/
def Stated.complete (stated : Stated) : Settings :=
  let usual : Settings := {}
  { engine := stated.engine.getD usual.engine
    engineArgs := stated.engineArgs.getD usual.engineArgs
    timeoutSecs := stated.timeoutSecs.getD usual.timeoutSecs
    maxVersion := stated.maxVersion.getD usual.maxVersion
    output := stated.output.getD usual.output
    irExtension := stated.irExtension.getD usual.irExtension
    recordExtension := stated.recordExtension.getD usual.recordExtension
    outputDirPrefix := stated.outputDirPrefix.getD usual.outputDirPrefix
    suite := (stated.suite.map SuiteMetadata.Stated.complete).getD usual.suite }

/-- The fields of a value state settings. -/
structure FieldsState {ν : Type} (reader : ValueReader ν) (fields : List (String × ν))
    (stated : Stated) : Prop where
  engine : States fields "engine" (reader.text · = some ·) stated.engine
  engineArgs : States fields "engine_args" (reader.texts · = some ·) stated.engineArgs
  timeoutSecs : States fields "timeout_secs" (reader.seconds · = some ·) stated.timeoutSecs
  maxVersion : States fields "max_version" (reader.int32 · = some ·) stated.maxVersion
  output : States fields "output" (reader.text · = some ·) stated.output
  irExtension : States fields "ir_extension" (reader.text · = some ·) stated.irExtension
  recordExtension : States fields "record_extension" (reader.text · = some ·) stated.recordExtension
  outputDirPrefix : States fields "output_dir_prefix" (reader.text · = some ·) stated.outputDirPrefix
  suite : States fields "suite" (SuiteMetadata.IsStated reader) stated.suite

/-- A value states settings. -/
def IsStated {ν : Type} (reader : ValueReader ν) (value : ν) (stated : Stated) : Prop :=
  ∃ fields, reader.fields fieldNames value = some fields ∧ FieldsState reader fields stated

theorem read_eq_some_iff {ν : Type} {reader : ValueReader ν} {value : ν} {s : Settings} :
    read reader value = some s ↔ ∃ stated, IsStated reader value stated ∧ s = stated.complete := by
  unfold read
  constructor
  · intro h
    obtain ⟨fields, hfields, h⟩ := Option.bind_eq_some_iff.1 h
    obtain ⟨engine, hengine, h⟩ := bind_optionalField_eq_some_iff.1 h
    obtain ⟨engineArgs, hengineArgs, h⟩ := bind_optionalField_eq_some_iff.1 h
    obtain ⟨timeoutSecs, htimeoutSecs, h⟩ := bind_optionalField_eq_some_iff.1 h
    obtain ⟨maxVersion, hmaxVersion, h⟩ := bind_optionalField_eq_some_iff.1 h
    obtain ⟨output, houtput, h⟩ := bind_optionalField_eq_some_iff.1 h
    obtain ⟨irExtension, hirExtension, h⟩ := bind_optionalField_eq_some_iff.1 h
    obtain ⟨recordExtension, hrecordExtension, h⟩ := bind_optionalField_eq_some_iff.1 h
    obtain ⟨outputDirPrefix, houtputDirPrefix, h⟩ := bind_optionalField_eq_some_iff.1 h
    obtain ⟨suite, hsuite, h⟩ := bind_optionalField_eq_some_iff.1 h
    cases h
    simp only [SuiteMetadata.read_eq_some_iff] at hsuite
    obtain ⟨part, hpart, rfl⟩ := states_complete_iff.1 hsuite
    exact ⟨⟨engine, engineArgs, timeoutSecs, maxVersion, output, irExtension, recordExtension,
      outputDirPrefix, part⟩, ⟨fields, hfields, hengine, hengineArgs, htimeoutSecs, hmaxVersion, houtput,
      hirExtension, hrecordExtension, houtputDirPrefix, hpart⟩, rfl⟩
  · rintro ⟨stated, ⟨fields, hfields, h⟩, rfl⟩
    have hsuite : States fields "suite" (SuiteMetadata.read reader · = some ·)
        (stated.suite.map SuiteMetadata.Stated.complete) := by
      simp only [SuiteMetadata.read_eq_some_iff]
      exact states_complete_iff.2 ⟨_, h.suite, rfl⟩
    refine Option.bind_eq_some_iff.2 ⟨fields, hfields, ?_⟩
    refine bind_optionalField_eq_some_iff.2 ⟨_, h.engine, ?_⟩
    refine bind_optionalField_eq_some_iff.2 ⟨_, h.engineArgs, ?_⟩
    refine bind_optionalField_eq_some_iff.2 ⟨_, h.timeoutSecs, ?_⟩
    refine bind_optionalField_eq_some_iff.2 ⟨_, h.maxVersion, ?_⟩
    refine bind_optionalField_eq_some_iff.2 ⟨_, h.output, ?_⟩
    refine bind_optionalField_eq_some_iff.2 ⟨_, h.irExtension, ?_⟩
    refine bind_optionalField_eq_some_iff.2 ⟨_, h.recordExtension, ?_⟩
    refine bind_optionalField_eq_some_iff.2 ⟨_, h.outputDirPrefix, ?_⟩
    exact bind_optionalField_eq_some_iff.2 ⟨_, hsuite, rfl⟩

end Settings

end CaseHarvest
