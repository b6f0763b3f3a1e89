import Mathlib.Data.List.Induction
import Mathlib.Data.List.Nodup
import CaseHarvest.Proofs.Files.Components
import CaseHarvest.Proofs.Session.Close
import CaseHarvest.Proofs.Session.Isolation
/-!
What a session owns. Output directories are told apart by their last components, whatever directories the
units lie in. Main statement: a session owns one directory for each unit that has had its turn, in order,
takes over a further one before it runs the engine on the next unit, and none of these is one that it owns
already (`dirs_told_apart`).
-/
namespace CaseHarvest

open CaseHarvest.Path (LastName components fileName? lastPiece)

section OutputDirs

variable (namePrefix : String) (ordinal : Nat)

theorem length_outputDirs (units : List String) :
    (outputDirs namePrefix ordinal units).length = units.length := by
  induction units generalizing ordinal with
  | nil => rfl
  | cons unit units ih => rw [outputDirs, List.length_cons, ih, List.length_cons]

theorem outputDirs_append (before after : List String) :
    outputDirs namePrefix ordinal (before ++ after)
      = outputDirs namePrefix ordinal before
        ++ outputDirs namePrefix (ordinal + before.length) after := by
  induction before generalizing ordinal with
  | nil => rfl
  | cons unit before ih =>
    rw [List.cons_append, outputDirs, outputDirs, ih, List.length_cons, List.cons_append,
      Nat.add_right_comm, Nat.add_assoc]

/-- The last components, which only the positions of the units tell apart. -/
theorem map_fileName?_outputDirs (units : List String) :
    (outputDirs namePrefix ordinal units).map fileName?
      = (List.range' ordinal units.length).map fun position =>
          some (outputDirName (lastPiece namePrefix) position) := by
  induction units generalizing ordinal with
  | nil => rfl
  | cons unit units ih =>
    rw [outputDirs, List.map_cons, ih, List.length_cons, List.range'_succ, List.map_cons,
      Path.fileName?_eq_some_iff.2 (lastName_unitOutputDir namePrefix unit ordinal)]

theorem nodup_fileName?_outputDirs (units : List String) :
    ((outputDirs namePrefix ordinal units).map fileName?).Nodup := by
  rw [map_fileName?_outputDirs]
  apply List.Nodup.map _ List.nodup_range'
  intro m n h
  exact outputDirName_injective _ (Option.some.inj h)

/-- Output directories of one run: their last components are those of the positions, and already these are
different, so that no two of them are the same path. -/
structure ToldApart (namePrefix : String) (ordinal : Nat) (units dirs : List String) : Prop where
  names : dirs.map fileName? = (List.range' ordinal units.length).map fun position =>
    some (outputDirName (lastPiece namePrefix) position)
  namesDiffer : (dirs.map fileName?).Nodup
  pathsDiffer : (dirs.map components).Nodup

theorem toldApart_outputDirs (units : List String) :
    ToldApart namePrefix ordinal units (outputDirs namePrefix ordinal units) where
  names := map_fileName?_outputDirs namePrefix ordinal units
  namesDiffer := nodup_fileName?_outputDirs namePrefix ordinal units
  pathsDiffer := by
    have hnames := nodup_fileName?_outputDirs namePrefix ordinal units
    unfold List.Nodup at hnames ⊢
    rw [List.pairwise_map] at hnames ⊢
    refine hnames.imp_of_mem fun hd he hne => ?_
    obtain ⟨unit, position, rfl⟩ := mem_outputDirs hd
    obtain ⟨unit', position', rfl⟩ := mem_outputDirs he
    have hlast := lastName_unitOutputDir namePrefix unit position
    have hlast' := lastName_unitOutputDir namePrefix unit' position'
    rw [Path.fileName?_eq_some_iff.2 hlast, Path.fileName?_eq_some_iff.2 hlast'] at hne
    exact hlast.components_ne hlast' fun e => hne (congrArg some e)

end OutputDirs

namespace Session

variable (engine : Engine) (machine : Machine) (settings : Settings) (executable : String)
  (running : machine.Running) (files : FileTree)

/-- The session when the engine is about to be started on a unit that comes behind some others. -/
def readyFor (before : List String) (unit : String) : Session machine.Running :=
  (afterUnits engine machine settings executable running files before).own
    (unitOutputDir settings.outputDirPrefix unit before.length)

/-- How a session comes to own the output directory of a unit that comes behind some others. -/
structure TakesOver (before : List String) (unit : String) : Prop where
  /-- The directories owned before are those reported, one for each unit so far. -/
  reported : (afterUnits engine machine settings executable running files before).units.map
      UnitReport.outputDir
    = (afterUnits engine machine settings executable running files before).dirs
  counted : (afterUnits engine machine settings executable running files before).dirs.length
    = before.length
  /-- None of them is the unit's, also where other texts are the same path. -/
  isNew : ∀ owned ∈ (afterUnits engine machine settings executable running files before).dirs,
    components owned ≠ components (unitOutputDir settings.outputDirPrefix unit before.length)
  /-- Therefore it is not dropped. -/
  taken : (readyFor engine machine settings executable running files before unit).dirs
    = (afterUnits engine machine settings executable running files before).dirs
      ++ [unitOutputDir settings.outputDirPrefix unit before.length]
  /-- The engine is started from there, with this directory, and nothing else comes to be owned. -/
  started : afterUnits engine machine settings executable running files (before ++ [unit])
    = runInto engine machine settings executable
        (readyFor engine machine settings executable running files before unit) unit
        (unitOutputDir settings.outputDirPrefix unit before.length)
  kept : (afterUnits engine machine settings executable running files (before ++ [unit])).dirs
    = (readyFor engine machine settings executable running files before unit).dirs

variable {engine machine settings executable running files}

theorem dirs_own_of_new {s : Session machine.Running} {dir : String} (h : dir ∉ s.dirs) :
    (s.own dir).dirs = s.dirs ++ [dir] := by
  unfold own
  rw [if_neg h]

/-- A unit's output directory is none of those before it. -/
theorem components_ne_of_mem {namePrefix owned unit : String} {before : List String}
    (h : owned ∈ outputDirs namePrefix 0 before) :
    components owned ≠ components (unitOutputDir namePrefix unit before.length) := by
  have hdiffer := (toldApart_outputDirs namePrefix 0 (before ++ [unit])).pathsDiffer
  rw [outputDirs_append, Nat.zero_add, outputDirs, outputDirs, List.map_append] at hdiffer
  exact fun hsame => List.disjoint_of_nodup_append hdiffer (List.mem_map_of_mem h)
    (hsame ▸ List.mem_singleton_self _)

/-- After each unit a session owns the output directories of the units so far, in order. -/
theorem dirs_afterUnits (units : List String) :
    (afterUnits engine machine settings executable running files units).dirs
      = outputDirs settings.outputDirPrefix 0 units := by
  -- From behind, as the ordinal of a unit counts the units before it.
  induction units using List.reverseRecOn with
  | nil => rfl
  | append_singleton before unit ih =>
    have hnew : unitOutputDir settings.outputDirPrefix unit before.length
        ∉ (afterUnits engine machine settings executable running files before).dirs := by
      rw [ih]
      exact fun hmem => components_ne_of_mem hmem rfl
    rw [afterUnits_concat, dirs_runUnit, dirs_own_of_new hnew, ih, outputDirs_append,
      Nat.zero_add]
    rfl

/-- What is owned is what is reported. -/
theorem outputDirs_reports {ordinal : Nat} (units : List String) :
    (reports engine machine settings executable running files ordinal units).map
        UnitReport.outputDir
      = outputDirs settings.outputDirPrefix ordinal units := by
  induction units generalizing running files ordinal with
  | nil => rfl
  | cons unit units ih =>
    rw [reports, List.map_cons, ih, outputDirs]
    rfl

theorem takesOver (before : List String) (unit : String) :
    TakesOver engine machine settings executable running files before unit := by
  have hdirs : (afterUnits engine machine settings executable running files before).dirs
      = outputDirs settings.outputDirPrefix 0 before := dirs_afterUnits before
  have hready : (readyFor engine machine settings executable running files before unit).dirs
      = (afterUnits engine machine settings executable running files before).dirs
        ++ [unitOutputDir settings.outputDirPrefix unit before.length] := by
    apply dirs_own_of_new
    rw [hdirs]
    exact fun hmem => components_ne_of_mem hmem rfl
  constructor
  case reported => rw [hdirs, afterUnits, runUnits_units, List.nil_append, outputDirs_reports]
  case counted => rw [hdirs, length_outputDirs]
  case isNew =>
    rw [hdirs]
    exact fun owned hmem => components_ne_of_mem hmem
  case taken => exact hready
  case started => exact afterUnits_concat
  case kept =>
    rw [afterUnits_concat, dirs_runUnit]
    rfl

/-- **A session owns what its engine is given.** Whatever the prefix and the units are, also if units lie in
different directories or come more than once, the output directories of a run have last components that
differ. So a session never passes over a directory as one that it owns: when the engine is started on a unit,
it owns the unit's directory and those of all units before it, each once and in order, and in the end those
of all units. -/
theorem dirs_told_apart (engine : Engine) (machine : Machine) (settings : Settings)
    (running : machine.Running) (files : FileTree) :
    (∀ ordinal units, ToldApart settings.outputDirPrefix ordinal units
        (outputDirs settings.outputDirPrefix ordinal units))
      ∧ (∀ units, execute engine machine settings running files units
          = (engine.locate machine files).map fun executable =>
              afterUnits engine machine settings executable running files units)
      ∧ ∀ executable,
        (∀ before unit, TakesOver engine machine settings executable running files before unit)
          ∧ ∀ units, (afterUnits engine machine settings executable running files units).dirs
              = outputDirs settings.outputDirPrefix 0 units := by
  refine ⟨fun ordinal units => toldApart_outputDirs _ _ _, fun units => ?_,
    fun executable => ⟨fun before unit => takesOver before unit, fun units => dirs_afterUnits units⟩⟩
  unfold execute
  cases engine.locate machine files <;> rfl

end Session

end CaseHarvest
