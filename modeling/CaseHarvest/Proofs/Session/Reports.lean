import CaseHarvest.Proofs.Session.Frame
/-!
What a session reports. Main statement: there is one report for each unit, in order, made when the
unit's engine has been waited for, with what happened before as it was left (`runUnits_units`).
-/
namespace CaseHarvest.Session

variable (engine : Engine) (machine : Machine) (settings : Settings) (executable : String)

/-- What is reported of a unit when its engine has been waited for. -/
def reportOf (running : machine.Running) (files : FileTree) (unit dir : String) : UnitReport :=
  let a := attempt machine settings.timeout running files dir (engine.command executable unit dir)
  { unit, outputDir := dir, status := a.status, elapsedMs := machine.clock.millis a.time
    recordFiles := (collect engine machine settings unit dir a).1 }

/-- The reports of units, one after the other; the first one has the given position. -/
def reports (running : machine.Running) (files : FileTree) (ordinal : Nat) :
    List String → List UnitReport
  | [] => []
  | unit :: units =>
    let dir := unitOutputDir settings.outputDirPrefix unit ordinal
    let a := attempt machine settings.timeout running files dir
      (engine.command executable unit dir)
    reportOf engine machine settings executable running files unit dir
      :: reports a.running a.files (ordinal + 1) units

variable {engine machine settings executable}

theorem runUnit_units (s : Session machine.Running) (unit : String) (ordinal : Nat) :
    (runUnit engine machine settings executable s unit ordinal).units
      = s.units ++ [reportOf engine machine settings executable s.running s.files unit
          (unitOutputDir settings.outputDirPrefix unit ordinal)] := by
  simp only [runUnit, runInto, own_files, own_running, own_units, reportOf]

theorem runUnits_units (s : Session machine.Running) (ordinal : Nat) (units : List String) :
    (runUnits engine machine settings executable s ordinal units).units
      = s.units ++ reports engine machine settings executable s.running s.files ordinal units := by
  induction units generalizing s ordinal with
  | nil => rw [runUnits_nil, reports, List.append_nil]
  | cons unit units ih =>
    rw [runUnits_cons, ih, runUnit_units, runUnit_files, runUnit_running, reports,
      List.append_assoc, List.singleton_append]

theorem runUnits_append (s : Session machine.Running) (ordinal : Nat) (before after : List String) :
    runUnits engine machine settings executable s ordinal (before ++ after)
      = runUnits engine machine settings executable
          (runUnits engine machine settings executable s ordinal before)
          (ordinal + before.length) after := by
  induction before generalizing s ordinal with
  | nil => rfl
  | cons unit before ih =>
    rw [List.cons_append, runUnits_cons, runUnits_cons, ih, List.length_cons, Nat.add_right_comm,
      Nat.add_assoc]

variable {running : machine.Running} {files : FileTree} {ordinal : Nat} {units : List String}
  {report : UnitReport}

/-- Each unit is reported with the output directory of its position. -/
theorem reports_units :
    (reports engine machine settings executable running files ordinal units).map
        (fun report => (report.unit, report.outputDir))
      = (units.zipIdx ordinal).map fun (unit, position) =>
          (unit, unitOutputDir settings.outputDirPrefix unit position) := by
  induction units generalizing running files ordinal with
  | nil => rfl
  | cons unit units ih =>
    rw [reports, List.map_cons, ih, List.zipIdx_cons, List.map_cons]
    rfl

theorem length_reports :
    (reports engine machine settings executable running files ordinal units).length
      = units.length := by
  induction units generalizing running files ordinal with
  | nil => rfl
  | cons unit units ih => rw [reports, List.length_cons, ih, List.length_cons]

/-- A report is made in the state that the units before have left. -/
theorem exists_reportOf
    (h : report ∈ reports engine machine settings executable running files ordinal units) :
    ∃ running files unit dir,
      report = reportOf engine machine settings executable running files unit dir := by
  induction units generalizing running files ordinal with
  | nil => cases h
  | cons unit units ih =>
    rcases List.mem_cons.1 h with rfl | h
    · exact ⟨_, _, _, _, rfl⟩
    · exact ih h

theorem length_allRecordFiles {Running : Type} (s : Session Running) :
    s.allRecordFiles.length = s.units.foldr (fun u n => u.recordFiles.length + n) 0 := by
  rw [allRecordFiles]
  induction s.units with
  | nil => rfl
  | cons u units ih => rw [List.flatMap_cons, List.length_append, ih, List.foldr_cons]

/-- Only completed units have record files. -/
theorem recordFiles_of_not_completed
    (h : report ∈ reports engine machine settings executable running files ordinal units)
    (hstatus : ∀ exitCode, report.status ≠ .completed exitCode) : report.recordFiles = [] := by
  obtain ⟨running, files, unit, dir, rfl⟩ := exists_reportOf h
  unfold reportOf at hstatus ⊢
  simp only at hstatus ⊢
  unfold collect
  split
  · rfl
  · rfl
  · rename_i exitCode hcompleted
    exact absurd hcompleted (hstatus exitCode)

end CaseHarvest.Session
