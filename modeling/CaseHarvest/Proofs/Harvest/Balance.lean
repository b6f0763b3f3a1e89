import CaseHarvest.Proofs.Harvest.Document
import CaseHarvest.Proofs.Record.Dedup
import CaseHarvest.Proofs.Session.Reports
import CaseHarvest.Proofs.Suite.Document
/-!
What a report counts. Main statement: the report of a run accounts for each input, for each record file
that its engine runs have left and for each test case of the document (`runWith_balances`).
-/
namespace CaseHarvest

section Select

variable (files : FileTree) (cwd : Location) (extension : String)

theorem selectUnits_fst (inputs : List String) :
    (selectUnits files cwd extension inputs).1
      = inputs.filter fun path => skipReason? files cwd extension path = none := by
  induction inputs with
  | nil => rfl
  | cons path paths ih =>
    rw [selectUnits]
    cases h : skipReason? files cwd extension path <;> simp [h, ih]

theorem selectUnits_snd (inputs : List String) :
    (selectUnits files cwd extension inputs).2
      = inputs.filterMap fun path =>
          (skipReason? files cwd extension path).map (SkippedInput.mk path) := by
  induction inputs with
  | nil => rfl
  | cons path paths ih =>
    rw [selectUnits]
    cases h : skipReason? files cwd extension path <;> simp [h, ih]

/-- Each input, as often as it occurs, is on one side. -/
theorem selectUnits_perm (inputs : List String) :
    ((selectUnits files cwd extension inputs).1
      ++ (selectUnits files cwd extension inputs).2.map (·.path)).Perm inputs := by
  induction inputs with
  | nil => exact .refl _
  | cons path paths ih =>
    rw [selectUnits]
    cases h : skipReason? files cwd extension path with
    | none => exact ih.cons path
    | some reason => exact List.perm_middle.trans (ih.cons path)

end Select

section Gather

variable (files : FileTree) (cwd : Location) (max : Int32)

/-- What is reported of a record file that cannot be read. -/
def failure? (path : String) : Option DecodeFailure :=
  match Record.load files cwd path max with
  | .ok _ => none
  | .error e => some ⟨path, e⟩

theorem gatherRecords_snd (paths : List String) :
    (gatherRecords files cwd max paths).2 = paths.filterMap (failure? files cwd max) := by
  induction paths with
  | nil => rfl
  | cons path paths ih =>
    rw [gatherRecords, List.filterMap_cons, failure?]
    cases Record.load files cwd path max <;> simp [ih]

/-- A file is either read or reported. -/
theorem length_gatherRecords (paths : List String) :
    (gatherRecords files cwd max paths).1.length + (gatherRecords files cwd max paths).2.length
      = paths.length := by
  induction paths with
  | nil => rfl
  | cons path paths ih =>
    rw [gatherRecords]
    cases Record.load files cwd path max <;> simp <;> omega

end Gather

namespace Harvest

variable {engine : Engine} {machine : Machine} {settings : Settings} {running : machine.Running}
  {files : FileTree} {inputs : List String} {executable : String} {report : RunReport}

/-- A run that ends with a report has put its session's suite in place, and reports on that
session. -/
theorem eq_reportOn
    (h : (runWith engine machine settings running files inputs).result = .ok report) :
    ∃ executable, engine.locate machine files = .ok executable
      ∧ (runWith engine machine settings running files inputs).files.read machine.workingDir
          settings.output = .ok (Bytes.ofString (suiteOf machine settings
            (session engine machine settings running files inputs executable)).document ++ [10])
      ∧ report = reportOn machine settings
          (selectUnits files machine.workingDir settings.irExtension inputs).2
          (session engine machine settings running files inputs executable) := by
  rcases runWith_cases engine machine settings running files inputs with
    ⟨e, -, hr⟩ | ⟨e, -, -, hr⟩ | ⟨_, e, -, -, -, hr⟩ | ⟨executable, hvalid, hlocate, hwritten, hr⟩
  · cases hr.symm.trans h
  · cases hr.symm.trans h
  · cases hr.symm.trans h
  · refine ⟨executable, hlocate, ?_, (Except.ok.inj (hr.symm.trans h)).symm⟩
    rw [(runWith_of_located hvalid hlocate).1]
    exact (TestSuite.persist_ok hwritten).read

/-- A report agrees with the inputs, with what the engine runs have left, and with the document. -/
structure Balances (engine : Engine) (machine : Machine) (settings : Settings)
    (running : machine.Running) (files : FileTree) (inputs : List String) (executable : String)
    (report : RunReport) : Prop where
  /-- Each input, as often as it occurs, is a unit or skipped. -/
  once : (report.units.map (·.unit) ++ report.skipped.map (·.path)).Perm inputs
  units : report.units.map (·.unit)
    = inputs.filter fun path => skipReason? files machine.workingDir settings.irExtension path = none
  skipped : report.skipped = inputs.filterMap fun path =>
    (skipReason? files machine.workingDir settings.irExtension path).map (SkippedInput.mk path)
  outputDirs : ∀ i u, report.units[i]? = some u →
    u.outputDir = unitOutputDir settings.outputDirPrefix u.unit i
  /-- The engine is started on each unit behind the one before it, whatever has become of that. -/
  attempted : report.units = Session.reports engine machine settings executable running files 0
    (Harvest.units machine settings files inputs)
  incomplete : ∀ u ∈ report.units, (u.status = .timedOut ∨ ∃ fault, u.status = .failed fault) →
    u.recordFiles = []
  found : report.recordsFound = report.units.foldr (fun u n => u.recordFiles.length + n) 0
  decoded : report.recordsFound = report.recordsDecoded + report.failures.length
  /-- Files are read when all engines have been waited for. -/
  failures : report.failures = (report.units.flatMap (·.recordFiles)).filterMap
    (failure? (session engine machine settings running files inputs executable).files
      machine.workingDir settings.maxVersion)
  testCases : report.testCases + report.duplicatesRemoved = report.recordsDecoded

theorem length_testCases_assemble (records : List Record) (metadata : SuiteMetadata) :
    (TestSuite.assemble records metadata).testCases.length = records.length := by
  simp [TestSuite.assemble]

theorem session_units :
    (session engine machine settings running files inputs executable).units
      = Session.reports engine machine settings executable running files 0
          (Harvest.units machine settings files inputs) := by
  rw [session, Session.runUnits_units]
  rfl

theorem session_units_pairs :
    (session engine machine settings running files inputs executable).units.map
        (fun u => (u.unit, u.outputDir))
      = (Harvest.units machine settings files inputs).zipIdx.map fun (unit, i) =>
          (unit, unitOutputDir settings.outputDirPrefix unit i) := by
  rw [session_units]
  exact Session.reports_units

theorem session_units_map :
    (session engine machine settings running files inputs executable).units.map (·.unit)
      = Harvest.units machine settings files inputs := by
  have hpairs : List.map Prod.fst
      ((session engine machine settings running files inputs executable).units.map _) = _ :=
    congrArg _ session_units_pairs
  rw [List.map_map, List.map_map] at hpairs
  exact hpairs.trans (List.zipIdx_map_fst 0 _)

theorem session_outputDir {i : Nat} {u : UnitReport}
    (h : (session engine machine settings running files inputs executable).units[i]? = some u) :
    u.outputDir = unitOutputDir settings.outputDirPrefix u.unit i := by
  have hpairs : ((session engine machine settings running files inputs
      executable).units.map _)[i]? = _ := congrArg (·[i]?) session_units_pairs
  rw [List.getElem?_map, h, List.getElem?_map, List.getElem?_zipIdx] at hpairs
  cases hunit : (Harvest.units machine settings files inputs)[i]? with
  | none => simp [hunit] at hpairs
  | some unit =>
    simp only [hunit, Option.map_some, Option.some.injEq, Prod.mk.injEq] at hpairs
    obtain ⟨rfl, hdir⟩ := hpairs
    simpa using hdir

/-- The report on a run's session balances. -/
theorem balances_reportOn :
    Balances engine machine settings running files inputs executable
      (reportOn machine settings
        (selectUnits files machine.workingDir settings.irExtension inputs).2
        (session engine machine settings running files inputs executable)) where
  once := by
    simp only [reportOn, session_units_map]
    exact selectUnits_perm _ _ _ _
  units := by
    simp only [reportOn, session_units_map]
    exact selectUnits_fst _ _ _ _
  skipped := selectUnits_snd _ _ _ _
  outputDirs i u h := session_outputDir h
  attempted := session_units
  incomplete u hu hstatus := by
    simp only [reportOn, session_units] at hu
    refine Session.recordFiles_of_not_completed hu fun exitCode hcompleted => ?_
    rcases hstatus with hstatus | ⟨fault, hstatus⟩
    · cases hstatus.symm.trans hcompleted
    · cases hstatus.symm.trans hcompleted
  found := Session.length_allRecordFiles _
  decoded := (length_gatherRecords _ _ _ _).symm
  failures := gatherRecords_snd _ _ _ _
  testCases := by
    simp only [reportOn, suiteOf, length_testCases_assemble]
    exact Nat.add_sub_of_le (Record.length_dedup_le _)

/-- The report of a run balances, and has as many test cases as the document that is read back at the
place of output. -/
theorem runWith_balances
    (h : (runWith engine machine settings running files inputs).result = .ok report) :
    ∃ executable, engine.locate machine files = .ok executable
      ∧ Balances engine machine settings running files inputs executable report
      ∧ ∃ bytes suite, (runWith engine machine settings running files inputs).files.read
            machine.workingDir settings.output = .ok bytes
          ∧ TestSuite.ofBytes? bytes = some suite
          ∧ suite.testCases.length = report.testCases := by
  obtain ⟨executable, hlocate, hread, rfl⟩ := eq_reportOn h
  have hfresh := TestSuite.isFresh_assemble (Record.dedup (gatherRecords
    (session engine machine settings running files inputs executable).files machine.workingDir
    settings.maxVersion (session engine machine settings running files inputs
      executable).allRecordFiles).1) settings.suite
  exact ⟨executable, hlocate, balances_reportOn, _, _, hread, hfresh.ofBytes?_document, rfl⟩

/-- An engine that leaves the same record for most units, what is no record for one, and nothing for
another. -/
def mixedMachine : Machine :=
  Machine.scripted fun unit =>
    if unit = "c.ll" then some [("a.ktest", [])]
    else if unit = "d.ll" then none
    else some [("a.ktest", bareRecord)]

def mixedInputs : List String := ["a.ll", "notes.txt", "b.ll", "gone.ll", "c.ll", "d.ll"]

def fourUnits : FileTree :=
  ((((FileTree.empty.put ["a.ll"] (.file [] false)).put ["b.ll"] (.file [] false)).put ["c.ll"]
    (.file [] false)).put ["d.ll"] (.file [] false)).put ["notes.txt"] (.file [] false)

theorem runWith_balances_mixed :
    ∃ report, (runWith Engine.scripted mixedMachine {} () fourUnits mixedInputs).result = .ok report
      ∧ (report.recordsFound, report.recordsDecoded, report.duplicatesRemoved, report.testCases)
          = (3, 2, 1, 1)
      ∧ ∃ executable, Engine.scripted.locate mixedMachine fourUnits = .ok executable
        ∧ Balances Engine.scripted mixedMachine {} () fourUnits mixedInputs executable report
        ∧ ∃ bytes suite, (runWith Engine.scripted mixedMachine {} () fourUnits
              mixedInputs).files.read [] "test_suite_generated.json" = .ok bytes
            ∧ TestSuite.ofBytes? bytes = some suite
            ∧ suite.testCases.length = report.testCases := by
  have hcounts : (runWith Engine.scripted mixedMachine {} () fourUnits
      mixedInputs).result.toOption.map (fun report => (report.recordsFound, report.recordsDecoded,
        report.duplicatesRemoved, report.testCases)) = some (3, 2, 1, 1) := by decide +kernel
  obtain ⟨report, hreport, hcounts⟩ := Option.map_eq_some_iff.1 hcounts
  have h := toOption_eq_some_iff.1 hreport
  exact ⟨report, h, hcounts, runWith_balances h⟩

end Harvest

end CaseHarvest
