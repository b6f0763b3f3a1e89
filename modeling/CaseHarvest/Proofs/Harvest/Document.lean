import CaseHarvest.Proofs.Harvest.Outcome
import CaseHarvest.Proofs.Session.Visits
/-!
What a run writes. Main statement: the document holds the records that the engine runs left, in the
order of units and names, each fingerprint once (`runWith_document`), if no path to an output
directory leads through one that is cleared away meanwhile. Without that a run can lose records
(`record_lost_on_detour`).
-/
namespace CaseHarvest.Harvest

open FileTree (locate way)

variable (engine : Engine) (machine : Machine) (settings : Settings) (running : machine.Running)
  (files : FileTree) (inputs : List String) (executable : String)

/-- The records that the engine runs of a run leave, in the order of units and of names. -/
def harvested : List Record :=
  (Session.visits engine machine settings executable running files 0
    (units machine settings files inputs)).flatMap (Visit.records machine.workingDir settings)

/-- The file that those records make. -/
def harvestedDocument : Bytes :=
  Bytes.ofString (TestSuite.assemble (Record.dedup
    (harvested engine machine settings running files inputs executable)) settings.suite).document
    ++ [10]

variable {engine machine settings running files inputs executable}

/-- A session's suite is made of what its engine runs left. -/
theorem suiteOf_session (hconfined : engine.Confined machine)
    (hapart : Apart machine.workingDir (dirs machine settings files inputs))
    (hpass : Passable machine.workingDir (dirs machine settings files inputs)) :
    suiteOf machine settings (session engine machine settings running files inputs executable)
      = TestSuite.assemble (Record.dedup
          (harvested engine machine settings running files inputs executable)) settings.suite := by
  unfold suiteOf session harvested
  rw [Session.gather_runUnits hconfined ⟨files, running, [], [], []⟩ 0 _ hapart hpass]
  rfl

/-- A record without objects. -/
def bareRecord : Bytes := Record.encode (Record.create 1 [] 0 0 [])

/-- An engine that leaves one record for some units and does nothing for others. -/
def oneRecordFor (units : List String) : Machine :=
  Machine.scripted fun unit => if unit ∈ units then some [("a.ktest", bareRecord)] else none

/-- Two units, and a directory that a former run has left for the second one. -/
def twoUnits : FileTree :=
  ((FileTree.empty.put ["a.ll"] (.file [] false)).put ["b.ll"] (.file [] false)).put
    ["klee-out-1"] .directory

/-- A run that ends with a report has written what its engine runs left, if output directories keep
apart and no path to one leads through one that may still be cleared away. -/
theorem runWith_document (hconfined : engine.Confined machine)
    (hapart : Apart machine.workingDir (dirs machine settings files inputs))
    (hpass : Passable machine.workingDir (dirs machine settings files inputs)) {report : RunReport}
    (h : (runWith engine machine settings running files inputs).result = .ok report) :
    ∃ executable, engine.locate machine files = .ok executable
      ∧ (runWith engine machine settings running files inputs).files.read machine.workingDir
          settings.output
        = .ok (harvestedDocument engine machine settings running files inputs executable) := by
  obtain ⟨hvalid, executable, hlocate, hplacing⟩ := result_ok_iff.1 ⟨report, h⟩
  have hplaced := TestSuite.persist_ok (placing_iff.1 hplacing)
  refine ⟨executable, hlocate, ?_⟩
  rw [(runWith_of_located hvalid hlocate).1, harvestedDocument,
    ← suiteOf_session hconfined hapart hpass]
  exact hplaced.read

theorem runWith_document_two_units :
    Engine.scripted.Confined (oneRecordFor ["a.ll"])
      ∧ Apart [] (dirs (oneRecordFor ["a.ll"]) {} twoUnits ["a.ll", "b.ll"])
      ∧ Passable [] (dirs (oneRecordFor ["a.ll"]) {} twoUnits ["a.ll", "b.ll"])
      ∧ (∃ report, (runWith Engine.scripted (oneRecordFor ["a.ll"]) {} () twoUnits
          ["a.ll", "b.ll"]).result = .ok report)
      ∧ ∃ executable, Engine.scripted.locate (oneRecordFor ["a.ll"]) twoUnits = .ok executable
        ∧ (runWith Engine.scripted (oneRecordFor ["a.ll"]) {} () twoUnits
            ["a.ll", "b.ll"]).files.read [] "test_suite_generated.json"
          = .ok (harvestedDocument Engine.scripted (oneRecordFor ["a.ll"]) {} () twoUnits
              ["a.ll", "b.ll"] executable) := by
  have hconfined := scripted_confined
    fun unit => if unit ∈ ["a.ll"] then some [("a.ktest", bareRecord)] else none
  have hapart : Apart [] (dirs (oneRecordFor ["a.ll"]) {} twoUnits ["a.ll", "b.ll"]) := by
    decide +kernel
  have hpass : Passable [] (dirs (oneRecordFor ["a.ll"]) {} twoUnits ["a.ll", "b.ll"]) := by
    decide +kernel
  obtain ⟨report, h⟩ : ∃ report, (runWith Engine.scripted (oneRecordFor ["a.ll"]) {} () twoUnits
      ["a.ll", "b.ll"]).result = .ok report := exists_eq_ok (by decide +kernel)
  exact ⟨hconfined, hapart, hpass, ⟨report, h⟩, runWith_document hconfined hapart hpass h⟩

/-- A path that comes out of another unit's output directory loses its records when that directory is
cleared, though no directory lies in another one and all units and the document lie outside. -/
theorem record_lost_on_detour :
    Engine.scripted.Confined (oneRecordFor ["klee-out-1/../a.ll"])
      ∧ Apart [] (dirs (oneRecordFor ["klee-out-1/../a.ll"]) {} twoUnits
          ["klee-out-1/../a.ll", "b.ll"])
      ∧ (∀ dir ∈ dirs (oneRecordFor ["klee-out-1/../a.ll"]) {} twoUnits
            ["klee-out-1/../a.ll", "b.ll"],
          ∀ path ∈ ["klee-out-1/../a.ll", "b.ll", "test_suite_generated.json"],
            ¬ locate [] dir <+: locate [] path)
      ∧ (runWith Engine.scripted (oneRecordFor ["klee-out-1/../a.ll"]) {} () twoUnits
          ["klee-out-1/../a.ll", "b.ll"]).result.toOption.isSome
      ∧ (runWith Engine.scripted (oneRecordFor ["klee-out-1/../a.ll"]) {} () twoUnits
            ["klee-out-1/../a.ll", "b.ll"]).files.read [] "test_suite_generated.json"
          ≠ .ok (harvestedDocument Engine.scripted (oneRecordFor ["klee-out-1/../a.ll"]) {} ()
              twoUnits ["klee-out-1/../a.ll", "b.ll"] "engine") := by
  refine ⟨scripted_confined _, by decide +kernel, by decide +kernel, by decide +kernel, ?_⟩
  intro hread
  have hwritten := congrArg Except.toOption hread
  revert hwritten
  decide +kernel

end CaseHarvest.Harvest
