import CaseHarvest.Proofs.Harvest.Balance
import CaseHarvest.Proofs.Session.Order
import CaseHarvest.Proofs.Suite.Order
/-!
Runs on machines whose directories deliver in different orders. Main statement: the records of a run are
those of its completed units, unit after unit and ascending by name, and so a run keeps the same records,
writes the same document and reports the same in whatever orders directories deliver
(`harvests_in_any_delivery`).
-/
namespace CaseHarvest

section Reading

variable {files files' : FileTree}

theorem gatherRecords_reordered (h : files.Reordered files') (cwd : Location) (max : Int32)
    (paths : List String) :
    gatherRecords files cwd max paths = gatherRecords files' cwd max paths := by
  have hload (path : String) : Record.load files cwd path max = Record.load files' cwd path max := by
    unfold Record.load
    rw [h.read]
  induction paths with
  | nil => rfl
  | cons path paths ih => rw [gatherRecords, gatherRecords, ih, hload]

theorem selectUnits_reordered (h : files.Reordered files') (cwd : Location) (extension : String)
    (inputs : List String) :
    selectUnits files cwd extension inputs = selectUnits files' cwd extension inputs := by
  have hreason (path : String) :
      skipReason? files cwd extension path = skipReason? files' cwd extension path := by
    unfold skipReason?
    rw [h.exists?]
  induction inputs with
  | nil => rfl
  | cons path paths ih => rw [selectUnits, selectUnits, ih, hreason]

end Reading

/-- What two runs leave, report and tell is the same, but for the order in which directories deliver. -/
structure Harvest.Reordered {Running Running' : Type} (R : Running → Running' → Prop)
    (harvest : Harvest Running) (harvest' : Harvest Running') : Prop where
  files : harvest.files.Reordered harvest'.files
  running : R harvest.running harvest'.running
  notices : harvest.notices = harvest'.notices
  result : harvest.result = harvest'.result

namespace Harvest

variable {engine : Engine} {machine machine' : Machine} {R : machine.Running → machine'.Running → Prop}
  {running : machine.Running} {running' : machine'.Running} {files files' : FileTree}
  (settings : Settings)

/-- The records of two sessions are the same, with the files that they come from. -/
theorem gathered_reordered (h : engine.RunsAlike machine machine' R) {s : Session machine.Running}
    {s' : Session machine'.Running} (hs : s.Reordered R s') :
    gatherRecords s.files machine.workingDir settings.maxVersion s.allRecordFiles
      = gatherRecords s'.files machine'.workingDir settings.maxVersion s'.allRecordFiles := by
  rw [Session.allRecordFiles_reordered hs, h.workingDir]
  exact gatherRecords_reordered hs.files _ _ _

theorem finish_reordered (h : engine.RunsAlike machine machine' R) (skipped : List SkippedInput)
    {s : Session machine.Running} {s' : Session machine'.Running} (hs : s.Reordered R s') :
    (finish machine settings skipped s).Reordered R (finish machine' settings skipped s') := by
  have hgathered := gathered_reordered settings h hs
  obtain ⟨hclosed, hclosing⟩ := Session.removeAll_reordered hs.files machine'.workingDir s'.dirs
  unfold finish Session.close
  dsimp only
  rw [hgathered, Session.allRecordFiles_reordered hs, h.workingDir, h.device, h.clock, hs.dirs,
    hs.notices, hs.units, hclosing]
  generalize gatherRecords s'.files machine'.workingDir settings.maxVersion s'.allRecordFiles = gathered
  obtain ⟨records, failures⟩ := gathered
  dsimp only
  obtain ⟨hfiles, houtcome⟩ := TestSuite.persist_reordered hclosed machine'.workingDir machine'.device
    settings.output (TestSuite.assemble (Record.dedup records) settings.suite)
  generalize TestSuite.persist (Session.removeAll _ s.files _).1 _ _ _ _ = put at hfiles houtcome ⊢
  generalize TestSuite.persist (Session.removeAll _ s'.files _).1 _ _ _ _ = put' at hfiles houtcome ⊢
  obtain ⟨after, outcome⟩ := put
  obtain ⟨after', outcome'⟩ := put'
  obtain rfl : outcome = outcome' := houtcome
  cases outcome with
  | error e => exact ⟨hfiles, hs.running, rfl, rfl⟩
  | ok u => exact ⟨hfiles, hs.running, rfl, rfl⟩

theorem session_reordered (h : engine.RunsAlike machine machine' R) (hrunning : R running running')
    (hfiles : files.Reordered files') (inputs : List String) (executable : String) :
    (session engine machine settings running files inputs executable).Reordered R
      (session engine machine' settings running' files' inputs executable) := by
  have hunits : units machine settings files inputs = units machine' settings files' inputs := by
    unfold units
    rw [h.workingDir, selectUnits_reordered hfiles]
  unfold session
  rw [hunits]
  exact Session.runUnits_reordered settings executable h
    (Session.start_reordered hrunning hfiles) 0 _

theorem runWith_reordered (h : engine.RunsAlike machine machine' R) (hrunning : R running running')
    (hfiles : files.Reordered files') (inputs : List String) :
    (runWith engine machine settings running files inputs).Reordered R
      (runWith engine machine' settings running' files' inputs) := by
  unfold runWith
  rw [← h.workingDir, selectUnits_reordered hfiles]
  cases settings.validate with
  | error e => exact ⟨hfiles, hrunning, rfl, rfl⟩
  | ok u =>
    obtain ⟨units, skipped⟩ := selectUnits files' machine.workingDir settings.irExtension inputs
    have hexecute := Session.execute_reordered settings h hrunning hfiles units
    dsimp only
    generalize Session.execute engine machine settings running files units = executed at hexecute ⊢
    generalize Session.execute engine machine' settings running' files' units = executed'
      at hexecute ⊢
    cases hexecute with
    | error e => exact ⟨hfiles, hrunning, rfl, rfl⟩
    | ok hsession =>
      have hfinish := finish_reordered settings h skipped hsession
      exact { hfinish with notices := congrArg _ hfinish.notices }

/-- On machines that differ in nothing else, the engine that settings ask for harvests the same. -/
theorem run_reordered (h : machine.RunsAlike machine' R) (hrunning : R running running')
    (hfiles : files.Reordered files') (inputs : List String) :
    (run machine settings running files inputs).Reordered R
      (run machine' settings running' files' inputs) :=
  runWith_reordered settings (h.engine settings) hrunning hfiles inputs

/-- The records that a session's suite is made of: of those with one fingerprint the first. -/
def kept (machine : Machine) (settings : Settings) (s : Session machine.Running) : List Record :=
  Record.dedup (gatherRecords s.files machine.workingDir settings.maxVersion s.allRecordFiles).1

theorem kept_reordered (h : engine.RunsAlike machine machine' R) {s : Session machine.Running}
    {s' : Session machine'.Running} (hs : s.Reordered R s') :
    kept machine settings s = kept machine' settings s' := by
  unfold kept
  rw [gathered_reordered settings h hs]

/-- A run on one machine collects, keeps and leaves what a run on another one does. -/
structure HarvestsTheSame (engine : Engine) (machine machine' : Machine)
    (R : machine.Running → machine'.Running → Prop) (settings : Settings) (running : machine.Running)
    (running' : machine'.Running) (files files' : FileTree) (inputs : List String) : Prop where
  sessions : ∀ units, SameOutcome (Session.Reordered R)
    (Session.execute engine machine settings running files units)
    (Session.execute engine machine' settings running' files' units)
  kept : ∀ executable,
    kept machine settings (session engine machine settings running files inputs executable)
      = kept machine' settings (session engine machine' settings running' files' inputs executable)
  harvests : (runWith engine machine settings running files inputs).Reordered R
    (runWith engine machine' settings running' files' inputs)

/-- Records are collected ascending by name and unit after unit in whatever order directories deliver, and
so a run keeps the same records and writes the same document. -/
theorem harvests_in_any_delivery (engine : Engine) (machine : Machine) (settings : Settings)
    (running : machine.Running) (files : FileTree) :
    (∀ t cwd extension dir, Session.CollectsInOrder t cwd extension dir)
      ∧ (∀ executable units, engine.locate machine files = .ok executable →
        ∃ s, Session.execute engine machine settings running files units = .ok s
          ∧ s.allRecordFiles
            = (Session.visits engine machine settings executable running files 0 units).flatMap
                (Visit.found machine.workingDir settings))
      ∧ ∀ machine' R running' files', engine.RunsAlike machine machine' R → R running running' →
        files.Reordered files' → ∀ inputs,
          HarvestsTheSame engine machine machine' R settings running running' files files' inputs := by
  refine ⟨Session.collectsInOrder, fun _ units hlocate => Session.execute_collects hlocate units, ?_⟩
  intro machine' R running' files' h hrunning hfiles inputs
  constructor
  case sessions => exact fun units => Session.execute_reordered settings h hrunning hfiles units
  case kept =>
    intro executable
    exact kept_reordered settings h (session_reordered settings h hrunning hfiles inputs executable)
  case harvests => exact runWith_reordered settings h hrunning hfiles inputs

/-- Two records with one fingerprint, told apart by their arguments. -/
def twinsLeft : List (String × Bytes) :=
  [("b.ktest", Record.encode (Record.create 3 ["later"] 0 0 [])),
    ("a.ktest", Record.encode (Record.create 3 ["earlier"] 0 0 []))]

/-- An engine that leaves the same records for each unit. -/
def leaving (left : List (String × Bytes)) : Machine := Machine.scripted fun _ => some left

/-- Two units, delivered in one order or the other. -/
def unitsDelivered (first second : String) : FileTree :=
  (FileTree.empty.put [first] (.file [] false)).put [second] (.file [] false)

theorem harvests_in_any_delivery_twins :
    Engine.scripted.RunsAlike (leaving twinsLeft) (leaving twinsLeft.reverse) (fun _ _ => True)
      ∧ (unitsDelivered "a.ll" "b.ll").Reordered (unitsDelivered "b.ll" "a.ll")
      ∧ ((leave (unitsDelivered "a.ll" "b.ll") ["klee-out-0"] twinsLeft).list [] "klee-out-0").map
            (·.map (·.1)) = .ok ["b.ktest", "a.ktest"]
      ∧ ((leave (unitsDelivered "b.ll" "a.ll") ["klee-out-0"] twinsLeft.reverse).list [] "klee-out-0").map
            (·.map (·.1)) = .ok ["a.ktest", "b.ktest"]
      ∧ (∃ s, Session.execute Engine.scripted (leaving twinsLeft) {} () (unitsDelivered "a.ll" "b.ll")
            ["a.ll", "b.ll"] = .ok s
          ∧ s.allRecordFiles
            = (Session.visits Engine.scripted (leaving twinsLeft) {} "engine" ()
                (unitsDelivered "a.ll" "b.ll") 0 ["a.ll", "b.ll"]).flatMap (Visit.found [] {}))
      ∧ HarvestsTheSame Engine.scripted (leaving twinsLeft) (leaving twinsLeft.reverse)
          (fun _ _ => True) {} () () (unitsDelivered "a.ll" "b.ll") (unitsDelivered "b.ll" "a.ll")
          ["a.ll", "b.ll"] := by
  have halike : Engine.scripted.RunsAlike (leaving twinsLeft) (leaving twinsLeft.reverse)
      (fun _ _ => True) := by
    refine scripted_runsAlike (fun unit => .some (List.reverse_perm twinsLeft).symm) ?_
    rintro unit left ⟨⟩
    decide
  have hfiles : (unitsDelivered "a.ll" "b.ll").Reordered (unitsDelivered "b.ll" "a.ll") :=
    (FileTree.Reordered.refl _).put_put (by decide) (by decide) (by decide) _ _
  obtain ⟨-, hcollected, hsame⟩ := harvests_in_any_delivery Engine.scripted (leaving twinsLeft) {} ()
    (unitsDelivered "a.ll" "b.ll")
  exact ⟨halike, hfiles, by decide +kernel, by decide +kernel, hcollected "engine" _ rfl,
    hsame _ (fun _ _ => True) () _ halike trivial hfiles _⟩

end Harvest

end CaseHarvest
