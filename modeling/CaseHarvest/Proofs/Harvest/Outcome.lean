import CaseHarvest.Harvest.Basic
import CaseHarvest.Proofs.Session.Close
import CaseHarvest.Proofs.Suite.Persist
/-!
How a run ends. Main statement: what is refused ends a run before anything has happened, what
happens to units and records never ends it, and whatever the end, documents and directories are left
as they have to be (`runWith_orderly`).
-/
namespace CaseHarvest.Harvest

open FileTree (locate way)

variable (engine : Engine) (machine : Machine) (settings : Settings) (running : machine.Running)
  (files : FileTree) (inputs : List String) (executable : String)

/-- The units that a run takes. -/
def units : List String :=
  (selectUnits files machine.workingDir settings.irExtension inputs).1

/-- The output directories of a run. -/
def dirs : List String :=
  outputDirs settings.outputDirPrefix 0 (units machine settings files inputs)

/-- The session of a run that gets as far as running its engine. -/
def session : Session machine.Running :=
  Session.runUnits engine machine settings executable ⟨files, running, [], [], []⟩ 0
    (units machine settings files inputs)

/-- The files of such a run when its session has been closed and no document has been written. -/
def closedFiles : FileTree :=
  ((session engine machine settings running files inputs executable).close machine.workingDir).1

/-- The suite that a session's records make. -/
def suiteOf (session : Session machine.Running) : TestSuite :=
  TestSuite.assemble (Record.dedup (gatherRecords session.files machine.workingDir
    settings.maxVersion session.allRecordFiles).1) settings.suite

variable {engine machine settings running files inputs executable}

/-- What putting a session's suite in place comes to. -/
def written (machine : Machine) (settings : Settings) (s : Session machine.Running) :
    FileTree × Except SuiteError Unit :=
  TestSuite.persist (s.close machine.workingDir).1 machine.workingDir machine.device
    settings.output (suiteOf machine settings s)

/-- The report on a session whose suite has been put in place. -/
def reportOn (machine : Machine) (settings : Settings) (skipped : List SkippedInput)
    (s : Session machine.Running) : RunReport :=
  let gathered := gatherRecords s.files machine.workingDir settings.maxVersion s.allRecordFiles
  { startedAt := machine.clock.startedAt
    finishedAt := machine.clock.finishedAt
    skipped
    units := s.units
    recordsFound := s.allRecordFiles.length
    recordsDecoded := gathered.1.length
    failures := gathered.2
    duplicatesRemoved := gathered.1.length - (Record.dedup gathered.1).length
    testCases := (suiteOf machine settings s).testCases.length
    output := settings.output }

/-- Behind a session only putting its suite in place can fail. -/
theorem finish_eq (skipped : List SkippedInput) (s : Session machine.Running) :
    (finish machine settings skipped s).files = (written machine settings s).1
      ∧ (finish machine settings skipped s).result
          = ((written machine settings s).2.mapError HarvestError.suite).map fun _ =>
              reportOn machine settings skipped s := by
  unfold finish written suiteOf reportOn
  simp only
  generalize TestSuite.persist _ _ _ _ _ = outcome
  obtain ⟨files, result⟩ := outcome
  cases result with
  | error e => exact ⟨rfl, rfl⟩
  | ok u => exact ⟨rfl, rfl⟩

theorem runWith_of_invalid {e : SettingsError} (h : settings.validate = .error e) :
    runWith engine machine settings running files inputs
      = ⟨files, running, [], .error (.settings e)⟩ := by
  unfold runWith
  rw [h]

theorem runWith_of_unlocated {e : EngineError} (hvalid : settings.validate = .ok ())
    (h : engine.locate machine files = .error e) :
    runWith engine machine settings running files inputs
      = ⟨files, running, (selectUnits files machine.workingDir settings.irExtension inputs).2.map
          (SkippedInput.notice settings.irExtension), .error (.engine e)⟩ := by
  unfold runWith Session.execute
  rw [hvalid, h]
  rfl

theorem runWith_of_located (hvalid : settings.validate = .ok ())
    (h : engine.locate machine files = .ok executable) :
    (runWith engine machine settings running files inputs).files
        = (written machine settings
            (session engine machine settings running files inputs executable)).1
      ∧ (runWith engine machine settings running files inputs).result
          = ((written machine settings (session engine machine settings running files inputs
              executable)).2.mapError HarvestError.suite).map fun _ =>
                reportOn machine settings
                  (selectUnits files machine.workingDir settings.irExtension inputs).2
                  (session engine machine settings running files inputs executable) := by
  unfold runWith Session.execute
  rw [hvalid, h]
  exact finish_eq _ _

variable (engine machine settings running files inputs)

/-- The four ends of a run. -/
theorem runWith_cases :
    (∃ e, settings.validate = .error e
        ∧ (runWith engine machine settings running files inputs).result = .error (.settings e))
      ∨ (∃ e, settings.validate = .ok () ∧ engine.locate machine files = .error e
        ∧ (runWith engine machine settings running files inputs).result = .error (.engine e))
      ∨ (∃ executable e, settings.validate = .ok () ∧ engine.locate machine files = .ok executable
        ∧ (written machine settings
            (session engine machine settings running files inputs executable)).2 = .error e
        ∧ (runWith engine machine settings running files inputs).result = .error (.suite e))
      ∨ (∃ executable, settings.validate = .ok ()
        ∧ engine.locate machine files = .ok executable
        ∧ (written machine settings
            (session engine machine settings running files inputs executable)).2 = .ok ()
        ∧ (runWith engine machine settings running files inputs).result
          = .ok (reportOn machine settings
              (selectUnits files machine.workingDir settings.irExtension inputs).2
              (session engine machine settings running files inputs executable))) := by
  cases hvalid : settings.validate with
  | error e =>
    rw [runWith_of_invalid hvalid]
    exact .inl ⟨e, rfl, rfl⟩
  | ok u =>
    cases hlocate : engine.locate machine files with
    | error e =>
      rw [runWith_of_unlocated hvalid hlocate]
      exact .inr (.inl ⟨e, rfl, rfl, rfl⟩)
    | ok executable =>
      have hresult : (runWith engine machine settings running files inputs).result = _ :=
        (runWith_of_located hvalid hlocate).2
      cases hw : (written machine settings
          (session engine machine settings running files inputs executable)).2 with
      | error e =>
        rw [hw] at hresult
        exact .inr (.inr (.inl ⟨executable, e, rfl, rfl, hw, hresult⟩))
      | ok u =>
        rw [hw] at hresult
        exact .inr (.inr (.inr ⟨executable, rfl, rfl, hw, hresult⟩))

/-- What putting a suite in place comes to once the session has been closed. -/
def placing (executable : String) (suite : TestSuite) : Except SuiteError Unit :=
  (TestSuite.persist (closedFiles engine machine settings running files inputs executable)
    machine.workingDir machine.device settings.output suite).2

variable {engine machine settings running files inputs}

/-- One suite can be put in place exactly if all can. -/
theorem placing_iff {executable : String} {outcome : Except SuiteError Unit} :
    (∀ suite, placing engine machine settings running files inputs executable suite = outcome)
      ↔ (written machine settings
          (session engine machine settings running files inputs executable)).2 = outcome :=
  ⟨fun h => h _, fun h _ => (TestSuite.persist_outcome _ _).trans h⟩

theorem result_settings_iff (e : SettingsError) :
    (runWith engine machine settings running files inputs).result = .error (.settings e)
      ↔ settings.validate = .error e := by
  rcases runWith_cases engine machine settings running files inputs with
    ⟨e', hvalid, hr⟩ | ⟨e', hvalid, -, hr⟩ | ⟨_, e', hvalid, -, -, hr⟩ | ⟨_, hvalid, -, -, hr⟩
  · simp [hvalid, hr]
  · simp [hvalid, hr]
  · simp [hvalid, hr]
  · simp [hvalid, hr]

theorem result_engine_iff (e : EngineError) :
    (runWith engine machine settings running files inputs).result = .error (.engine e)
      ↔ settings.validate = .ok () ∧ engine.locate machine files = .error e := by
  rcases runWith_cases engine machine settings running files inputs with
    ⟨e', hvalid, hr⟩ | ⟨e', hvalid, hlocate, hr⟩ | ⟨_, e', hvalid, hlocate, -, hr⟩
      | ⟨_, hvalid, hlocate, -, hr⟩
  · simp [hvalid, hr]
  · simp [hvalid, hlocate, hr]
  · simp [hvalid, hlocate, hr]
  · simp [hvalid, hlocate, hr]

theorem result_suite_iff (e : SuiteError) :
    (runWith engine machine settings running files inputs).result = .error (.suite e)
      ↔ settings.validate = .ok () ∧ ∃ executable, engine.locate machine files = .ok executable
        ∧ ∀ suite, placing engine machine settings running files inputs executable suite
          = .error e := by
  simp only [placing_iff]
  rcases runWith_cases engine machine settings running files inputs with
    ⟨e', hvalid, hr⟩ | ⟨e', hvalid, hlocate, hr⟩ | ⟨_, e', hvalid, hlocate, hw, hr⟩
      | ⟨_, hvalid, hlocate, hw, hr⟩
  · simp [hvalid, hr]
  · simp [hvalid, hlocate, hr]
  · simp [hvalid, hlocate, hw, hr]
  · simp [hvalid, hlocate, hw, hr]

theorem result_ok_iff :
    (∃ report, (runWith engine machine settings running files inputs).result = .ok report)
      ↔ settings.validate = .ok () ∧ ∃ executable, engine.locate machine files = .ok executable
        ∧ ∀ suite, placing engine machine settings running files inputs executable suite
          = .ok () := by
  simp only [placing_iff]
  rcases runWith_cases engine machine settings running files inputs with
    ⟨e', hvalid, hr⟩ | ⟨e', hvalid, hlocate, hr⟩ | ⟨_, e', hvalid, hlocate, hw, hr⟩
      | ⟨_, hvalid, hlocate, hw, hr⟩
  · simp [hvalid, hr]
  · simp [hvalid, hlocate, hr]
  · simp [hvalid, hlocate, hw, hr]
  · simp [hvalid, hlocate, hw, hr]

/-- A run was refused before it did anything. -/
def IsRefused (machine : Machine) (harvest : Harvest machine.Running) : Prop :=
  (∃ e, harvest.result = .error (.settings e)) ∨ ∃ e, harvest.result = .error (.engine e)

/-- A run got as far as running its engine. -/
def HasRun (machine : Machine) (harvest : Harvest machine.Running) : Prop :=
  (∃ report, harvest.result = .ok report) ∨ ∃ e, harvest.result = .error (.suite e)

/-- What a run may end in, and what it leaves then. -/
structure EndsOrderly (engine : Engine) (machine : Machine) (settings : Settings)
    (running : machine.Running) (files : FileTree) (inputs : List String)
    (harvest : Harvest machine.Running) : Prop where
  invalid : ∀ e, harvest.result = .error (.settings e) ↔ settings.validate = .error e
  unlocated : ∀ e, harvest.result = .error (.engine e)
    ↔ settings.validate = .ok () ∧ engine.locate machine files = .error e
  /-- Behind these only putting a document in place can fail, and then it does so for any document:
  no unit, record or skipped input makes a difference. -/
  unwritten : ∀ e, harvest.result = .error (.suite e)
    ↔ settings.validate = .ok () ∧ ∃ executable, engine.locate machine files = .ok executable
      ∧ ∀ suite, placing engine machine settings running files inputs executable suite = .error e
  reported : (∃ report, harvest.result = .ok report)
    ↔ settings.validate = .ok () ∧ ∃ executable, engine.locate machine files = .ok executable
      ∧ ∀ suite, placing engine machine settings running files inputs executable suite = .ok ()
  untouched : IsRefused machine harvest → harvest.files = files ∧ harvest.running = running
  /-- What starting a command would lead to makes no difference to a refused run, unless the search
  for the executable depends on it. -/
  unstarted : IsRefused machine harvest →
    ∀ launch, engine.locate { machine with launch } files = engine.locate machine files →
      runWith engine { machine with launch } settings running files inputs = harvest
  /-- Where a document cannot be put in place, there is what there was before the run. -/
  document : (∃ e, harvest.result = .error (.suite e)) →
    harvest.files.lookup (locate machine.workingDir settings.output)
      = files.lookup (locate machine.workingDir settings.output)
  paths : HasRun machine harvest → ∀ dir ∈ dirs machine settings files inputs,
    ¬ ∃ l, harvest.files.resolve machine.workingDir dir = .ok l
      ∧ harvest.files.lookup l = some .directory
  /-- Where the paths were meant to lead, no directory is left either, if each directory that stands
  there can be removed. -/
  places : HasRun machine harvest →
    ∀ executable, engine.locate machine files = .ok executable →
      let s := session engine machine settings running files inputs executable
      Session.RemovesDirectories machine.workingDir s.files s.dirs →
      ∀ dir ∈ dirs machine settings files inputs,
        harvest.files.lookup (locate machine.workingDir dir) ≠ some .directory

theorem mem_session_dirs {dir : String} :
    dir ∈ (session engine machine settings running files inputs executable).dirs
      ↔ dir ∈ dirs machine settings files inputs := by
  unfold session dirs
  rw [Session.mem_dirs_runUnits]
  simp

theorem session_dirs_ne_root (dir : String)
    (h : dir ∈ (session engine machine settings running files inputs executable).dirs) :
    locate machine.workingDir dir ≠ [] :=
  locate_outputDirs_ne_root (mem_session_dirs.1 h)

/-- A run whose engine has run was not refused. -/
theorem located_of_hasRun
    (h : HasRun machine (runWith engine machine settings running files inputs)) :
    settings.validate = .ok () ∧ ∃ executable, engine.locate machine files = .ok executable := by
  rcases h with ⟨report, h⟩ | ⟨e, h⟩
  · obtain ⟨hvalid, executable, hlocate, -⟩ := result_ok_iff.1 ⟨report, h⟩
    exact ⟨hvalid, executable, hlocate⟩
  · obtain ⟨hvalid, executable, hlocate, -⟩ := (result_suite_iff e).1 h
    exact ⟨hvalid, executable, hlocate⟩

/-- The directories that a run leaves are those that stand when its session has been closed. -/
theorem directory_of_hasRun
    (h : HasRun machine (runWith engine machine settings running files inputs))
    (hlocate : engine.locate machine files = .ok executable) (l : Location) :
    (runWith engine machine settings running files inputs).files.lookup l = some .directory
      ↔ (closedFiles engine machine settings running files inputs executable).lookup l
        = some .directory := by
  rw [(runWith_of_located (located_of_hasRun h).1 hlocate).1]
  exact TestSuite.persist_directory_iff l

/-- No directory is left at the end of an output directory's path. -/
theorem no_directory_at_path
    (h : HasRun machine (runWith engine machine settings running files inputs)) {dir : String}
    (hdir : dir ∈ dirs machine settings files inputs) :
    ¬ ∃ l, (runWith engine machine settings running files inputs).files.resolve
          machine.workingDir dir = .ok l
        ∧ (runWith engine machine settings running files inputs).files.lookup l
          = some .directory := by
  obtain ⟨-, executable, hlocate⟩ := located_of_hasRun h
  have hclosed : ¬ ∃ l, (closedFiles engine machine settings running files inputs
        executable).resolve machine.workingDir dir = .ok l
      ∧ (closedFiles engine machine settings running files inputs executable).lookup l
        = some .directory :=
    Session.removeAll_path session_dirs_ne_root (mem_session_dirs.2 hdir)
  rw [FileTree.resolve_directory_iff] at hclosed ⊢
  simpa only [directory_of_hasRun h hlocate] using hclosed

/-- Outside all output directories a session that has been closed leaves what it found, but for what may
be touched by what ran before. -/
theorem closedFiles_of_outside {touches : machine.Running → Location → Prop}
    (hcontained : engine.Contained machine touches) {l : Location}
    (hl : ∀ dir ∈ dirs machine settings files inputs, ¬ locate machine.workingDir dir <+: l)
    (htouches : ¬ touches running l) :
    (closedFiles engine machine settings running files inputs executable).lookup l
      = files.lookup l := by
  unfold closedFiles Session.close
  rw [Session.lookup_removeAll_of_outside fun dir hdir => hl dir (mem_session_dirs.1 hdir)]
  exact Session.lookup_runUnits_of_outside hcontained _ _ _ hl htouches

/-- A run that is refused is over at once. -/
theorem runWith_of_refused
    (h : IsRefused machine (runWith engine machine settings running files inputs)) :
    (runWith engine machine settings running files inputs).files = files
      ∧ (runWith engine machine settings running files inputs).running = running
      ∧ ∀ launch, engine.locate { machine with launch } files = engine.locate machine files →
        runWith engine { machine with launch } settings running files inputs
          = runWith engine machine settings running files inputs := by
  simp only [IsRefused, result_settings_iff, result_engine_iff] at h
  rcases h with ⟨e, hvalid⟩ | ⟨e, hvalid, hlocate⟩
  · rw [runWith_of_invalid hvalid]
    exact ⟨rfl, rfl, fun _ _ => runWith_of_invalid hvalid⟩
  · rw [runWith_of_unlocated hvalid hlocate]
    exact ⟨rfl, rfl, fun _ hsame => runWith_of_unlocated hvalid (hsame.trans hlocate)⟩

/-- **A run ends in order.** Only settings, the search for the engine and putting the document in place
can fail it; a refused run has done nothing, a document that cannot be put in place leaves what stood there,
and no output directory is left. Engines may leave helpers that go on in the output directories of earlier
units, as long as these and the engines keep to them. A run is looked at up to its last wait. -/
theorem runWith_orderly {touches : machine.Running → Location → Prop}
    (hcontained : engine.Contained machine touches) (hrunning : ∀ l, ¬ touches running l)
    (houtput : ∀ dir ∈ dirs machine settings files inputs,
      ¬ locate machine.workingDir dir <+: locate machine.workingDir settings.output) :
    EndsOrderly engine machine settings running files inputs
      (runWith engine machine settings running files inputs) where
  invalid := result_settings_iff
  unlocated := result_engine_iff
  unwritten := result_suite_iff
  reported := result_ok_iff
  untouched h := ⟨(runWith_of_refused h).1, (runWith_of_refused h).2.1⟩
  unstarted h := (runWith_of_refused h).2.2
  document := by
    rintro ⟨e, he⟩
    obtain ⟨hvalid, executable, hlocate, hplacing⟩ := (result_suite_iff e).1 he
    have hbefore : (closedFiles engine machine settings running files inputs executable).lookup
        (locate machine.workingDir settings.output) = _ :=
      closedFiles_of_outside hcontained houtput (hrunning _)
    rw [(runWith_of_located hvalid hlocate).1, ← hbefore]
    exact TestSuite.persist_error (hplacing _) _
  paths h dir hdir := no_directory_at_path h hdir
  places h executable hlocate := by
    intro s hremoves dir hdir hplace
    exact Session.removeAll_place session_dirs_ne_root hremoves (mem_session_dirs.2 hdir)
      ((directory_of_hasRun h hlocate _).1 hplace)

/-- A run whose engine leaves a directory for one of two units, and whose document cannot be put in
place because a directory is there. -/
theorem runWith_orderly_unwritten :
    let machine := Machine.scripted fun unit => if unit = "a.ll" then some [] else none
    let settings : Settings := { output := "suites" }
    let files := ((FileTree.empty.put ["a.ll"] (.file [] false)).put ["b.ll"]
      (.file [] false)).put ["suites"] .directory
    Engine.scripted.Contained machine (fun _ _ => False)
      ∧ (∀ dir ∈ dirs machine settings files ["a.ll", "b.ll"],
          ¬ locate [] dir <+: locate [] settings.output)
      ∧ (runWith Engine.scripted machine settings () files ["a.ll", "b.ll"]).result.toOption.isNone
      ∧ EndsOrderly Engine.scripted machine settings () files ["a.ll", "b.ll"]
          (runWith Engine.scripted machine settings () files ["a.ll", "b.ll"]) := by
  intro machine settings files
  have hcontained : Engine.scripted.Contained machine fun _ _ => False := (scripted_confined _).contained
  have houtput : ∀ dir ∈ dirs machine settings files ["a.ll", "b.ll"],
      ¬ locate [] dir <+: locate [] settings.output := by decide +kernel
  exact ⟨hcontained, houtput, by decide +kernel, runWith_orderly hcontained (fun _ => id) houtput⟩

end CaseHarvest.Harvest
