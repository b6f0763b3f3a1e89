import CaseHarvest.CommandLine.Run
import CaseHarvest.Proofs.Harvest.Outcome
import CaseHarvest.Proofs.Settings.Layers
/-!
The settings of a command line's run. Main statement: a run starts with settings that have passed the check,
each of them from the first layer that has it, or it does not start, and then the file or the time limit on
the command line is to blame (`run_settles`).
-/
namespace CaseHarvest.CommandLine

open Settings (SourceStates IsSound IsLimit FileRefusal layered)

/-- The settings with which a run starts. -/
def settingsFor (files : FileTree) (cwd : Location) (config : Option String) (env : Environment)
    (o : RunOverrides) : Except (List String) Settings :=
  settingsOf files cwd config env >>= overridden o

/-- Why a run does not start. -/
inductive Refusal (files : FileTree) (cwd : Location) (config : Option String) (o : RunOverrides) :
    List String → Prop where
  | file {path : String} {e : SettingsError} (hconfig : config = some path)
      (hfile : FileRefusal files cwd path e) :
      Refusal files cwd config o (("Failed to load config from " ++ path) :: e.chain)
  | timeout {stated : Settings.Stated} {secs : Binary64} (hstated : SourceStates files cwd config stated)
      (hsound : IsSound stated.timeoutSecs) (hsecs : o.timeoutSecs = some secs)
      (hlimit : ¬ IsLimit secs) :
      Refusal files cwd config o
        (("Invalid --timeout-secs " ++ secs.text) :: (SettingsError.invalidTimeout secs).chain)

/-- The failure that a run ends in, from the outside inwards. A report that is asked for as a document may
fail to become one. -/
def failureOf (machine : Machine) (json : Bool) : Except HarvestError RunReport → List String
  | .ok report => if json && !report.paths.all machine.isUnicode then notUnicode "run report" else []
  | .error e => "Test suite generation failed" :: e.chain

section Settles

variable {files : FileTree} {cwd : Location} {config : Option String} {env : Environment}
  {o : RunOverrides} {s : Settings} {failure : List String}

theorem settingsFor_eq_ok_iff :
    settingsFor files cwd config env o = .ok s
      ↔ ∃ stated, SourceStates files cwd config stated ∧ IsSound stated.timeoutSecs
        ∧ IsSound o.timeoutSecs ∧ s = layered o env.engine stated := by
  unfold settingsFor settingsOf overridden
  rw [bind_eq_ok_iff]
  simp only [mapError_eq_ok_iff]
  constructor
  · rintro ⟨started, hstart, happly⟩
    obtain ⟨stated, hstated, hsound, rfl⟩ := Settings.start_eq_ok_iff.1 hstart
    obtain ⟨hgiven, rfl⟩ := ((Settings.apply_outcome o _).1 s).1 happly
    exact ⟨stated, hstated, hsound, hgiven, Settings.replace_eq_layered o env.engine stated⟩
  · rintro ⟨stated, hstated, hsound, hgiven, rfl⟩
    refine ⟨_, Settings.start_eq_ok_iff.2 ⟨stated, hstated, hsound, rfl⟩, ?_⟩
    exact ((Settings.apply_outcome o _).1 _).2
      ⟨hgiven, (Settings.replace_eq_layered o env.engine stated).symm⟩

theorem Refusal.settingsFor_eq (h : Refusal files cwd config o failure) :
    settingsFor files cwd config env o = .error failure := by
  unfold settingsFor settingsOf overridden
  cases h with
  | file hconfig hfile =>
    rw [Settings.start_eq_error_iff.2 ⟨_, hconfig, hfile⟩, hconfig]
    rfl
  | timeout hstated hsound hsecs hlimit =>
    rw [Settings.start_eq_ok_iff.2 ⟨_, hstated, hsound, rfl⟩]
    simp only [Except.mapError, bind, Except.bind]
    rw [Settings.apply_of_not_isLimit hsecs hlimit, hsecs]
    rfl

/-- A run is refused, or it has settings. -/
theorem refused_or_settled (files : FileTree) (cwd : Location) (config : Option String)
    (env : Environment) (o : RunOverrides) :
    (∃ failure, Refusal files cwd config o failure)
      ∨ ∃ s, settingsFor files cwd config env o = .ok s := by
  cases hstart : Settings.start files cwd config env.engine with
  | error e =>
    obtain ⟨path, hconfig, hfile⟩ := Settings.start_eq_error_iff.1 hstart
    exact .inl ⟨_, .file hconfig hfile⟩
  | ok started =>
    obtain ⟨stated, hstated, hsound, -⟩ := Settings.start_eq_ok_iff.1 hstart
    by_cases hgiven : IsSound o.timeoutSecs
    · exact .inr ⟨_, settingsFor_eq_ok_iff.2 ⟨stated, hstated, hsound, hgiven, rfl⟩⟩
    · obtain ⟨secs, hsecs, hlimit⟩ := Settings.not_isSound_iff.1 hgiven
      exact .inl ⟨_, .timeout hstated hsound hsecs hlimit⟩

theorem settingsFor_eq_error_iff :
    settingsFor files cwd config env o = .error failure ↔ Refusal files cwd config o failure :=
  (outcome_iff (fun _ hrefused => hrefused.settingsFor_eq) (fun _ hs => hs)
    (refused_or_settled files cwd config env o)).2 failure

theorem validate_settingsFor (h : settingsFor files cwd config env o = .ok s) : s.validate = .ok () := by
  obtain ⟨stated, -, hsound, hgiven, rfl⟩ := settingsFor_eq_ok_iff.1 h
  exact Settings.validate_layered hsound hgiven

end Settles

section Obey

variable (machine : Machine) (env : Environment) (running : machine.Running) (files : FileTree)
  (verbose quiet : Bool) (config : Option String) (inputs : List String) (o : RunOverrides) (json : Bool)

/-- What a command line leaves is what a run leaves. -/
structure EndsAs (result : Result machine.Running) (harvest : Harvest machine.Running) : Prop where
  files : result.files = harvest.files
  running : result.running = harvest.running
  failure : result.failure = failureOf machine json harvest.result
  exitCode : result.exitCode = if (failureOf machine json harvest.result).isEmpty then 0 else 1

/-- How a run comes to its settings, and what follows for it. -/
structure Settles (result : Result machine.Running) : Prop where
  /-- There are settings if the file states them and all time limits are such, and then they are layered. -/
  settled : ∀ s, settingsFor files machine.workingDir config env o = .ok s
    ↔ ∃ stated, SourceStates files machine.workingDir config stated ∧ IsSound stated.timeoutSecs
      ∧ IsSound o.timeoutSecs ∧ s = layered o env.engine stated
  refused : ∀ failure, settingsFor files machine.workingDir config env o = .error failure
    ↔ Refusal files machine.workingDir config o failure
  /-- Settings have passed the check, which no run therefore fails. -/
  valid : ∀ s, settingsFor files machine.workingDir config env o = .ok s → s.validate = .ok ()
  accepted : ∀ s, settingsFor files machine.workingDir config env o = .ok s →
    ∀ (machine : Machine) (running : machine.Running) (files : FileTree) (inputs : List String) e,
      (Harvest.run machine s running files inputs).result ≠ .error (.settings e)
  starts : ∀ s, settingsFor files machine.workingDir config env o = .ok s →
    EndsAs machine json result (Harvest.run machine s running files inputs)
  /-- Without settings nothing is done. -/
  stops : ∀ failure, settingsFor files machine.workingDir config env o = .error failure →
    result = { files, running, exitCode := 1, failure }

variable {machine env running files verbose quiet config inputs o json}

theorem run_of_settled {base s : Settings} (h : overridden o base = .ok s) :
    (run machine base running files inputs o json).files
        = (Harvest.run machine s running files inputs).files
      ∧ (run machine base running files inputs o json).running
        = (Harvest.run machine s running files inputs).running
      ∧ (run machine base running files inputs o json).failure
        = failureOf machine json (Harvest.run machine s running files inputs).result := by
  simp only [run, h]
  generalize Harvest.run machine s running files inputs = harvest
  cases harvest.result with
  | error e => exact ⟨rfl, rfl, rfl⟩
  | ok report =>
    cases json with
    | false => exact ⟨rfl, rfl, rfl⟩
    | true => cases hpaths : report.paths.all machine.isUnicode <;> simp [failureOf, hpaths]

theorem obey_run_of_settled {s : Settings}
    (h : settingsFor files machine.workingDir config env o = .ok s) :
    EndsAs machine json (obey machine env running files ⟨verbose, quiet, config, .run inputs o json⟩)
      (Harvest.run machine s running files inputs) := by
  obtain ⟨base, hbase, hover⟩ := bind_eq_ok_iff.1 h
  obtain ⟨hfiles, hrunning, hfailure⟩ := run_of_settled hover
  unfold obey perform
  rw [hbase]
  exact ⟨hfiles, hrunning, hfailure, by rw [← hfailure]⟩

theorem obey_run_of_refused {failure : List String}
    (h : Refusal files machine.workingDir config o failure) :
    obey machine env running files ⟨verbose, quiet, config, .run inputs o json⟩
      = { files, running, exitCode := 1, failure } := by
  have hfailure : settingsFor files machine.workingDir config env o = .error failure := h.settingsFor_eq
  have hsome : failure.isEmpty = false := by cases h <;> rfl
  unfold settingsFor at hfailure
  unfold obey perform run
  cases hbase : settingsOf files machine.workingDir config env with
  | error unsettled =>
    rw [hbase] at hfailure
    cases hfailure
    rfl
  | ok base =>
    rw [hbase] at hfailure
    have hover : overridden o base = .error failure := hfailure
    simp only [hover, hsome]
    rfl

end Obey

/-- **A run starts with layered settings that have passed the check.** Each is the one that is given for the
run, or for the engine the one of the environment variable if that has a text, or the one that the file
states, or the usual one. There are none only if the file cannot be read, states no settings or a time limit
that is none, or if the time limit that is given for the run is none; then nothing is done. -/
theorem run_settles (machine : Machine) (env : Environment) (running : machine.Running)
    (files : FileTree) (verbose quiet : Bool) (config : Option String) (inputs : List String)
    (o : RunOverrides) (json : Bool) :
    Settles machine env running files config inputs o json
      (obey machine env running files ⟨verbose, quiet, config, .run inputs o json⟩) where
  settled s := settingsFor_eq_ok_iff
  refused failure := settingsFor_eq_error_iff
  valid s h := validate_settingsFor h
  accepted s h machine running files inputs e := by
    intro hresult
    have hinvalid := (Harvest.result_settings_iff e).1 hresult
    rw [validate_settingsFor h] at hinvalid
    cases hinvalid
  starts s h := obey_run_of_settled h
  stops failure h := obey_run_of_refused (settingsFor_eq_error_iff.1 h)

/-- A file that states an engine, a time limit and the highest version. -/
def engineFile : FileTree :=
  FileTree.empty.put ["c.json"]
    (.file "\x7b\"engine\": \"a\", \"timeout_secs\": 60, \"max_version\": 2\x7d".toUTF8.toList false)

/-- Settings of all layers, and a time limit on the command line that is none. -/
theorem run_settles_from_file :
    let machine := Machine.scripted fun _ => none
    let env : Environment := { engine := some "b" }
    let o : RunOverrides := { output := some "o.json" }
    let started : Settings :=
      { engine := "b", timeoutSecs := .ofNat 60, maxVersion := 2, output := "o.json" }
    settingsFor engineFile [] (some "c.json") env o = .ok started
      ∧ EndsAs machine false (obey machine env () engineFile
          ⟨false, false, some "c.json", .run ["a.ll"] o false⟩)
          (Harvest.run machine started () engineFile ["a.ll"])
      ∧ settingsFor engineFile [] (some "c.json") env { o with timeoutSecs := some (.ofNat 0) }
        = .error ["Invalid --timeout-secs 0",
            "invalid timeout_secs: must be a positive number of seconds, got 0"] := by
  intro machine env o started
  have hstarted : settingsFor engineFile [] (some "c.json") env o = .ok started := by decide +kernel
  have hsettles := run_settles machine env () engineFile false false (some "c.json") ["a.ll"] o false
  exact ⟨hstarted, hsettles.starts started hstarted, by decide +kernel⟩

end CaseHarvest.CommandLine
