import CaseHarvest.Proofs.Files.Walk
import CaseHarvest.Proofs.Settings.Stated
import CaseHarvest.Proofs.Settings.Timeout
/-!
Settings in layers. What is given for a run comes before the environment variable, that before what a file
states, and that before what is usual. Main statements: a command line starts from what its file states
(`start_eq_ok_iff`), unless the file is refused, for one of four reasons (`start_eq_error_iff`); what is given
for a run is put on top (`replace_eq_layered`), unless its time limit is refused (`apply_outcome`).
-/
namespace CaseHarvest

/-- An outcome that refusals and results decide, of which one is there, tells which. -/
theorem outcome_iff {ε α : Type} {x : Except ε α} {refused : ε → Prop} {accepted : α → Prop}
    (hrefused : ∀ e, refused e → x = .error e) (haccepted : ∀ a, accepted a → x = .ok a)
    (hcases : (∃ e, refused e) ∨ ∃ a, accepted a) :
    (∀ a, x = .ok a ↔ accepted a) ∧ ∀ e, x = .error e ↔ refused e := by
  rcases hcases with ⟨e, he⟩ | ⟨a, ha⟩
  · have hx := hrefused e he
    refine ⟨fun a => ⟨fun h => ?_, haccepted a⟩, fun e' => ⟨fun h => ?_, hrefused e'⟩⟩
    · rw [hx] at h
      cases h
    · rw [hx] at h
      cases h
      exact he
  · have hx := haccepted a ha
    refine ⟨fun a' => ⟨fun h => ?_, haccepted a'⟩, fun e => ⟨fun h => ?_, hrefused e⟩⟩
    · rw [hx] at h
      cases h
      exact ha
    · rw [hx] at h
      cases h

namespace Settings

/-- A number of seconds that can be a time limit. -/
def IsLimit (secs : Binary64) : Prop := secs.isFinite ∧ 0 < secs.value

theorem isLimit_iff {secs : Binary64} : IsLimit secs ↔ isUsableTimeout secs := isUsableTimeout_iff.symm

/-- What is stated keeps to the rule for time limits. -/
def IsSound (timeoutSecs : Option Binary64) : Prop := ∀ secs, timeoutSecs = some secs → IsLimit secs

theorem isSound_none : IsSound none := nofun

/-- A rule that holds of what is stated and of what is usual holds of what is taken. -/
theorem IsSound.isLimit_getD {timeoutSecs : Option Binary64} {usual : Binary64} (h : IsSound timeoutSecs)
    (husual : IsLimit usual) : IsLimit (timeoutSecs.getD usual) := by
  cases timeoutSecs with
  | none => exact husual
  | some secs => exact h secs rfl

theorem not_isSound_iff {timeoutSecs : Option Binary64} :
    ¬ IsSound timeoutSecs ↔ ∃ secs, timeoutSecs = some secs ∧ ¬ IsLimit secs := by
  unfold IsSound
  push Not
  rfl

/-- A text states settings, in the notation that the path announces. -/
def TextStates (path text : String) (stated : Stated) : Prop :=
  if Path.extension? path = some "yaml" ∨ Path.extension? path = some "yml" then
    ∃ doc, Yaml.Document.parse? text = some doc ∧ IsStated doc.reader doc.events stated
  else ∃ json, Json.parse? text = some json ∧ IsStated Json.reader json stated

/-- A file states settings. -/
structure FileStates (files : FileTree) (cwd : Location) (path : String) (stated : Stated) : Prop where
  text : ∃ bytes text, files.read cwd path = .ok bytes ∧ bytes.toString? = some text
    ∧ TextStates path text stated

/-- Where there is no file, nothing is stated. -/
def SourceStates (files : FileTree) (cwd : Location) : Option String → Stated → Prop
  | none, stated => stated = {}
  | some path, stated => FileStates files cwd path stated

/-- The layers of a run's settings, each field by itself. An engine variable without a text is none. -/
def layered (o : RunOverrides) (engineVar : Option String) (stated : Stated) : Settings :=
  let usual : Settings := {}
  let suite : SuiteMetadata.Stated := stated.suite.getD {}
  { engine := ((o.engine.or (engineVar.filter (· ≠ ""))).or stated.engine).getD usual.engine
    engineArgs := stated.engineArgs.getD usual.engineArgs
    timeoutSecs := (o.timeoutSecs.or stated.timeoutSecs).getD usual.timeoutSecs
    maxVersion := (o.maxVersion.or stated.maxVersion).getD usual.maxVersion
    output := (o.output.or stated.output).getD usual.output
    irExtension := stated.irExtension.getD usual.irExtension
    recordExtension := stated.recordExtension.getD usual.recordExtension
    outputDirPrefix := stated.outputDirPrefix.getD usual.outputDirPrefix
    suite := {
      description := (o.description.or suite.description).getD usual.suite.description
      funcName := (o.funcName.or suite.funcName).getD usual.suite.funcName
      srcFile := (o.srcFile.or suite.srcFile).getD usual.suite.srcFile } }

/-- Why a file gives no settings. -/
inductive FileRefusal (files : FileTree) (cwd : Location) (path : String) : SettingsError → Prop where
  /-- The file cannot be read. -/
  | unread {fault : Fault} (hread : files.read cwd path = .error fault) :
      FileRefusal files cwd path (.read path fault)
  /-- The file holds no text. -/
  | noText {bytes : Bytes} (hread : files.read cwd path = .ok bytes) (htext : bytes.toString? = none) :
      FileRefusal files cwd path (.read path .notUtf8)
  /-- The text in the file states no settings. -/
  | unparsed {bytes : Bytes} {text : String} (hread : files.read cwd path = .ok bytes)
      (htext : bytes.toString? = some text) (hnone : ∀ stated, ¬ TextStates path text stated) :
      FileRefusal files cwd path (.parse path)
  /-- The file states a time limit that is none. -/
  | invalid {stated : Stated} {secs : Binary64} (hstated : FileStates files cwd path stated)
      (hsecs : stated.timeoutSecs = some secs) (hlimit : ¬ IsLimit secs) :
      FileRefusal files cwd path (.invalidTimeout secs)

variable {files : FileTree} {cwd : Location} {config : Option String} {engineVar : Option String}
  {o : RunOverrides} {path text : String} {stated : Stated} {s t : Settings} {e : SettingsError}

theorem ofText?_eq_some_iff :
    ofText? path text = some s ↔ ∃ stated, TextStates path text stated ∧ s = stated.complete := by
  have hyaml : ((Path.extension? path).any (· ∈ yamlExtensions) : Bool) = true
      ↔ Path.extension? path = some "yaml" ∨ Path.extension? path = some "yml" := by
    cases Path.extension? path <;> simp [yamlExtensions]
  unfold ofText? TextStates
  by_cases h : Path.extension? path = some "yaml" ∨ Path.extension? path = some "yml"
  · simp only [if_pos (hyaml.2 h), if_pos h, ofYaml?, Option.bind_eq_bind, Option.bind_eq_some_iff,
      read_eq_some_iff]
    constructor
    · rintro ⟨doc, hdoc, stated, hstated, hs⟩
      exact ⟨stated, ⟨doc, hdoc, hstated⟩, hs⟩
    · rintro ⟨stated, ⟨doc, hdoc, hstated⟩, hs⟩
      exact ⟨doc, hdoc, stated, hstated, hs⟩
  · simp only [if_neg (fun hy => h (hyaml.1 hy)), if_neg h, ofJson?, Option.bind_eq_bind,
      Option.bind_eq_some_iff, read_eq_some_iff]
    constructor
    · rintro ⟨json, hjson, stated, hstated, hs⟩
      exact ⟨stated, ⟨json, hjson, hstated⟩, hs⟩
    · rintro ⟨stated, ⟨json, hjson, hstated⟩, hs⟩
      exact ⟨json, hjson, stated, hstated, hs⟩

/-! ## Checks -/

theorem validate_of_not_isLimit {secs : Binary64} (hsecs : s.timeoutSecs = secs)
    (hlimit : ¬ IsLimit secs) : s.validate = .error (.invalidTimeout secs) := by
  subst hsecs
  rw [isLimit_iff] at hlimit
  unfold validate
  rw [if_neg hlimit]

theorem isLimit_usual : IsLimit ({} : Settings).timeoutSecs := isLimit_iff.2 (by decide +kernel)

theorem timeoutSecs_complete (stated : Stated) :
    stated.complete.timeoutSecs = stated.timeoutSecs.getD ({} : Settings).timeoutSecs := rfl

/-- Where no limit is stated, the usual one is taken, which passes. -/
theorem validate_complete (h : IsSound stated.timeoutSecs) : stated.complete.validate = .ok () := by
  rw [validate_eq_ok_iff, timeoutSecs_complete]
  exact h.isLimit_getD isLimit_usual

theorem validate_complete_of_not_isLimit {secs : Binary64} (hsecs : stated.timeoutSecs = some secs)
    (hlimit : ¬ IsLimit secs) : stated.complete.validate = .error (.invalidTimeout secs) := by
  apply validate_of_not_isLimit _ hlimit
  rw [timeoutSecs_complete, hsecs, Option.getD_some]

/-! ## Files -/

section Load

variable {bytes : Bytes}

theorem load_of_unread {fault : Fault} (hread : files.read cwd path = .error fault) :
    load files cwd path = .error (.read path fault) := by
  unfold load
  rw [hread]
  rfl

theorem load_of_noText (hread : files.read cwd path = .ok bytes) (htext : bytes.toString? = none) :
    load files cwd path = .error (.read path .notUtf8) := by
  unfold load
  rw [hread]
  simp only [Except.mapError, bind, Except.bind, htext]
  rfl

theorem load_of_text (hread : files.read cwd path = .ok bytes) (htext : bytes.toString? = some text) :
    load files cwd path = match ofText? path text with
      | none => .error (.parse path)
      | some s => s.validate.map fun _ => s := by
  unfold load
  rw [hread]
  simp only [Except.mapError, bind, Except.bind, htext]
  cases ofText? path text with
  | none => rfl
  | some s =>
    simp only
    cases s.validate <;> rfl

theorem load_of_unparsed (hread : files.read cwd path = .ok bytes) (htext : bytes.toString? = some text)
    (hnone : ∀ stated, ¬ TextStates path text stated) : load files cwd path = .error (.parse path) := by
  have hof : ofText? path text = none := by
    rw [Option.eq_none_iff_forall_not_mem]
    intro s hs
    obtain ⟨stated, hstated, -⟩ := ofText?_eq_some_iff.1 hs
    exact hnone stated hstated
  rw [load_of_text hread htext, hof]

/-- What a file states is checked. -/
theorem load_of_stated (h : FileStates files cwd path stated) :
    load files cwd path = stated.complete.validate.map fun _ => stated.complete := by
  obtain ⟨bytes, text, hread, htext, hstated⟩ := h
  rw [load_of_text hread htext, ofText?_eq_some_iff.2 ⟨stated, hstated, rfl⟩]

theorem load_of_sound (h : FileStates files cwd path stated) (hsound : IsSound stated.timeoutSecs) :
    load files cwd path = .ok stated.complete := by
  rw [load_of_stated h, validate_complete hsound]
  rfl

theorem FileRefusal.load_eq (h : FileRefusal files cwd path e) : load files cwd path = .error e := by
  cases h with
  | unread hread => exact load_of_unread hread
  | noText hread htext => exact load_of_noText hread htext
  | unparsed hread htext hnone => exact load_of_unparsed hread htext hnone
  | invalid hstated hsecs hlimit =>
    rw [load_of_stated hstated, validate_complete_of_not_isLimit hsecs hlimit]
    rfl

/-- A file is refused, or it states settings that pass. -/
theorem refused_or_stated (files : FileTree) (cwd : Location) (path : String) :
    (∃ e, FileRefusal files cwd path e)
      ∨ ∃ stated, FileStates files cwd path stated ∧ IsSound stated.timeoutSecs := by
  cases hread : files.read cwd path with
  | error fault => exact .inl ⟨_, .unread hread⟩
  | ok bytes =>
  cases htext : bytes.toString? with
  | none => exact .inl ⟨_, .noText hread htext⟩
  | some text =>
  by_cases hnone : ∀ stated, ¬ TextStates path text stated
  · exact .inl ⟨_, .unparsed hread htext hnone⟩
  · push Not at hnone
    obtain ⟨stated, hstated⟩ := hnone
    have hfile : FileStates files cwd path stated := ⟨bytes, text, hread, htext, hstated⟩
    by_cases hsound : IsSound stated.timeoutSecs
    · exact .inr ⟨stated, hfile, hsound⟩
    · obtain ⟨secs, hsecs, hlimit⟩ := not_isSound_iff.1 hsound
      exact .inl ⟨_, .invalid hfile hsecs hlimit⟩

theorem load_outcome (files : FileTree) (cwd : Location) (path : String) :
    (∀ s, load files cwd path = .ok s
      ↔ ∃ stated, FileStates files cwd path stated ∧ IsSound stated.timeoutSecs ∧ s = stated.complete)
      ∧ ∀ e, load files cwd path = .error e ↔ FileRefusal files cwd path e := by
  apply outcome_iff
  · exact fun e he => he.load_eq
  · rintro s ⟨stated, hstated, hsound, rfl⟩
    exact load_of_sound hstated hsound
  · rcases refused_or_stated files cwd path with hrefused | ⟨stated, hstated, hsound⟩
    · exact .inl hrefused
    · exact .inr ⟨_, stated, hstated, hsound, rfl⟩

end Load

/-! ## Layers -/

theorem withEngineVariable_eq (s : Settings) (engineVar : Option String) :
    s.withEngineVariable engineVar
      = { s with engine := (engineVar.filter (· ≠ "")).getD s.engine } := by
  unfold withEngineVariable
  cases engineVar with
  | none => rfl
  | some engine =>
    simp only
    split
    · rename_i h
      rw [h]
      rfl
    · rename_i h
      rw [Option.filter_some_pos (by simpa using h)]
      rfl

/-- A suite of which something is stated is completed; of the others nothing is. -/
theorem suite_complete (stated : Stated) :
    stated.complete.suite = (stated.suite.getD {}).complete := by
  unfold Stated.complete
  cases stated.suite <;> rfl

/-- What is given for a run, over the engine variable, over what is stated. -/
theorem replace_eq_layered (o : RunOverrides) (engineVar : Option String) (stated : Stated) :
    o.replace (stated.complete.withEngineVariable engineVar) = layered o engineVar stated := by
  rw [withEngineVariable_eq]
  unfold RunOverrides.replace layered
  simp only [Option.getD_or, suite_complete]
  rfl

theorem start_eq_ok_iff :
    start files cwd config engineVar = .ok s
      ↔ ∃ stated, SourceStates files cwd config stated ∧ IsSound stated.timeoutSecs
        ∧ s = stated.complete.withEngineVariable engineVar := by
  unfold start
  cases config with
  | none =>
    constructor
    · intro h
      exact ⟨{}, rfl, isSound_none, (Except.ok.inj h).symm⟩
    · rintro ⟨stated, rfl, -, rfl⟩
      rfl
  | some path =>
    constructor
    · intro h
      obtain ⟨loaded, hload, h⟩ := bind_eq_ok_iff.1 h
      obtain ⟨stated, hstated, hsound, rfl⟩ := ((load_outcome files cwd path).1 loaded).1 hload
      exact ⟨stated, hstated, hsound, (Except.ok.inj h).symm⟩
    · rintro ⟨stated, hstated, hsound, rfl⟩
      exact bind_eq_ok_iff.2 ⟨_, load_of_sound hstated hsound, rfl⟩

/-- Without a file nothing is refused at the start. -/
theorem start_eq_error_iff :
    start files cwd config engineVar = .error e
      ↔ ∃ path, config = some path ∧ FileRefusal files cwd path e := by
  unfold start
  cases config with
  | none => exact ⟨nofun, fun ⟨_, h, _⟩ => nomatch h⟩
  | some path =>
    simp only [Option.some.injEq, exists_eq_left']
    rw [← (load_outcome files cwd path).2]
    cases load files cwd path with
    | error e' => exact Iff.rfl
    | ok loaded => exact ⟨nofun, nofun⟩

theorem timeoutSecs_replace (o : RunOverrides) (s : Settings) :
    (o.replace s).timeoutSecs = o.timeoutSecs.getD s.timeoutSecs := rfl

theorem apply_of_sound (h : IsSound o.timeoutSecs) : o.apply s = .ok (o.replace s) := by
  unfold RunOverrides.apply
  cases hsecs : o.timeoutSecs with
  | none => rfl
  | some secs =>
    have hvalid : (o.replace s).validate = .ok () := by
      rw [validate_eq_ok_iff, timeoutSecs_replace, hsecs]
      exact h secs hsecs
    rw [hvalid]
    rfl

theorem apply_of_not_isLimit {secs : Binary64} (hsecs : o.timeoutSecs = some secs)
    (hlimit : ¬ IsLimit secs) : o.apply s = .error (.invalidTimeout secs) := by
  have hinvalid : (o.replace s).validate = .error (.invalidTimeout secs) := by
    apply validate_of_not_isLimit _ hlimit
    rw [timeoutSecs_replace, hsecs, Option.getD_some]
  unfold RunOverrides.apply
  rw [hinvalid, hsecs]
  rfl

theorem apply_outcome (o : RunOverrides) (s : Settings) :
    (∀ t, o.apply s = .ok t ↔ IsSound o.timeoutSecs ∧ t = o.replace s)
      ∧ ∀ e, o.apply s = .error e
        ↔ ∃ secs, o.timeoutSecs = some secs ∧ ¬ IsLimit secs ∧ e = .invalidTimeout secs := by
  apply outcome_iff
  · rintro e ⟨secs, hsecs, hlimit, rfl⟩
    exact apply_of_not_isLimit hsecs hlimit
  · rintro t ⟨hsound, rfl⟩
    exact apply_of_sound hsound
  · by_cases hsound : IsSound o.timeoutSecs
    · exact .inr ⟨_, hsound, rfl⟩
    · obtain ⟨secs, hsecs, hlimit⟩ := not_isSound_iff.1 hsound
      exact .inl ⟨_, secs, hsecs, hlimit, rfl⟩

/-- What comes of limits that pass on each layer passes. -/
theorem validate_layered (hstated : IsSound stated.timeoutSecs) (hgiven : IsSound o.timeoutSecs) :
    (layered o engineVar stated).validate = .ok () := by
  have htimeout : (layered o engineVar stated).timeoutSecs
      = o.timeoutSecs.getD (stated.timeoutSecs.getD ({} : Settings).timeoutSecs) := Option.getD_or
  rw [validate_eq_ok_iff, htimeout]
  exact hgiven.isLimit_getD (hstated.isLimit_getD isLimit_usual)

end Settings

end CaseHarvest
