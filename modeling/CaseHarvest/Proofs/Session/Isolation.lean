import CaseHarvest.Proofs.Session.Reports
/-!
How the units of a session keep out of one another's way. Main statement: a unit's file stays as it
is until its engine is started, and a record file from when it is registered until the session is
closed, at every moment in between, if no path to it leads through an output directory that is used
meanwhile (`session_isolation`). What a path leads through such a directory to is gone once the
directory has been cleared (`read_of_cleared`), and so a session can take away the file of one of its
own units and the records of another one (`cleared_under_units`).
-/
namespace CaseHarvest

open FileTree (locate way)

/-- A path does not lead through what is at or below any of some directories. -/
def Spares (cwd : Location) (dirs : List String) (path : String) : Prop :=
  ∀ dir ∈ dirs, ∀ l ∈ trail cwd path, ¬ locate cwd dir <+: l

instance (cwd : Location) (dirs : List String) (path : String) : Decidable (Spares cwd dirs path) :=
  inferInstanceAs (Decidable (∀ dir ∈ dirs, ∀ l ∈ trail cwd path, ¬ locate cwd dir <+: l))

/-- A path leads to a regular file with a content. -/
def HoldsFile (files : FileTree) (cwd : Location) (path : String) (content : Bytes) : Prop :=
  files.read cwd path = .ok content
    ∧ ∃ executable, files.lookup (locate cwd path) = some (.file content executable)

instance (files : FileTree) (cwd : Location) (path : String) (content : Bytes) :
    Decidable (HoldsFile files cwd path content) :=
  decidable_of_iff ((files.read cwd path).toOption = some content
      ∧ (files.lookup (locate cwd path) = some (.file content true)
        ∨ files.lookup (locate cwd path) = some (.file content false)))
    (and_congr (toOption_eq_some_iff) (by simp [Bool.exists_bool, or_comm]))

/-- Where nothing on a path's trail has changed, the path leads to the file that it led to. -/
theorem HoldsFile.congr {files files' : FileTree} {cwd : Location} {path : String} {content : Bytes}
    (h : HoldsFile files cwd path content)
    (hsame : ∀ l ∈ trail cwd path, files'.lookup l = files.lookup l) :
    HoldsFile files' cwd path content := by
  obtain ⟨hread, hfile⟩ := h
  have hend := hsame _ (locate_mem_trail cwd path)
  refine ⟨?_, by rwa [hend]⟩
  rw [FileTree.read_eq_ok_iff] at hread ⊢
  obtain ⟨hpath, hway, hcontent⟩ := hread
  refine ⟨hpath, fun p hp => ?_, by rwa [hend]⟩
  rw [hsame p (mem_trail_of_mem_way hp)]
  exact hway p hp

namespace Session

variable {engine : Engine} {machine : Machine} {settings : Settings} {executable : String}
  {touches : machine.Running → Location → Prop}

section Run

variable {s : Session machine.Running} {ordinal : Nat} {units : List String} {files : FileTree}

/-- A path that spares the output directories that are used leads to the same file at each moment. -/
theorem holdsFile_moment {path : String} {content : Bytes}
    (hcontained : engine.Contained machine touches)
    (hfile : HoldsFile s.files machine.workingDir path content)
    (hspares : Spares machine.workingDir (outputDirs settings.outputDirPrefix ordinal units) path)
    (htouches : ∀ l ∈ trail machine.workingDir path, ¬ touches s.running l)
    (h : Moment engine machine settings executable s ordinal units files) :
    HoldsFile files machine.workingDir path content :=
  hfile.congr fun l hl =>
    lookup_moment hcontained h (fun dir hdir => hspares dir hdir l hl) (htouches l hl)

end Run

/-- What is registered for a unit are regular files, to which their paths lead unless these are
refused for their texts. -/
theorem file_of_mem_recordFiles {running : machine.Running} {files : FileTree} {unit dir path : String}
    (h : path ∈ (reportOf engine machine settings executable running files unit dir).recordFiles) :
    let left := (attempt machine settings.timeout running files dir
      (engine.command executable unit dir)).files
    ∃ content executableFile,
      left.lookup (locate machine.workingDir path) = some (.file content executableFile)
        ∧ (FileTree.Followable path → HoldsFile left machine.workingDir path content) := by
  unfold reportOf at h
  simp only at h ⊢
  generalize attempt machine settings.timeout running files dir
    (engine.command executable unit dir) = a at h ⊢
  unfold collect at h
  split at h
  · cases h
  · cases h
  split at h
  · rename_i found hfound
    obtain ⟨entries, hlist, hreturn⟩ := bind_eq_ok_iff.1 hfound
    cases hreturn
    obtain ⟨name, hname, rfl⟩ := List.mem_map.1 h
    obtain ⟨⟨_, entry⟩, hentry, rfl⟩ := List.mem_map.1 (List.mem_mergeSort.1 hname)
    obtain ⟨hmem, hrecord⟩ := List.mem_filter.1 hentry
    obtain ⟨-, hway, hdir, rfl⟩ := FileTree.list_eq_ok_iff.1 hlist
    have hisName := FileTree.isName_of_mem_children hmem
    have hentry := FileTree.mem_children_iff.1 hmem
    rw [← FileTree.locate_join hisName] at hentry
    cases entry with
    | file content executableFile =>
      refine ⟨content, executableFile, hentry, fun hpath => ⟨?_, executableFile, hentry⟩⟩
      refine FileTree.read_eq_ok_iff.2 ⟨hpath, fun p hp => ?_, by rw [hentry]; rfl⟩
      rcases (FileTree.mem_way_join hisName).1 hp with hp | rfl
      · exact hway p hp
      · exact hdir
    | _ => cases hrecord
  · cases h

section Isolation

variable (engine machine settings executable)

/-- The session when its first units have run. -/
def afterUnits (running : machine.Running) (files : FileTree) (before : List String) :
    Session machine.Running :=
  runUnits engine machine settings executable ⟨files, running, [], [], []⟩ 0 before

/-- How a session treats one of its units, which comes behind some and before others. -/
structure IsolatesUnit (touches : machine.Running → Location → Prop) (running : machine.Running)
    (files : FileTree) (before : List String) (unit : String) (later : List String)
    (session : Session machine.Running) : Prop where
  /-- The unit's file is what it was when its engine is started, if its path spares the output
  directories up to its own. -/
  started : ∀ ready content,
    clear (afterUnits engine machine settings executable running files before).files
        machine.workingDir (unitOutputDir settings.outputDirPrefix unit before.length)
      = .ok ready →
    HoldsFile files machine.workingDir unit content →
    Spares machine.workingDir (outputDirs settings.outputDirPrefix 0 (before ++ [unit])) unit →
    HoldsFile ready machine.workingDir unit content
  /-- What is registered are regular files, read by their paths unless these are too long. -/
  registered : ∀ report, session.units[before.length]? = some report → ∀ path ∈ report.recordFiles,
    let s := afterUnits engine machine settings executable running files (before ++ [unit])
    ∃ content executableFile,
      s.files.lookup (locate machine.workingDir path) = some (.file content executableFile)
        ∧ (FileTree.Followable path → HoldsFile s.files machine.workingDir path content)
  /-- A registered file stays what it is at all moments, if its path spares the output directories
  that are used later and nothing that the engine has left running touches it. -/
  kept : ∀ report, session.units[before.length]? = some report → ∀ path ∈ report.recordFiles,
    let s := afterUnits engine machine settings executable running files (before ++ [unit])
    Spares machine.workingDir (outputDirs settings.outputDirPrefix (before.length + 1) later) path →
    (∀ l ∈ trail machine.workingDir path, ¬ touches s.running l) →
    ∀ moment, Moment engine machine settings executable s (before.length + 1) later moment →
      ∀ content, HoldsFile s.files machine.workingDir path content →
        HoldsFile moment machine.workingDir path content
  /-- The last of these moments is the end of the session. -/
  last : Moment engine machine settings executable
    (afterUnits engine machine settings executable running files (before ++ [unit]))
    (before.length + 1) later session.files

variable {engine machine settings executable}

variable {running : machine.Running} {files : FileTree} {before later : List String} {unit : String}

theorem afterUnits_concat :
    afterUnits engine machine settings executable running files (before ++ [unit])
      = runUnit engine machine settings executable
          (afterUnits engine machine settings executable running files before) unit
          before.length := by
  unfold afterUnits
  rw [runUnits_append, runUnits_cons, runUnits_nil, Nat.zero_add]

theorem afterUnits_append_cons :
    afterUnits engine machine settings executable running files (before ++ unit :: later)
      = runUnits engine machine settings executable
          (afterUnits engine machine settings executable running files (before ++ [unit]))
          (before.length + 1) later := by
  rw [afterUnits_concat]
  unfold afterUnits
  rw [runUnits_append, runUnits_cons, Nat.zero_add]

/-- The report of a unit is made in the state that the units before it have left. -/
theorem getElem?_units_afterUnits :
    (afterUnits engine machine settings executable running files
        (before ++ unit :: later)).units[before.length]?
      = some (reportOf engine machine settings executable
          (afterUnits engine machine settings executable running files before).running
          (afterUnits engine machine settings executable running files before).files unit
          (unitOutputDir settings.outputDirPrefix unit before.length)) := by
  have hlength : (afterUnits engine machine settings executable running files
      before).units.length = before.length := by
    rw [afterUnits, runUnits_units, List.nil_append, length_reports]
  rw [afterUnits_append_cons, runUnits_units, afterUnits_concat, runUnit_units, List.append_assoc,
    List.getElem?_append_right (Nat.le_of_eq hlength), hlength, Nat.sub_self]
  rfl

theorem afterUnits_of_execute {units : List String} {session : Session machine.Running}
    (h : execute engine machine settings running files units = .ok session) :
    ∃ executable, engine.locate machine files = .ok executable
      ∧ session = afterUnits engine machine settings executable running files units := by
  obtain ⟨executable, hlocate, hrun⟩ := bind_eq_ok_iff.1 h
  cases hrun
  exact ⟨executable, hlocate, rfl⟩

theorem session_isolation {session : Session machine.Running}
    (hcontained : engine.Contained machine touches) (hrunning : ∀ l, ¬ touches running l)
    (h : execute engine machine settings running files (before ++ unit :: later) = .ok session) :
    ∃ executable, engine.locate machine files = .ok executable
      ∧ IsolatesUnit engine machine settings executable touches running files before unit later
          session := by
  obtain ⟨executable, hlocate, rfl⟩ := afterUnits_of_execute h
  refine ⟨executable, hlocate, ?_, ?_, ?_, ?_⟩
  · intro ready content hclear hfile hspares
    -- The cleared directory is a moment of the session that ends with the unit.
    have hmoment : Moment engine machine settings executable ⟨files, running, [], [], []⟩ 0
        (before ++ [unit]) ready := by
      refine Moment.append (.turn (.ready ?_))
      rw [Nat.zero_add]
      exact hclear
    exact holdsFile_moment hcontained hfile hspares (fun l _ => hrunning l) hmoment
  · intro report hreport path hpath
    rw [getElem?_units_afterUnits] at hreport
    cases hreport
    have hfile := file_of_mem_recordFiles hpath
    simp only [afterUnits_concat, runUnit_files]
    exact hfile
  · intro report hreport path hpath s hspares htouches moment hmoment content hfile
    exact holdsFile_moment hcontained hfile hspares htouches hmoment
  · have hend : afterUnits engine machine settings executable running files
        (before ++ unit :: later) = runUnits engine machine settings executable
          (afterUnits engine machine settings executable running files (before ++ [unit]))
          (before.length + 1) later := afterUnits_append_cons
    rw [hend]
    exact moment_runUnits _ _ _

end Isolation

section Nested

/-- Two units in a directory that has the name of an output directory, and a unit beside it. -/
def nestedUnits : FileTree :=
  (((FileTree.empty.put ["klee-out-1"] .directory).put ["klee-out-1", "a.ll"]
    (.file [97] false)).put ["klee-out-1", "c.ll"] (.file [99] false)).put ["b.ll"]
      (.file [98] false)

/-- A machine on which an engine leaves a file for one of these units. -/
def nestedMachine : Machine :=
  Machine.scripted fun unit =>
    if unit = "klee-out-1/a.ll" then some [("t.ktest", [1])] else none

/-- The session that has run some of these units. -/
def nestedSession (units : List String) : Session Unit :=
  afterUnits Engine.scripted nestedMachine {} "engine" () nestedUnits units

theorem nested_contained : Engine.scripted.Contained nestedMachine fun _ _ => False :=
  (scripted_confined _).contained

/-- No output directory takes the place of the one in which the units lie if both of them come
first. -/
theorem session_isolation_nested :
    Engine.scripted.Contained nestedMachine (fun _ _ => False)
      ∧ execute Engine.scripted nestedMachine {} () nestedUnits
          (["klee-out-1/a.ll"] ++ "klee-out-1/c.ll" :: ["b.ll"])
        = .ok (nestedSession ["klee-out-1/a.ll", "klee-out-1/c.ll", "b.ll"])
      ∧ Spares [] (outputDirs "klee-out" 0 ["klee-out-1/a.ll", "klee-out-1/c.ll"])
          "klee-out-1/c.ll"
      ∧ ∃ executable, Engine.scripted.locate nestedMachine nestedUnits = .ok executable
        ∧ IsolatesUnit Engine.scripted nestedMachine {} executable (fun _ _ => False) ()
            nestedUnits ["klee-out-1/a.ll"] "klee-out-1/c.ll" ["b.ll"]
            (nestedSession ["klee-out-1/a.ll", "klee-out-1/c.ll", "b.ll"]) := by
  have h : execute Engine.scripted nestedMachine {} () nestedUnits
      (["klee-out-1/a.ll"] ++ "klee-out-1/c.ll" :: ["b.ll"])
    = .ok (nestedSession ["klee-out-1/a.ll", "klee-out-1/c.ll", "b.ll"]) := rfl
  exact ⟨nested_contained, h, by decide +kernel,
    session_isolation nested_contained (fun _ => id) h⟩

/-- If the unit beside them comes between the two, its output directory takes the place of the one in
which they lie: the record registered for the first is gone, and so is the file of the other one when
its engine is started. -/
theorem cleared_under_units :
    Engine.scripted.Contained nestedMachine (fun _ _ => False)
      ∧ execute Engine.scripted nestedMachine {} () nestedUnits
            ["klee-out-1/a.ll", "b.ll", "klee-out-1/c.ll"]
          = .ok (nestedSession ["klee-out-1/a.ll", "b.ll", "klee-out-1/c.ll"])
      ∧ (nestedSession ["klee-out-1/a.ll", "b.ll", "klee-out-1/c.ll"]).units[0]?.map
            UnitReport.recordFiles
          = some ["klee-out-1/klee-out-0/t.ktest"]
      ∧ HoldsFile (nestedSession ["klee-out-1/a.ll"]).files [] "klee-out-1/klee-out-0/t.ktest" [1]
      ∧ ¬ HoldsFile (nestedSession ["klee-out-1/a.ll", "b.ll"]).files []
          "klee-out-1/klee-out-0/t.ktest" [1]
      ∧ HoldsFile nestedUnits [] "klee-out-1/c.ll" [99]
      ∧ clear (nestedSession ["klee-out-1/a.ll", "b.ll"]).files [] "klee-out-1/klee-out-2"
          = .ok (nestedSession ["klee-out-1/a.ll", "b.ll"]).files
      ∧ ¬ HoldsFile (nestedSession ["klee-out-1/a.ll", "b.ll"]).files [] "klee-out-1/c.ll" [99] := by
  exact ⟨nested_contained, rfl, by decide +kernel, by decide +kernel, by decide +kernel,
    by decide +kernel, if_neg (by decide +kernel), by decide +kernel⟩

end Nested

end Session

end CaseHarvest
