import Mathlib.Data.List.Basic
import CaseHarvest.Harvest.Gather
import CaseHarvest.Proofs.Session.Frame
/-!
What a session reads in the end. Its records are looked at only after all units have run. Main
statement: if output directories keep out of one another's way, then that finds for each unit what
its engine run left, as if it had been read at once (`gather_runUnits`).
-/
namespace CaseHarvest

open FileTree (locate way)

/-- None of some directories is another one or lies in another one. -/
def Apart (cwd : Location) (dirs : List String) : Prop :=
  dirs.Pairwise fun d e => ¬ locate cwd d <+: locate cwd e ∧ ¬ locate cwd e <+: locate cwd d

/-- No path to a directory leads through what lies in the directory itself, or through a directory
that is used later, to come back out of it. -/
structure Passable (cwd : Location) (dirs : List String) : Prop where
  own : ∀ d ∈ dirs, ∀ p ∈ way cwd d, locate cwd d <+: p → p = locate cwd d
  later : dirs.Pairwise fun d e => ∀ p ∈ way cwd d, ¬ locate cwd e <+: p

theorem Passable.tail {cwd : Location} {dir : String} {dirs : List String}
    (h : Passable cwd (dir :: dirs)) : Passable cwd dirs where
  own d hd := h.own d (List.mem_cons_of_mem _ hd)
  later := (List.pairwise_cons.1 h.later).2

instance (cwd : Location) (dirs : List String) : Decidable (Apart cwd dirs) :=
  inferInstanceAs (Decidable (List.Pairwise _ dirs))

instance (cwd : Location) (dirs : List String) : Decidable (Passable cwd dirs) :=
  decidable_of_iff ((∀ d ∈ dirs, ∀ p ∈ way cwd d, locate cwd d <+: p → p = locate cwd d)
      ∧ dirs.Pairwise fun d e => ∀ p ∈ way cwd d, ¬ locate cwd e <+: p)
    ⟨fun ⟨own, later⟩ => ⟨own, later⟩, fun ⟨own, later⟩ => ⟨own, later⟩⟩

/-- Paths that never lead up do not come out of anything. -/
theorem passable_of_no_up {namePrefix : String} {cwd : Location} {ordinal : Nat}
    {units : List String}
    (hup : ∀ dir ∈ outputDirs namePrefix ordinal units, ".." ∉ Path.pieces dir)
    (hapart : Apart cwd (outputDirs namePrefix ordinal units)) :
    Passable cwd (outputDirs namePrefix ordinal units) := by
  have habove (d : String) (hd : d ∈ outputDirs namePrefix ordinal units) (p : Location)
      (hp : p ∈ way cwd d) : p <+: (locate cwd d).dropLast := by
    obtain ⟨unit, position, rfl⟩ := mem_outputDirs hd
    exact FileTree.prefix_of_mem_way (hup _ hd) hp
  constructor
  · intro d hd p hp hpre
    have hlength := (hpre.trans (habove d hd p hp)).length_le
    have hroot : 0 < (locate cwd d).length :=
      List.length_pos_iff.2 (locate_outputDirs_ne_root hd)
    rw [List.length_dropLast] at hlength
    omega
  · refine hapart.imp_of_mem fun hd _ hde p hp hpre => hde.2 ?_
    exact (hpre.trans (habove _ hd p hp)).trans (List.dropLast_prefix _)

/-- One unit of a session. -/
structure Visit where
  unit : String
  dir : String
  /-- The files when the engine is started: what a former run left is cleared away. -/
  ready : FileTree
  /-- The files when the engine is no longer waited for. -/
  after : FileTree
  status : UnitStatus

namespace Visit

variable (cwd : Location) (settings : Settings)

/-- The record files that the engine run left directly in the unit's output directory, ascending by
name. -/
def recordNames (v : Visit) : List String :=
  let place := locate cwd v.dir
  let left := (v.after.children place).filter fun (name, entry) =>
    Session.isRecordFile settings.recordExtension name entry
      && v.ready.lookup (place ++ [name]) = none
  (left.map (·.1)).mergeSort Record.nameLe

/-- The records that those files hold. A unit that was not completed has none. -/
def records (v : Visit) : List Record :=
  match v.status with
  | .completed _ => (v.recordNames cwd settings).filterMap fun name =>
      (Record.load v.after cwd (Path.join v.dir name) settings.maxVersion).toOption
  | _ => []

end Visit

namespace Session

variable (engine : Engine) (machine : Machine) (settings : Settings) (executable : String)

/-- Clears a unit's output directory, starts the engine and waits for it. -/
def visit (running : machine.Running) (files : FileTree) (unit dir : String) : Visit :=
  let a := attempt machine settings.timeout running files dir (engine.command executable unit dir)
  { unit, dir, ready := (clear files machine.workingDir dir).toOption.getD files
    after := a.files, status := a.status }

/-- The units of a session, one after the other; the first one has the given position. -/
def visits (running : machine.Running) (files : FileTree) (ordinal : Nat) :
    List String → List Visit
  | [] => []
  | unit :: units =>
    let dir := unitOutputDir settings.outputDirPrefix unit ordinal
    let a := attempt machine settings.timeout running files dir
      (engine.command executable unit dir)
    visit engine machine settings executable running files unit dir
      :: visits a.running a.files (ordinal + 1) units

variable {engine machine settings executable}

section Collect

variable {files : FileTree} {cwd : Location} {max : Int32}

theorem load_congr {files' : FileTree} {path : String}
    (hway : ∀ p ∈ way cwd path, files'.lookup p = files.lookup p)
    (hend : files'.lookup (locate cwd path) = files.lookup (locate cwd path)) :
    (Record.load files' cwd path max).toOption = (Record.load files cwd path max).toOption := by
  have hread := FileTree.read_congr hway hend
  unfold Record.load
  cases h : files.read cwd path with
  | error e =>
    cases h' : files'.read cwd path with
    | error e' => rfl
    | ok bytes => rw [h, h'] at hread; cases hread
  | ok bytes =>
    cases h' : files'.read cwd path with
    | error e' => rw [h, h'] at hread; cases hread
    | ok bytes' =>
      rw [h, h'] at hread
      cases hread
      rfl

theorem gatherRecords_fst (files : FileTree) (cwd : Location) (max : Int32) (paths : List String) :
    (gatherRecords files cwd max paths).1
      = paths.filterMap fun path => (Record.load files cwd path max).toOption := by
  induction paths with
  | nil => rfl
  | cons path paths ih =>
    rw [gatherRecords, List.filterMap_cons]
    cases h : Record.load files cwd path max with
    | error e => exact ih
    | ok r => simp [ih, Except.toOption]

theorem exists_read_of_load {path : String} {r : Record}
    (h : Record.load files cwd path max = .ok r) : ∃ bytes, files.read cwd path = .ok bytes := by
  unfold Record.load at h
  cases hread : files.read cwd path with
  | error e =>
    rw [hread] at h
    cases h
  | ok bytes => exact ⟨bytes, rfl⟩

/-- What is read through a path was not refused at any directory on its way. -/
theorem followable_of_load {path : String} {r : Record}
    (h : Record.load files cwd path max = .ok r) :
    FileTree.Followable path ∧ ∀ p ∈ way cwd path, files.lookup p = some .directory := by
  obtain ⟨bytes, hread⟩ := exists_read_of_load h
  obtain ⟨hpath, hway, -⟩ := FileTree.read_eq_ok_iff.1 hread
  exact ⟨hpath, hway⟩

/-- Why the directories of later units have to be passed by: once one that was there has been cleared,
no record can be read through it. -/
theorem load_of_cleared_way {files' : FileTree} {dir later name : String} {p : Location}
    (hclear : clear files cwd later = .ok files') (hthere : files.exists? cwd later)
    (hroot : locate cwd later ≠ []) (hisName : Path.isName name) (hp : p ∈ way cwd dir)
    (hpre : locate cwd later <+: p) :
    (Record.load files' cwd (Path.join dir name) max).toOption = none := by
  cases hload : Record.load files' cwd (Path.join dir name) max with
  | error e => rfl
  | ok r =>
    obtain ⟨bytes, hread⟩ := exists_read_of_load hload
    have htrail := mem_trail_of_mem_way ((FileTree.mem_way_join hisName).2 (.inl hp))
    exact absurd hread (read_of_cleared hclear hthere hroot htrail hpre)

end Collect

variable {running : machine.Running} {files : FileTree} {unit dir : String}

@[simp] theorem visit_dir :
    (visit engine machine settings executable running files unit dir).dir = dir := rfl

@[simp] theorem visit_after :
    (visit engine machine settings executable running files unit dir).after
      = (attempt machine settings.timeout running files dir
          (engine.command executable unit dir)).files := rfl

@[simp] theorem visit_status :
    (visit engine machine settings executable running files unit dir).status
      = (attempt machine settings.timeout running files dir
          (engine.command executable unit dir)).status := rfl

/-- An engine that came to its end was started in a cleared directory. -/
theorem clear_of_completed {command : Command} {exitCode : Option Nat}
    (h : (attempt machine settings.timeout running files dir command).status
      = .completed exitCode) :
    ∃ cleared, clear files machine.workingDir dir = .ok cleared := by
  unfold attempt at h
  cases hclear : clear files machine.workingDir dir with
  | error fault =>
    rw [hclear] at h
    cases h
  | ok cleared => exact ⟨cleared, rfl⟩

theorem mem_recordNames {v : Visit} {cwd : Location} {name : String}
    (h : name ∈ v.recordNames cwd settings) :
    ∃ entry, (name, entry) ∈ v.after.children (locate cwd v.dir) := by
  obtain ⟨⟨_, entry⟩, hmem, rfl⟩ := List.mem_map.1 (List.mem_mergeSort.1 h)
  exact ⟨entry, (List.mem_filter.1 hmem).1⟩

/-- Where a directory cannot be listed, no file in it can be read. -/
theorem load_of_unlisted {v : Visit} {cwd : Location} {name : String} {fault : Fault}
    (hdir : v.dir ≠ "") (hlist : v.after.list cwd v.dir = .error fault)
    (hname : name ∈ v.recordNames cwd settings) (max : Int32) :
    (Record.load v.after cwd (Path.join v.dir name) max).toOption = none := by
  cases hload : Record.load v.after cwd (Path.join v.dir name) max with
  | error e => rfl
  | ok r =>
    obtain ⟨entry, hchild⟩ := mem_recordNames hname
    have hisName := FileTree.isName_of_mem_children hchild
    have hentry := FileTree.mem_children_iff.1 hchild
    obtain ⟨hpath, hway⟩ := followable_of_load hload
    have hplace := FileTree.lookup_dropLast (by rw [hentry]; rfl)
    rw [List.dropLast_concat] at hplace
    rw [FileTree.list_eq_ok_iff.2 ⟨FileTree.followable_of_join hdir hisName hpath,
      fun p hp => hway p ((FileTree.mem_way_join hisName).2 (.inl hp)), hplace, rfl⟩] at hlist
    cases hlist

section Completed

variable {a : Attempt machine.Running} {exitCode : Option Nat}

/-- All record files that are found in an output directory are new. -/
theorem recordNames_of_listed (hconfined : engine.Confined machine)
    (hroot : locate machine.workingDir dir ≠ [])
    (hown : ∀ p ∈ way machine.workingDir dir,
      locate machine.workingDir dir <+: p → p = locate machine.workingDir dir)
    (ha : a = attempt machine settings.timeout running files dir
      (engine.command executable unit dir))
    (hstatus : a.status = .completed exitCode) {entries : List (String × Entry)}
    (hlist : a.files.list machine.workingDir dir = .ok entries) :
    (visit engine machine settings executable running files unit dir).recordNames
        machine.workingDir settings
      = ((entries.filter fun (name, entry) =>
          isRecordFile settings.recordExtension name entry).map (·.1)).mergeSort
            Record.nameLe := by
  obtain ⟨hdir, hway, -, rfl⟩ := FileTree.list_eq_ok_iff.1 hlist
  subst ha
  obtain ⟨cleared, hclear⟩ := clear_of_completed hstatus
  have hbefore (p : Location) (hp : p ∈ way machine.workingDir dir)
      (hne : p ≠ locate machine.workingDir dir) : files.lookup p = some .directory := by
    rw [← lookup_attempt_of_outside hconfined fun hpre => hne (hown p hp hpre)]
    exact hway p hp
  have hready : (visit engine machine settings executable running files unit dir).ready
      = cleared := by
    rw [visit, hclear]
    rfl
  have hnew (name : String) :
      cleared.lookup (locate machine.workingDir dir ++ [name]) = none :=
    lookup_clear_below hclear hdir hbefore hroot (List.prefix_append _ _) (by simp)
  unfold Visit.recordNames
  rw [hready]
  show List.mergeSort (List.map _ (List.filter _
    (FileTree.children _ (locate machine.workingDir dir)))) _ = _
  congr 2
  refine List.filter_congr fun p _ => ?_
  show (_ && decide (cleared.lookup (locate machine.workingDir dir ++ [p.1]) = none)) = _
  rw [hnew p.1, decide_eq_true rfl, Bool.and_true]

end Completed

/-- The records found for a unit are what its engine run left, if the path to its directory does
not lead through what lies in it. Files in which nothing more happened to the directory or on the way
to it show the same records later. -/
theorem collect_records (hconfined : engine.Confined machine) (hdir : dir ≠ "")
    (hroot : locate machine.workingDir dir ≠ [])
    (hown : ∀ p ∈ way machine.workingDir dir,
      locate machine.workingDir dir <+: p → p = locate machine.workingDir dir)
    {a : Attempt machine.Running}
    (ha : a = attempt machine settings.timeout running files dir
      (engine.command executable unit dir))
    {later : FileTree}
    (hway : ∀ p ∈ way machine.workingDir dir, later.lookup p = a.files.lookup p)
    (hinside : ∀ l, locate machine.workingDir dir <+: l → later.lookup l = a.files.lookup l) :
    (collect engine machine settings unit dir a).1.filterMap
        (fun path => (Record.load later machine.workingDir path settings.maxVersion).toOption)
      = (visit engine machine settings executable running files unit dir).records
          machine.workingDir settings := by
  have hafter : (visit engine machine settings executable running files unit dir).after
      = a.files := by rw [ha, visit_after]
  unfold Visit.records collect
  rw [visit_status, ← ha]
  cases hs : a.status with
  | timedOut => rfl
  | failed fault => rfl
  | completed exitCode =>
    simp only [recordFiles]
    cases hlist : a.files.list machine.workingDir dir with
    | error fault =>
      refine (List.filterMap_eq_nil_iff.2 fun name hname => ?_).symm
      rw [← hafter] at hlist
      exact load_of_unlisted hdir hlist hname _
    | ok entries =>
      show List.filterMap _ (List.map _ _) = List.filterMap _ _
      rw [← recordNames_of_listed hconfined hroot hown ha hs hlist, visit_dir, hafter,
        List.filterMap_map]
      refine List.filterMap_congr fun name hname => ?_
      obtain ⟨entry, hchild⟩ := mem_recordNames hname
      have hisName := FileTree.isName_of_mem_children hchild
      refine load_congr (fun p hp => ?_) ?_
      · rcases (FileTree.mem_way_join hisName).1 hp with hp | rfl
        · exact hway p hp
        · exact hinside _ (List.prefix_refl _)
      · rw [FileTree.locate_join hisName]
        exact hinside _ (List.prefix_append _ _)

theorem allRecordFiles_runUnit (s : Session machine.Running) (unit : String) (ordinal : Nat) :
    (runUnit engine machine settings executable s unit ordinal).allRecordFiles
      = s.allRecordFiles ++ (collect engine machine settings unit
          (unitOutputDir settings.outputDirPrefix unit ordinal)
          (attempt machine settings.timeout s.running s.files
            (unitOutputDir settings.outputDirPrefix unit ordinal)
            (engine.command executable unit
              (unitOutputDir settings.outputDirPrefix unit ordinal)))).1 := by
  rw [runUnit, runInto, allRecordFiles, allRecordFiles]
  simp only [own_units, own_files, own_running, List.flatMap_append, List.flatMap_cons,
    List.flatMap_nil, List.append_nil]

/-- Reading after all units have run finds what each engine run left, unit by unit. -/
theorem gather_runUnits (hconfined : engine.Confined machine) (s : Session machine.Running)
    (ordinal : Nat) (units : List String)
    (hapart : Apart machine.workingDir (outputDirs settings.outputDirPrefix ordinal units))
    (hpass : Passable machine.workingDir (outputDirs settings.outputDirPrefix ordinal units)) :
    let last := runUnits engine machine settings executable s ordinal units
    (gatherRecords last.files machine.workingDir settings.maxVersion last.allRecordFiles).1
      = (gatherRecords last.files machine.workingDir settings.maxVersion s.allRecordFiles).1
        ++ (visits engine machine settings executable s.running s.files ordinal units).flatMap
            (Visit.records machine.workingDir settings) := by
  simp only [gatherRecords_fst]
  induction units generalizing s ordinal with
  | nil => simp [runUnits_nil, visits]
  | cons unit units ih =>
    rw [outputDirs] at hapart hpass
    obtain ⟨hunit, hrest⟩ := List.pairwise_cons.1 hapart
    have hlater := (List.pairwise_cons.1 hpass.later).1
    -- What the later units leave alone stays as this unit has left it.
    have hkept (l : Location)
        (hl : ∀ d ∈ outputDirs settings.outputDirPrefix (ordinal + 1) units,
          ¬ locate machine.workingDir d <+: l) :
        (runUnits engine machine settings executable
            (runUnit engine machine settings executable s unit ordinal) (ordinal + 1)
            units).files.lookup l = _ :=
      (lookup_runUnits_of_outside hconfined.contained _ _ _ hl id).trans (by rw [runUnit_files])
    have hhead := collect_records hconfined (unitOutputDir_ne_empty _ _ _)
      (FileTree.locate_unitOutputDir_ne_root _ _ _) (hpass.own _ List.mem_cons_self) rfl
      (fun p hp => hkept p fun d hd => hlater d hd p hp)
      (fun l hl => hkept l fun d hd hd' =>
        (List.prefix_or_prefix_of_prefix hl hd').elim (hunit d hd).1 (hunit d hd).2)
    rw [runUnits_cons, ih _ _ hrest hpass.tail, allRecordFiles_runUnit, List.filterMap_append,
      hhead, runUnit_files, runUnit_running, visits, List.flatMap_cons, List.append_assoc]

end Session

end CaseHarvest
