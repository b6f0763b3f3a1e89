import CaseHarvest.Proofs.Session.Collection
import CaseHarvest.Proofs.Session.Visits
/-!
Two sessions on machines whose directories deliver in different orders. Main statements: what a session
collects is what it has collected behind each completed unit, unit after unit (`execute_collects`), and two
sessions collect, report and tell the same (`execute_reordered`, `removeAll_reordered`).
-/
namespace CaseHarvest

/-- What is collected behind a unit: the records in its output directory, if it was completed and the
directory can be listed. -/
def Visit.found (cwd : Location) (settings : Settings) (v : Visit) : List String :=
  match v.status with
  | .completed _ => (Session.recordFiles v.after cwd settings.recordExtension v.dir).toOption.getD []
  | _ => []

namespace Session

variable {engine : Engine} {machine : Machine} {settings : Settings} {executable : String}

theorem collect_fst (running : machine.Running) (files : FileTree) (unit dir : String) :
    (collect engine machine settings unit dir
        (attempt machine settings.timeout running files dir (engine.command executable unit dir))).1
      = (visit engine machine settings executable running files unit dir).found machine.workingDir
          settings := by
  unfold collect Visit.found
  rw [visit_status, visit_after, visit_dir]
  generalize attempt machine settings.timeout running files dir _ = a
  cases a.status with
  | timedOut => rfl
  | failed fault => rfl
  | completed exitCode =>
    dsimp only
    cases recordFiles a.files machine.workingDir settings.recordExtension dir <;> rfl

theorem allRecordFiles_runUnits (s : Session machine.Running) (ordinal : Nat) (units : List String) :
    (runUnits engine machine settings executable s ordinal units).allRecordFiles
      = s.allRecordFiles
        ++ (visits engine machine settings executable s.running s.files ordinal units).flatMap
            (Visit.found machine.workingDir settings) := by
  induction units generalizing s ordinal with
  | nil => rw [runUnits_nil, visits, List.flatMap_nil, List.append_nil]
  | cons unit units ih =>
    rw [runUnits_cons, ih, allRecordFiles_runUnit, collect_fst, runUnit_files, runUnit_running, visits,
      List.flatMap_cons, List.append_assoc]

/-- The record files of a session are those that are collected behind its units, unit after unit. -/
theorem execute_collects {running : machine.Running} {files : FileTree} {executable : String}
    (h : engine.locate machine files = .ok executable) (units : List String) :
    ∃ s, execute engine machine settings running files units = .ok s
      ∧ s.allRecordFiles
        = (visits engine machine settings executable running files 0 units).flatMap
            (Visit.found machine.workingDir settings) := by
  refine ⟨_, ?_, allRecordFiles_runUnits ⟨files, running, [], [], []⟩ 0 units⟩
  unfold execute
  rw [h]
  rfl

end Session

section Reordered

variable {Running Running' : Type} (R : Running → Running' → Prop)

/-- What processes do is the same but for the order in which directories deliver; what runs on is
related. -/
structure Activity.Reordered (a : Activity Running) (a' : Activity Running') : Prop where
  ending : a.ending = a'.ending
  failing : a.failing = a'.failing
  files : ∀ time, (a.files time).Reordered (a'.files time)
  running : ∀ time, R (a.running time) (a'.running time)
  spared : ∀ time, R (a.spared time) (a'.spared time)

structure Outcome.Reordered (o : Outcome Running) (o' : Outcome Running') : Prop where
  status : o.status = o'.status
  time : o.time = o'.time
  files : o.files.Reordered o'.files
  running : R o.running o'.running

structure Session.Attempt.Reordered (a : Session.Attempt Running) (a' : Session.Attempt Running') :
    Prop where
  files : a.files.Reordered a'.files
  running : R a.running a'.running
  status : a.status = a'.status
  time : a.time = a'.time

/-- Two sessions that differ in nothing but the order in which directories deliver. -/
structure Session.Reordered (s : Session Running) (s' : Session Running') : Prop where
  files : s.files.Reordered s'.files
  running : R s.running s'.running
  units : s.units = s'.units
  dirs : s.dirs = s'.dirs
  notices : s.notices = s'.notices

end Reordered

/-- On two machines that differ in nothing but the order in which directories deliver, an engine is found at
the same place, and in whatever orders the same files are shown to it, its runs do the same. -/
structure Engine.RunsAlike (engine : Engine) (machine machine' : Machine)
    (R : machine.Running → machine'.Running → Prop) : Prop where
  workingDir : machine.workingDir = machine'.workingDir
  device : machine.device = machine'.device
  clock : machine.clock = machine'.clock
  locate : ∀ {files files'}, files.Reordered files' →
    engine.locate machine files = engine.locate machine' files'
  launch : ∀ {running running' files files'} (executable unit dir : String), R running running' →
    files.Reordered files' →
    SameOutcome (Activity.Reordered R)
      (machine.launch running files (engine.command executable unit dir))
      (machine'.launch running' files' (engine.command executable unit dir))

/-- Machines that differ in nothing but the order in which directories deliver: all programs are found at the
same places, and do the same in whatever orders the same files are shown to them. -/
structure Machine.RunsAlike (machine machine' : Machine)
    (R : machine.Running → machine'.Running → Prop) : Prop where
  workingDir : machine.workingDir = machine'.workingDir
  searchPath : machine.searchPath = machine'.searchPath
  device : machine.device = machine'.device
  clock : machine.clock = machine'.clock
  launch : ∀ {running running' files files'} (command : Command), R running running' →
    files.Reordered files' →
    SameOutcome (Activity.Reordered R) (machine.launch running files command)
      (machine'.launch running' files' command)

theorem Machine.RunsAlike.find? {machine machine' : Machine}
    {R : machine.Running → machine'.Running → Prop} (h : machine.RunsAlike machine' R)
    {files files' : FileTree} (hfiles : files.Reordered files') (program : String) :
    machine.find? files program = machine'.find? files' program := by
  have hexecutable (path : String) :
      machine.isExecutable files path = machine'.isExecutable files' path := by
    unfold Machine.isExecutable
    rw [h.workingDir, hfiles.resolve]
    simp only [hfiles.lookup]
  unfold Machine.find? Machine.candidates
  rw [h.workingDir, h.searchPath, funext hexecutable]

/-- The engine that settings ask for runs alike on such machines. -/
theorem Machine.RunsAlike.engine {machine machine' : Machine}
    {R : machine.Running → machine'.Running → Prop} (h : machine.RunsAlike machine' R)
    (settings : Settings) : (Engine.ofSettings settings).RunsAlike machine machine' R where
  workingDir := h.workingDir
  device := h.device
  clock := h.clock
  locate hfiles := by
    dsimp only [Engine.ofSettings, Engine.klee]
    rw [h.find? hfiles]
  launch _ _ _ hrunning hfiles := h.launch _ hrunning hfiles

theorem Activity.Reordered.await {Running Running' : Type} {R : Running → Running' → Prop}
    {a : Activity Running} {a' : Activity Running'} (h : a.Reordered R a') (limit : Duration) :
    (a.await limit).Reordered R (a'.await limit) := by
  have hkilled (time : Nat) (fault? : Option Fault) :
      (a.killedAt time fault?).Reordered R (a'.killedAt time fault?) :=
    ⟨rfl, rfl, h.files time, h.spared time⟩
  have hfailure : a.failure? = a'.failure? := by
    unfold Activity.failure?
    rw [h.failing, h.ending]
  unfold Activity.await
  rw [hfailure, h.ending]
  split
  · split <;> exact hkilled _ _
  · split
    · exact ⟨rfl, rfl, h.files _, h.running _⟩
    · exact hkilled _ _
  · exact hkilled _ _

namespace Session

variable {machine machine' : Machine} {R : machine.Running → machine'.Running → Prop}
  {running : machine.Running} {running' : machine'.Running} {files files' : FileTree}
  {engine : Engine} (settings : Settings) (executable : String)

theorem clear_reordered (h : files.Reordered files') (cwd : Location) (dir : String) :
    SameOutcome FileTree.Reordered (clear files cwd dir) (clear files' cwd dir) := by
  unfold clear
  rw [h.exists?]
  split
  · exact h.removeTree cwd dir
  · exact .ok h

theorem attempt_reordered (h : engine.RunsAlike machine machine' R) (limit : Duration)
    (hrunning : R running running') (hfiles : files.Reordered files') (unit dir : String) :
    (attempt machine limit running files dir (engine.command executable unit dir)).Reordered R
      (attempt machine' limit running' files' dir (engine.command executable unit dir)) := by
  have hclear := clear_reordered hfiles machine.workingDir dir
  unfold attempt
  rw [← h.workingDir]
  -- Both are refused here for one reason, or neither is; so it is with the launch.
  generalize clear files machine.workingDir dir = cleared at hclear ⊢
  generalize clear files' machine.workingDir dir = cleared' at hclear ⊢
  cases hclear with
  | error fault => exact ⟨hfiles, hrunning, rfl, rfl⟩
  | ok hcleared =>
    have hlaunch := h.launch executable unit dir hrunning hcleared
    dsimp only
    generalize machine.launch running _ _ = activity at hlaunch ⊢
    generalize machine'.launch running' _ _ = activity' at hlaunch ⊢
    cases hlaunch with
    | error fault => exact ⟨hcleared, hrunning, rfl, rfl⟩
    | ok hactivity =>
      have houtcome := hactivity.await limit
      refine ⟨houtcome.files, houtcome.running, ?_, houtcome.time⟩
      dsimp only
      rw [houtcome.status]

/-- What is collected behind a unit and told about it is the same. -/
theorem collect_reordered (h : engine.RunsAlike machine machine' R) {a : Attempt machine.Running}
    {a' : Attempt machine'.Running} (ha : a.Reordered R a') (unit dir : String) :
    collect engine machine settings unit dir a = collect engine machine' settings unit dir a' := by
  unfold collect
  rw [ha.status, ← h.workingDir, recordFiles_reordered ha.files]

theorem allRecordFiles_reordered {s : Session machine.Running} {s' : Session machine'.Running}
    (h : s.Reordered R s') : s.allRecordFiles = s'.allRecordFiles := by
  unfold allRecordFiles
  rw [h.units]

theorem own_reordered {s : Session machine.Running} {s' : Session machine'.Running}
    (h : s.Reordered R s') (dir : String) : (s.own dir).Reordered R (s'.own dir) := by
  unfold own
  rw [h.dirs]
  split
  · exact h
  · exact { h with dirs := rfl }

theorem runUnit_reordered (h : engine.RunsAlike machine machine' R) {s : Session machine.Running}
    {s' : Session machine'.Running} (hs : s.Reordered R s') (unit : String) (ordinal : Nat) :
    (runUnit engine machine settings executable s unit ordinal).Reordered R
      (runUnit engine machine' settings executable s' unit ordinal) := by
  let dir := unitOutputDir settings.outputDirPrefix unit ordinal
  have howned := own_reordered hs dir
  have hattempt := attempt_reordered executable h settings.timeout howned.running howned.files unit dir
  have hcollect := collect_reordered settings h hattempt unit dir
  refine ⟨hattempt.files, hattempt.running, ?_, howned.dirs, ?_⟩
  · simp only [runUnit, runInto]
    rw [hcollect, hattempt.status, hattempt.time, h.clock, howned.units]
  · simp only [runUnit, runInto]
    rw [hcollect, howned.notices]

theorem runUnits_reordered (h : engine.RunsAlike machine machine' R) {s : Session machine.Running}
    {s' : Session machine'.Running} (hs : s.Reordered R s') (ordinal : Nat) (units : List String) :
    (runUnits engine machine settings executable s ordinal units).Reordered R
      (runUnits engine machine' settings executable s' ordinal units) := by
  induction units generalizing s s' ordinal with
  | nil => exact hs
  | cons unit units ih =>
    rw [runUnits_cons, runUnits_cons]
    exact ih (runUnit_reordered settings executable h hs unit ordinal) (ordinal + 1)

theorem start_reordered (hrunning : R running running') (hfiles : files.Reordered files') :
    Session.Reordered R ⟨files, running, [], [], []⟩ ⟨files', running', [], [], []⟩ :=
  ⟨hfiles, hrunning, rfl, rfl, rfl⟩

theorem execute_reordered (h : engine.RunsAlike machine machine' R) (hrunning : R running running')
    (hfiles : files.Reordered files') (units : List String) :
    SameOutcome (Session.Reordered R) (execute engine machine settings running files units)
      (execute engine machine' settings running' files' units) := by
  unfold execute
  rw [h.locate hfiles]
  refine .bind _ fun executable => .ok ?_
  exact runUnits_reordered settings executable h (start_reordered hrunning hfiles) 0 units

theorem removeAll_reordered (h : files.Reordered files') (cwd : Location) (dirs : List String) :
    (removeAll cwd files dirs).1.Reordered (removeAll cwd files' dirs).1
      ∧ (removeAll cwd files dirs).2 = (removeAll cwd files' dirs).2 := by
  induction dirs generalizing files files' with
  | nil => exact ⟨h, rfl⟩
  | cons dir dirs ih =>
    have hremove := h.removeTree cwd dir
    unfold removeAll
    generalize files.removeTree cwd dir = removed at hremove ⊢
    generalize files'.removeTree cwd dir = removed' at hremove ⊢
    cases hremove with
    | error fault =>
      obtain ⟨hfiles, hnotices⟩ := ih h
      exact ⟨hfiles, by dsimp only; rw [hnotices]⟩
    | ok hremoved => exact ih hremoved

end Session

/-! ## Scripted engines -/

/-- The files after files have been put into a directory. -/
def putFiles (place : Location) (t : FileTree) (left : List (String × Bytes)) : FileTree :=
  left.foldl (fun t (name, content) => t.put (place ++ [name]) (.file content false)) t

/-- Files that are put into one directory stand there in whatever order they have been put there. -/
theorem putFiles_reordered (place : Location) {left left' : List (String × Bytes)}
    (hperm : left.Perm left') (hnodup : (left.map (·.1)).Nodup) {t t' : FileTree}
    (h : t.Reordered t') : (putFiles place t left).Reordered (putFiles place t' left') := by
  have hsame (left : List (String × Bytes)) {t t' : FileTree} (h : t.Reordered t') :
      (putFiles place t left).Reordered (putFiles place t' left) := by
    induction left generalizing t t' with
    | nil => exact h
    | cons head left ih => exact ih (h.put _ _)
  -- A permutation is made of swaps of neighbours, and two files of different names can change places.
  induction hperm generalizing t t' with
  | nil => exact h
  | cons head hperm ih => exact ih (List.nodup_cons.1 hnodup).2 (h.put _ _)
  | swap a b left =>
    have hne : b.1 ≠ a.1 := fun e => (List.nodup_cons.1 hnodup).1 (List.mem_cons.2 (.inl e))
    refine hsame left (h.put_put ?_ ?_ ?_ _ _)
    · simpa using hne
    · simp
    · simp
  | trans hfirst hsecond ihfirst ihsecond =>
    have hnodup' := (hfirst.map (·.1)).nodup_iff.1 hnodup
    exact (ihfirst hnodup h).trans (ihsecond hnodup' (.refl t'))

theorem leave_reordered {files files' : FileTree} (h : files.Reordered files') (place : Location)
    {left left' : List (String × Bytes)} (hperm : left.Perm left')
    (hnodup : (left.map (·.1)).Nodup) :
    (leave files place left).Reordered (leave files' place left') :=
  putFiles_reordered place hperm hnodup (h.put place .directory)

/-- Engines that leave the same files in other orders run alike. -/
theorem scripted_runsAlike {script script' : String → Option (List (String × Bytes))}
    (h : ∀ unit, Option.Rel List.Perm (script unit) (script' unit))
    (hnodup : ∀ unit left, script unit = some left → (left.map (·.1)).Nodup) :
    Engine.scripted.RunsAlike (Machine.scripted script) (Machine.scripted script')
      fun _ _ => True where
  workingDir := rfl
  device := rfl
  clock := rfl
  locate _ := rfl
  launch _ unit dir _ hfiles := by
    refine .ok ⟨rfl, rfl, fun _ => ?_, fun _ => trivial, fun _ => trivial⟩
    have hunit := h unit
    have hnames := hnodup unit
    dsimp only
    generalize script unit = left? at hunit hnames ⊢
    generalize script' unit = left?' at hunit ⊢
    cases hunit with
    | none => exact hfiles
    | some hperm => exact leave_reordered hfiles _ hperm (hnames _ rfl)

end CaseHarvest
