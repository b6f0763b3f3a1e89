import CaseHarvest.Proofs.Files.Walk
import CaseHarvest.Session
/-!
What a session may touch. Main statement: with an engine that keeps to the output directory it is
given, nothing outside the output directories of units has changed at any moment of their runs, but
for what may be touched by what has been left running before (`lookup_moment`).
-/
namespace CaseHarvest

open FileTree (locate way)

/-- Whatever runs already and whatever the files are, what an engine is called for changes nothing
outside the output directory that it is given. -/
def Engine.Confined (engine : Engine) (machine : Machine) : Prop :=
  ∀ executable unit dir running files activity,
    machine.launch running files (engine.command executable unit dir) = .ok activity →
    ∀ time l, ¬ FileTree.locate machine.workingDir dir <+: l →
      (activity.files time).lookup l = files.lookup l

/-- Engine runs, and what they leave running, keep to their output directories: what changes is in the
output directory, or may be touched by what has been left running before. -/
structure Engine.Contained (engine : Engine) (machine : Machine)
    (touches : machine.Running → Location → Prop) : Prop where
  files : ∀ {executable unit dir running files activity},
    machine.launch running files (engine.command executable unit dir) = .ok activity →
    ∀ time l, ¬ FileTree.locate machine.workingDir dir <+: l → ¬ touches running l →
      (activity.files time).lookup l = files.lookup l
  running : ∀ {executable unit dir running files activity},
    machine.launch running files (engine.command executable unit dir) = .ok activity →
    ∀ time l, touches (activity.running time) l ∨ touches (activity.spared time) l →
      touches running l ∨ FileTree.locate machine.workingDir dir <+: l

/-- An engine that changes nothing outside its output directory, whatever runs, leaves nothing that
would. -/
theorem Engine.Confined.contained {engine : Engine} {machine : Machine}
    (h : engine.Confined machine) : engine.Contained machine fun _ _ => False where
  files hlaunch time l hl _ := h _ _ _ _ _ _ hlaunch time l hl
  running _ _ _ htouches := htouches.elim False.elim False.elim

/-- The output directories of units in order; the first one has the given position. -/
def outputDirs (namePrefix : String) (ordinal : Nat) : List String → List String
  | [] => []
  | unit :: units =>
    unitOutputDir namePrefix unit ordinal :: outputDirs namePrefix (ordinal + 1) units

theorem mem_outputDirs {namePrefix dir : String} {ordinal : Nat} {units : List String}
    (h : dir ∈ outputDirs namePrefix ordinal units) :
    ∃ unit position, dir = unitOutputDir namePrefix unit position := by
  induction units generalizing ordinal with
  | nil => cases h
  | cons unit units ih =>
    rcases List.mem_cons.1 h with rfl | h
    · exact ⟨unit, ordinal, rfl⟩
    · exact ih h

theorem locate_outputDirs_ne_root {namePrefix dir : String} {cwd : Location} {ordinal : Nat}
    {units : List String} (h : dir ∈ outputDirs namePrefix ordinal units) :
    locate cwd dir ≠ [] := by
  obtain ⟨unit, position, rfl⟩ := mem_outputDirs h
  exact FileTree.locate_unitOutputDir_ne_root _ _ _

/-- All locations that a path leads through, and the one at its end. -/
def trail (cwd : Location) (path : String) : List Location := way cwd path ++ [locate cwd path]

theorem mem_trail_of_mem_way {cwd l : Location} {path : String} (h : l ∈ way cwd path) :
    l ∈ trail cwd path := List.mem_append_left _ h

theorem locate_mem_trail (cwd : Location) (path : String) : locate cwd path ∈ trail cwd path :=
  List.mem_append_right _ (List.mem_singleton_self _)

namespace Session

section Clear

variable {files files' : FileTree} {cwd l : Location} {dir : String}

theorem lookup_clear_of_outside (h : clear files cwd dir = .ok files')
    (hl : ¬ locate cwd dir <+: l) : files'.lookup l = files.lookup l := by
  unfold clear at h
  split at h
  · obtain ⟨-, -, -, rfl⟩ := FileTree.removeTree_eq_ok_iff.1 h
    exact FileTree.lookup_erase_of_not_prefix hl
  · cases h
    rfl

/-- Where all that a path leads through on the way to its end are directories, nothing of a former run
is left below its end. -/
theorem lookup_clear_below (h : clear files cwd dir = .ok files') (hdir : FileTree.Followable dir)
    (hway : ∀ p ∈ way cwd dir, p ≠ locate cwd dir → files.lookup p = some .directory)
    (hroot : locate cwd dir ≠ []) (hl : locate cwd dir <+: l) (hne : locate cwd dir ≠ l) :
    files'.lookup l = none := by
  unfold clear at h
  split at h
  · obtain ⟨-, -, -, rfl⟩ := FileTree.removeTree_eq_ok_iff.1 h
    rw [FileTree.lookup_erase hroot, if_pos hl]
  · rename_i hmissing
    cases h
    -- If anything were there, the end would be a directory and the path would lead to it.
    refine Option.eq_none_iff_forall_ne_some.2 fun e he => hmissing ?_
    have hplace : files.lookup (locate cwd dir) = some .directory :=
      FileTree.lookup_above (by rw [he]; rfl) hl hne
    refine FileTree.exists?_iff.2 ⟨hdir, fun p hp => ?_, by rw [hplace]; rfl⟩
    by_cases hend : p = locate cwd dir
    · rw [hend]
      exact hplace
    · exact hway p hp hend

/-- Nothing can be read any more by a path that leads through a directory that has been cleared. -/
theorem read_of_cleared {path : String} {content : Bytes}
    (hclear : clear files cwd dir = .ok files') (hthere : files.exists? cwd dir)
    (hroot : locate cwd dir ≠ []) (hl : l ∈ trail cwd path) (hpre : locate cwd dir <+: l) :
    files'.read cwd path ≠ .ok content := by
  rw [clear, if_pos hthere] at hclear
  obtain ⟨-, -, -, rfl⟩ := FileTree.removeTree_eq_ok_iff.1 hclear
  have hgone : (files.erase (locate cwd dir)).lookup l = none := by
    rw [FileTree.lookup_erase hroot, if_pos hpre]
  intro hread
  obtain ⟨-, hway, hcontent⟩ := FileTree.read_eq_ok_iff.1 hread
  rcases List.mem_append.1 hl with hl | hl
  · rw [hway l hl] at hgone
    cases hgone
  · rw [← List.mem_singleton.1 hl, hgone] at hcontent
    cases hcontent

end Clear

variable {engine : Engine} {machine : Machine} {settings : Settings} {executable : String}

@[simp] theorem own_files (s : Session machine.Running) (dir : String) :
    (s.own dir).files = s.files := by
  unfold own
  split <;> rfl

@[simp] theorem own_running (s : Session machine.Running) (dir : String) :
    (s.own dir).running = s.running := by
  unfold own
  split <;> rfl

@[simp] theorem own_units (s : Session machine.Running) (dir : String) :
    (s.own dir).units = s.units := by
  unfold own
  split <;> rfl

/-- The files that a unit leaves are those of its attempt. -/
theorem runUnit_files (s : Session machine.Running) (unit : String) (ordinal : Nat) :
    (runUnit engine machine settings executable s unit ordinal).files
      = (attempt machine settings.timeout s.running s.files
          (unitOutputDir settings.outputDirPrefix unit ordinal)
          (engine.command executable unit
            (unitOutputDir settings.outputDirPrefix unit ordinal))).files := by
  simp only [runUnit, runInto, own_files, own_running]

theorem runUnit_running (s : Session machine.Running) (unit : String) (ordinal : Nat) :
    (runUnit engine machine settings executable s unit ordinal).running
      = (attempt machine settings.timeout s.running s.files
          (unitOutputDir settings.outputDirPrefix unit ordinal)
          (engine.command executable unit
            (unitOutputDir settings.outputDirPrefix unit ordinal))).running := by
  simp only [runUnit, runInto, own_files, own_running]

theorem runUnits_nil (s : Session machine.Running) (ordinal : Nat) :
    runUnits engine machine settings executable s ordinal [] = s := rfl

theorem runUnits_cons (s : Session machine.Running) (ordinal : Nat) (unit : String)
    (units : List String) :
    runUnits engine machine settings executable s ordinal (unit :: units)
      = runUnits engine machine settings executable
          (runUnit engine machine settings executable s unit ordinal) (ordinal + 1) units := by
  simp only [runUnits, List.zipIdx_cons, List.foldl_cons]

/-! ## Moments -/

section Moments

variable (engine machine settings executable)

/-- The files at the moments of a unit's turn: before anything is done, when its output directory has
been cleared, and all the time that its engine is waited for. -/
inductive TurnMoment (running : machine.Running) (files : FileTree) (unit dir : String) :
    FileTree → Prop where
  | start : TurnMoment running files unit dir files
  | ready {ready : FileTree} (hclear : clear files machine.workingDir dir = .ok ready) :
      TurnMoment running files unit dir ready
  | waiting {ready : FileTree} {activity : Activity machine.Running} {time : Nat}
      (hclear : clear files machine.workingDir dir = .ok ready)
      (hlaunch : machine.launch running ready (engine.command executable unit dir) = .ok activity)
      (htime : time ≤ (activity.await settings.timeout).time) :
      TurnMoment running files unit dir (activity.files time)

/-- The files at the moments from a state of a session on, while it runs units. -/
inductive Moment : Session machine.Running → Nat → List String → FileTree → Prop where
  | rest {s : Session machine.Running} {ordinal : Nat} : Moment s ordinal [] s.files
  | turn {s : Session machine.Running} {ordinal : Nat} {unit : String} {units : List String}
      {files : FileTree}
      (h : TurnMoment engine machine settings executable s.running s.files unit
        (unitOutputDir settings.outputDirPrefix unit ordinal) files) :
      Moment s ordinal (unit :: units) files
  | later {s : Session machine.Running} {ordinal : Nat} {unit : String} {units : List String}
      {files : FileTree}
      (h : Moment (runUnit engine machine settings executable s unit ordinal) (ordinal + 1) units
        files) :
      Moment s ordinal (unit :: units) files

variable {engine machine settings executable} {touches : machine.Running → Location → Prop}

theorem await_spec {Running : Type} (a : Activity Running) (limit : Duration) :
    (a.await limit).files = a.files (a.await limit).time
      ∧ ((a.await limit).running = a.running (a.await limit).time
        ∨ (a.await limit).running = a.spared (a.await limit).time) := by
  unfold Activity.await
  split
  · split
    · exact ⟨rfl, .inr rfl⟩
    · exact ⟨rfl, .inr rfl⟩
  · split
    · exact ⟨rfl, .inl rfl⟩
    · exact ⟨rfl, .inr rfl⟩
  · exact ⟨rfl, .inr rfl⟩

section Turn

variable {running : machine.Running} {files files' : FileTree} {unit dir : String} {l : Location}

/-- During a unit's turn nothing changes outside its output directory that is not touched by what ran
before. -/
theorem lookup_turnMoment (hcontained : engine.Contained machine touches)
    (h : TurnMoment engine machine settings executable running files unit dir files')
    (hl : ¬ locate machine.workingDir dir <+: l) (htouches : ¬ touches running l) :
    files'.lookup l = files.lookup l := by
  cases h with
  | start => rfl
  | ready hclear => exact lookup_clear_of_outside hclear hl
  | waiting hclear hlaunch _ =>
    rw [hcontained.files hlaunch _ l hl htouches]
    exact lookup_clear_of_outside hclear hl

/-- A unit's turn ends at one of its moments. -/
theorem turnMoment_attempt :
    TurnMoment engine machine settings executable running files unit dir
      (attempt machine settings.timeout running files dir
        (engine.command executable unit dir)).files := by
  unfold attempt
  split
  · exact .start
  · rename_i hclear
    split
    · exact .ready hclear
    · rename_i activity hlaunch
      show TurnMoment _ _ _ _ _ _ _ _ (activity.await settings.timeout).files
      rw [(await_spec activity _).1]
      exact .waiting hclear hlaunch (Nat.le_refl _)

/-- What a unit's turn leaves running touches no more than before and its output directory. -/
theorem touches_attempt (hcontained : engine.Contained machine touches)
    (h : touches (attempt machine settings.timeout running files dir
      (engine.command executable unit dir)).running l) :
    touches running l ∨ locate machine.workingDir dir <+: l := by
  unfold attempt at h
  split at h
  · exact .inl h
  · split at h
    · exact .inl h
    · rename_i activity hlaunch
      change touches (activity.await settings.timeout).running l at h
      refine hcontained.running hlaunch (activity.await settings.timeout).time l ?_
      rcases (await_spec activity settings.timeout).2 with hrunning | hrunning
      · exact .inl (hrunning ▸ h)
      · exact .inr (hrunning ▸ h)

end Turn

section Run

variable {s : Session machine.Running} {ordinal : Nat} {units before : List String}
  {files : FileTree} {l : Location}

/-- At no moment of a session anything has changed outside the output directories of the units that it
runs that is not touched by what ran before. -/
theorem lookup_moment (hcontained : engine.Contained machine touches)
    (h : Moment engine machine settings executable s ordinal units files)
    (hl : ∀ dir ∈ outputDirs settings.outputDirPrefix ordinal units,
      ¬ locate machine.workingDir dir <+: l)
    (htouches : ¬ touches s.running l) : files.lookup l = s.files.lookup l := by
  induction h with
  | rest => rfl
  | turn h =>
    rw [outputDirs, List.forall_mem_cons] at hl
    exact lookup_turnMoment hcontained h hl.1 htouches
  | later h ih =>
    rw [outputDirs, List.forall_mem_cons] at hl
    rw [ih hl.2, runUnit_files]
    · exact lookup_turnMoment hcontained turnMoment_attempt hl.1 htouches
    · rw [runUnit_running]
      exact fun h => (touches_attempt hcontained h).elim htouches hl.1

/-- The moments behind some units are moments of the session that runs these first. -/
theorem Moment.append
    (h : Moment engine machine settings executable
      (runUnits engine machine settings executable s ordinal before) (ordinal + before.length)
      units files) :
    Moment engine machine settings executable s ordinal (before ++ units) files := by
  induction before generalizing s ordinal with
  | nil => exact h
  | cons unit before ih =>
    rw [runUnits_cons, List.length_cons, Nat.add_comm before.length, ← Nat.add_assoc] at h
    exact .later (ih h)

theorem moment_runUnits (s : Session machine.Running) (ordinal : Nat) (units : List String) :
    Moment engine machine settings executable s ordinal units
      (runUnits engine machine settings executable s ordinal units).files := by
  induction units generalizing s ordinal with
  | nil => exact .rest
  | cons unit units ih => exact .later (ih _ _)

/-- Nothing outside the output directories of units is changed by running the units, but for what may be
touched by what ran before. -/
theorem lookup_runUnits_of_outside (hcontained : engine.Contained machine touches)
    (s : Session machine.Running) (ordinal : Nat) (units : List String)
    (hl : ∀ dir ∈ outputDirs settings.outputDirPrefix ordinal units,
      ¬ locate machine.workingDir dir <+: l) (htouches : ¬ touches s.running l) :
    (runUnits engine machine settings executable s ordinal units).files.lookup l
      = s.files.lookup l :=
  lookup_moment hcontained (moment_runUnits s ordinal units) hl htouches

end Run

end Moments

theorem lookup_attempt_of_outside (hconfined : engine.Confined machine) {running : machine.Running}
    {files : FileTree} {unit dir : String} {l : Location} (hl : ¬ locate machine.workingDir dir <+: l) :
    (attempt machine settings.timeout running files dir
        (engine.command executable unit dir)).files.lookup l = files.lookup l :=
  lookup_turnMoment hconfined.contained turnMoment_attempt hl id

end Session

section Scripted

/-- The files after a directory has been made and files have been put into it. -/
def leave (files : FileTree) (place : Location) (left : List (String × Bytes)) : FileTree :=
  left.foldl (fun t (name, content) => t.put (place ++ [name]) (.file content false))
    (files.put place .directory)

/-- A machine on which an engine leaves in its output directory what a script has for the unit. For
other units it does nothing. -/
def Machine.scripted (script : String → Option (List (String × Bytes))) : Machine where
  Running := Unit
  idle := ()
  workingDir := []
  searchPath := []
  launch _ files command :=
    match command.args with
    | [unit, dir] =>
      let after := match script unit with
        | some left => leave files (locate [] dir) left
        | none => files
      .ok { ending := some (0, .exited 0), files := fun _ => after
            running := fun _ => (), spared := fun _ => () }
    | _ => .error .invalidArgument

def Engine.scripted : Engine where
  name := "scripted"
  locate _ _ := .ok "engine"
  command program unit outputDir := { program, args := [unit, outputDir] }

theorem lookup_leave_of_outside {files : FileTree} {place l : Location}
    {left : List (String × Bytes)} (hl : ¬ place <+: l) :
    (leave files place left).lookup l = files.lookup l := by
  have hmade : (files.put place .directory).lookup l = files.lookup l :=
    FileTree.lookup_put_of_ne (fun e => hl (e ▸ List.prefix_refl _))
  rw [← hmade]
  unfold leave
  generalize files.put place .directory = t
  induction left generalizing t with
  | nil => rfl
  | cons head left ih =>
    rw [List.foldl_cons, ih]
    exact FileTree.lookup_put_of_ne fun e => hl (e ▸ List.prefix_append _ _)

/-- A scripted engine keeps to the output directory that it is given. -/
theorem scripted_confined (script : String → Option (List (String × Bytes))) :
    Engine.scripted.Confined (Machine.scripted script) := by
  intro executable unit dir running files activity hlaunch time l hl
  cases hlaunch
  show (match script unit with
    | some left => leave files (locate [] dir) left
    | none => files).lookup l = files.lookup l
  split
  · exact lookup_leave_of_outside hl
  · rfl

end Scripted

end CaseHarvest
