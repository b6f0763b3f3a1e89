import CaseHarvest.Proofs.Session.Frame
/-!
The end of a session. Main statements: a session owns the output directory of each of its units
(`mem_dirs_runUnits`), and when it has been closed no path of these leads to a directory
(`removeAll_path`), nor is a directory left in the place of one, if directories can be removed
(`removeAll_place`).
-/
namespace CaseHarvest.Session

open FileTree (locate way)

variable {files : FileTree} {cwd l : Location} {dir : String} {dirs : List String}

/-- Each directory that is in the place of one to be removed can be removed when its turn comes. -/
def RemovesDirectories (cwd : Location) : FileTree → List String → Prop
  | _, [] => True
  | files, dir :: dirs =>
    (files.lookup (locate cwd dir) = some .directory →
        ∃ files', files.removeTree cwd dir = .ok files')
      ∧ RemovesDirectories cwd (removeAll cwd files [dir]).1 dirs

theorem removeAll_cons (cwd : Location) (files : FileTree) (dir : String) (dirs : List String) :
    (removeAll cwd files (dir :: dirs)).1
      = (removeAll cwd (removeAll cwd files [dir]).1 dirs).1 := by
  simp only [removeAll]
  cases files.removeTree cwd dir <;> rfl

theorem removeAll_single (cwd : Location) (files : FileTree) (dir : String) :
    (removeAll cwd files [dir]).1 = match files.removeTree cwd dir with
      | .ok files' => files'
      | .error _ => files := by
  simp only [removeAll]
  cases files.removeTree cwd dir <;> rfl

theorem lookup_of_lookup_removeAll {e : Entry}
    (h : (removeAll cwd files dirs).1.lookup l = some e) : files.lookup l = some e := by
  induction dirs generalizing files with
  | nil => exact h
  | cons dir dirs ih =>
    rw [removeAll_cons] at h
    have h := ih h
    rw [removeAll_single] at h
    split at h
    · rename_i files' hremove
      obtain ⟨-, -, -, rfl⟩ := FileTree.removeTree_eq_ok_iff.1 hremove
      exact FileTree.lookup_of_lookup_erase h
    · exact h

theorem lookup_removeAll_of_outside (hl : ∀ dir ∈ dirs, ¬ locate cwd dir <+: l) :
    (removeAll cwd files dirs).1.lookup l = files.lookup l := by
  induction dirs generalizing files with
  | nil => rfl
  | cons dir dirs ih =>
    rw [List.forall_mem_cons] at hl
    rw [removeAll_cons, ih hl.2, removeAll_single]
    split
    · rename_i files' hremove
      obtain ⟨-, -, -, rfl⟩ := FileTree.removeTree_eq_ok_iff.1 hremove
      exact FileTree.lookup_erase_of_not_prefix hl.1
    · rfl

/-- What a removal that succeeds has taken away. -/
theorem lookup_removeAll_single {files' : FileTree} (hroot : locate cwd dir ≠ [])
    (h : files.removeTree cwd dir = .ok files') :
    (removeAll cwd files [dir]).1.lookup (locate cwd dir) = none := by
  rw [removeAll_single, h]
  obtain ⟨-, -, -, rfl⟩ := FileTree.removeTree_eq_ok_iff.1 h
  rw [FileTree.lookup_erase_of_ne_root hroot, if_pos (List.prefix_refl _)]

/-- When directories have been removed, none of their paths leads to a directory. -/
theorem removeAll_path (hroot : ∀ dir ∈ dirs, locate cwd dir ≠ []) (hdir : dir ∈ dirs) :
    ¬ ∃ l, (removeAll cwd files dirs).1.resolve cwd dir = .ok l
      ∧ (removeAll cwd files dirs).1.lookup l = some .directory := by
  rw [FileTree.resolve_directory_iff]
  rintro ⟨hpath, hway, hplace⟩
  induction dirs generalizing files with
  | nil => cases hdir
  | cons head dirs ih =>
    rw [List.forall_mem_cons] at hroot
    rw [removeAll_cons] at hway hplace
    rcases List.mem_cons.1 hdir with rfl | hdir
    · -- A directory at the end of the path would have been taken away.
      have hthere : files.lookup (locate cwd dir) = some .directory :=
        lookup_of_lookup_removeAll (lookup_of_lookup_removeAll hplace)
      have hremove := FileTree.removeTree_eq_ok_iff.2 ⟨hpath,
        fun p hp => lookup_of_lookup_removeAll (lookup_of_lookup_removeAll (hway p hp)),
        .inl hthere, rfl⟩
      have hgone := lookup_removeAll_single hroot.1 hremove
      rw [lookup_of_lookup_removeAll hplace] at hgone
      cases hgone
    · exact ih hroot.2 hdir hway hplace

/-- When directories have been removed, none is left in their places, if they can be removed. -/
theorem removeAll_place (hroot : ∀ dir ∈ dirs, locate cwd dir ≠ [])
    (hremoves : RemovesDirectories cwd files dirs) (hdir : dir ∈ dirs) :
    (removeAll cwd files dirs).1.lookup (locate cwd dir) ≠ some .directory := by
  intro hplace
  induction dirs generalizing files with
  | nil => cases hdir
  | cons head dirs ih =>
    rw [List.forall_mem_cons] at hroot
    rw [removeAll_cons] at hplace
    rcases List.mem_cons.1 hdir with rfl | hdir
    · obtain ⟨files', hremove⟩ :=
        hremoves.1 (lookup_of_lookup_removeAll (lookup_of_lookup_removeAll hplace))
      have hgone := lookup_removeAll_single hroot.1 hremove
      rw [lookup_of_lookup_removeAll hplace] at hgone
      cases hgone
    · exact ih hroot.2 hremoves.2 hdir hplace

/-- Directories whose paths are not refused and never lead up can be removed in any order. -/
theorem removesDirectories_of_no_up {namePrefix : String}
    (hdirs : ∀ dir ∈ dirs, ∃ unit position, dir = unitOutputDir namePrefix unit position)
    (hpath : ∀ dir ∈ dirs, FileTree.Followable dir) (hup : ∀ dir ∈ dirs, ".." ∉ Path.pieces dir) :
    RemovesDirectories cwd files dirs := by
  induction dirs generalizing files with
  | nil => trivial
  | cons dir dirs ih =>
    rw [List.forall_mem_cons] at hdirs hpath hup
    refine ⟨fun hplace => ?_, ih hdirs.2 hpath.2 hup.2⟩
    obtain ⟨unit, position, rfl⟩ := hdirs.1
    have hway (p : Location) (hp : p ∈ way cwd (unitOutputDir namePrefix unit position)) :
        files.lookup p = some .directory := by
      have hpre := FileTree.prefix_of_mem_way hup.1 hp
      have hroot : 0 < (locate cwd (unitOutputDir namePrefix unit position)).length :=
        List.length_pos_iff.2 (FileTree.locate_unitOutputDir_ne_root _ _ _)
      refine FileTree.lookup_above (by rw [hplace]; rfl) (hpre.trans (List.dropLast_prefix _)) ?_
      intro e
      have hlength := hpre.length_le
      rw [List.length_dropLast, e] at hlength
      omega
    exact ⟨_, FileTree.removeTree_eq_ok_iff.2 ⟨hpath.1, hway, .inl hplace, rfl⟩⟩

variable {engine : Engine} {machine : Machine} {settings : Settings} {executable : String}

theorem mem_dirs_own (s : Session machine.Running) (dir dir' : String) :
    dir ∈ (s.own dir').dirs ↔ dir ∈ s.dirs ∨ dir = dir' := by
  unfold own
  split
  · rename_i hmem
    exact ⟨.inl, fun h => h.elim id fun e => e ▸ hmem⟩
  · simp

theorem dirs_runUnit (s : Session machine.Running) (unit : String) (ordinal : Nat) :
    (runUnit engine machine settings executable s unit ordinal).dirs
      = (s.own (unitOutputDir settings.outputDirPrefix unit ordinal)).dirs := by
  simp only [runUnit, runInto]

/-- A session owns the output directories of its units. -/
theorem mem_dirs_runUnits (s : Session machine.Running) (ordinal : Nat) (units : List String)
    (dir : String) :
    dir ∈ (runUnits engine machine settings executable s ordinal units).dirs
      ↔ dir ∈ s.dirs ∨ dir ∈ outputDirs settings.outputDirPrefix ordinal units := by
  induction units generalizing s ordinal with
  | nil => simp [runUnits_nil, outputDirs]
  | cons unit units ih =>
    rw [runUnits_cons, ih, dirs_runUnit, mem_dirs_own, outputDirs, List.mem_cons, or_assoc]

end CaseHarvest.Session
