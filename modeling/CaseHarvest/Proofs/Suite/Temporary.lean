import CaseHarvest.Proofs.Files.Vacant
import CaseHarvest.Suite.Persist
/-!
The temporary file of a path. Main statements: the name that it is given is free
(`isFree_temporaryName`), and under a free name it stands where nothing was and where the path does
not end (`IsFree.isVacant`, `IsFree.ne_locate`).
-/
namespace CaseHarvest.TestSuite

open FileTree

variable {files : FileTree} {cwd temporary : Location} {path name : String}

theorem le_longest (names : List String) (n : Nat) :
    n ≤ names.foldl (fun n name => max n name.length) n := by
  induction names generalizing n with
  | nil => exact Nat.le_refl n
  | cons head rest ih => exact Nat.le_trans (Nat.le_max_left _ _) (ih _)

theorem length_le_longest {names : List String} (h : name ∈ names) (n : Nat) :
    name.length ≤ names.foldl (fun n name => max n name.length) n := by
  induction names generalizing n with
  | nil => cases h
  | cons head rest ih =>
    rcases List.mem_cons.1 h with rfl | h
    · exact Nat.le_trans (Nat.le_max_right n _) (le_longest rest _)
    · exact ih h _

theorem freshName_not_mem (others : List String) : freshName others ∉ others := by
  unfold freshName
  by_cases husual : usualTemporary ∈ others
  · rw [if_pos husual]
    intro h
    have hlength := length_le_longest h 0
    rw [String.length_ofList] at hlength
    simp only [List.length_cons, List.length_replicate] at hlength
    omega
  · rwa [if_neg husual]

theorem isName_freshName (others : List String) : Path.isName (freshName others) := by
  unfold freshName
  split
  · rw [Path.isName_iff]
    generalize List.foldl _ 0 _ = longest
    have hchars : (String.ofList ('.' :: 't' :: 'm' :: 'p' :: List.replicate longest 'X')).toList
        = '.' :: 't' :: 'm' :: 'p' :: List.replicate longest 'X' := String.toList_ofList
    have hne {text : String} (h : text.toList.length < 4) :
        String.ofList ('.' :: 't' :: 'm' :: 'p' :: List.replicate longest 'X') ≠ text := by
      rintro rfl
      rw [hchars] at h
      simp only [List.length_cons] at h
      omega
    refine ⟨?_, hne (by decide), ?_, ?_⟩
    · simp only [Path.isIdle, Bool.or_eq_false_iff, decide_eq_false_iff_not]
      exact ⟨hne (by decide), hne (by decide)⟩
    · simp [List.mem_replicate]
    · simp [List.mem_replicate]
  · decide

/-- A name that the temporary file of a path can have: nothing has it in the directory in which the
path ends, and the path does not end in it either. -/
structure IsFree (files : FileTree) (cwd : Location) (path name : String) : Prop where
  isName : Path.isName name
  unused : ∀ dir, files.resolve cwd (Path.directory path) = .ok dir →
    files.lookup (dir ++ [name]) = none
  other : ∀ dir, files.resolve cwd (Path.directory path) = .ok dir →
    dir ++ [name] ≠ locate cwd path

theorem isFree_of_not_mem (hname : Path.isName name) (h : name ∉ takenNames files cwd path) :
    IsFree files cwd path name := by
  rw [takenNames, List.mem_append, List.mem_append, not_or, not_or] at h
  obtain ⟨⟨hcwd, hpieces⟩, hbeside⟩ := h
  refine ⟨hname, fun dir hdir => ?_, fun dir hdir hsame => ?_⟩
  · simp only [hdir] at hbeside
    cases hentry : files.lookup (dir ++ [name]) with
    | none => rfl
    | some e => exact absurd (List.mem_map_of_mem (mem_children_iff.2 hentry)) hbeside
  · -- The path would have to start from a directory of that name.
    have hend : dir ++ [name] <+: locate cwd path := hsame.symm ▸ List.prefix_refl _
    have hstart : dir ++ [name] <+: origin cwd path := prefix_of_foldl_follow hpieces hend
    have hmem : name ∈ origin cwd path :=
      hstart.subset (List.mem_append_right _ (List.mem_singleton_self _))
    unfold origin at hmem
    split at hmem
    · cases hmem
    · exact hcwd hmem

theorem isFree_temporaryName (files : FileTree) (cwd : Location) (path : String) :
    IsFree files cwd path (temporaryName files cwd path) :=
  isFree_of_not_mem (isName_freshName _) (freshName_not_mem _)

theorem temporaryLocation_eq_ok_iff :
    temporaryLocation files cwd path name = .ok temporary
      ↔ checkPath (temporaryPath cwd path) = .ok ()
        ∧ ∃ dir, files.resolve cwd (Path.directory path) = .ok dir
          ∧ files.lookup dir = some .directory ∧ temporary = dir ++ [name] := by
  unfold temporaryLocation
  simp only [bind_eq_ok_iff]
  constructor
  · rintro ⟨⟨⟩, hshort, dir, hdir, h⟩
    split at h
    · rename_i hdirectory
      exact ⟨hshort, dir, hdir, isDirectory_iff.1 hdirectory, (Except.ok.inj h).symm⟩
    · cases h
  · rintro ⟨hshort, dir, hdir, hdirectory, rfl⟩
    exact ⟨(), hshort, dir, hdir, by rw [if_pos (isDirectory_iff.2 hdirectory)]⟩

theorem IsFree.isVacant (hfree : IsFree files cwd path name)
    (h : temporaryLocation files cwd path name = .ok temporary) : IsVacant files temporary := by
  obtain ⟨-, dir, hdir, hdirectory, rfl⟩ := temporaryLocation_eq_ok_iff.1 h
  refine ⟨by simp, fun piece hpiece => ?_, ?_, hfree.unused dir hdir⟩
  · rcases List.mem_append.1 hpiece with hpiece | hpiece
    · exact isName_of_lookup (by rw [hdirectory]; rfl) piece hpiece
    · exact List.mem_singleton.1 hpiece ▸ hfree.isName
  · rw [List.dropLast_concat]
    exact hdirectory

theorem IsFree.ne_locate (hfree : IsFree files cwd path name)
    (h : temporaryLocation files cwd path name = .ok temporary) : temporary ≠ locate cwd path := by
  obtain ⟨-, dir, hdir, -, rfl⟩ := temporaryLocation_eq_ok_iff.1 h
  exact hfree.other dir hdir

end CaseHarvest.TestSuite
