import CaseHarvest.Proofs.Harvest.Balance
import CaseHarvest.Proofs.Session.Collection
/-!
Which inputs and which files count by their suffix. Main statements: an input is a unit if it is there and
its last name has the suffix, and a file of an output directory is a record if its name has the suffix, both
for each suffix without a dot and for no other (`counts_by_suffix`). What has a suffix with a dot in it is told
not to have it (`dotted_suffix_counts_nothing`).
-/
namespace CaseHarvest

open FileTree (locate)
open CaseHarvest.Path (HasSuffix)

variable {files : FileTree} {cwd : Location} {suffix : String}

/-- What inputs come to: units are those that are there and have the suffix, if there is no dot in it. -/
structure SelectsBySuffix (files : FileTree) (cwd : Location) (suffix : String) (inputs : List String) :
    Prop where
  units : (selectUnits files cwd suffix inputs).1 = inputs.filter fun path =>
    HasSuffix path suffix ∧ '.' ∉ suffix.toList ∧ files.exists? cwd path
  skipped : (selectUnits files cwd suffix inputs).2 = inputs.filterMap fun path =>
    if HasSuffix path suffix ∧ '.' ∉ suffix.toList then
      if files.exists? cwd path then none else some ⟨path, .missing⟩
    else some ⟨path, .wrongExtension⟩

/-- What is collected from a directory whenever its entries can be told: its regular files whose names have
the suffix, if there is no dot in it. -/
structure CollectsBySuffix (files : FileTree) (cwd : Location) (suffix dir : String) : Prop where
  listed : (∃ found, Session.recordFiles files cwd suffix dir = .ok found)
    ↔ ∃ entries, files.list cwd dir = .ok entries
  found : ∀ found, Session.recordFiles files cwd suffix dir = .ok found →
    ∀ path, path ∈ found ↔ ∃ stem content executable, stem ≠ "" ∧ '.' ∉ suffix.toList
      ∧ path = Path.join dir (stem ++ "." ++ suffix)
      ∧ files.lookup (locate cwd dir ++ [stem ++ "." ++ suffix]) = some (.file content executable)

theorem skipReason?_eq (path : String) :
    skipReason? files cwd suffix path
      = if HasSuffix path suffix ∧ '.' ∉ suffix.toList then
          if files.exists? cwd path then none else some .missing
        else some .wrongExtension := by
  unfold skipReason?
  by_cases hsuffix : Path.extension? path = some suffix
  · rw [if_neg (not_not_intro hsuffix), if_pos (Path.extension?_eq_some_iff.1 hsuffix)]
    cases files.exists? cwd path <;> rfl
  · rw [if_pos hsuffix, if_neg fun h => hsuffix (Path.extension?_eq_some_iff.2 h)]

theorem selectsBySuffix (inputs : List String) : SelectsBySuffix files cwd suffix inputs where
  units := by
    rw [selectUnits_fst]
    apply List.filter_congr
    intro path _
    rw [skipReason?_eq]
    by_cases hsuffix : HasSuffix path suffix ∧ '.' ∉ suffix.toList
    · rw [if_pos hsuffix]
      cases hthere : files.exists? cwd path <;> simp [hsuffix]
    · rw [if_neg hsuffix]
      have hno : ¬ (HasSuffix path suffix ∧ '.' ∉ suffix.toList ∧ files.exists? cwd path) :=
        fun h => hsuffix ⟨h.1, h.2.1⟩
      simp [hno]
  skipped := by
    rw [selectUnits_snd]
    congr 1
    funext path
    rw [skipReason?_eq]
    split
    · cases files.exists? cwd path <;> rfl
    · rfl

theorem collectsBySuffix (dir : String) : CollectsBySuffix files cwd suffix dir where
  listed := by
    constructor
    · rintro ⟨found, hfound⟩
      obtain ⟨entries, hlist, -⟩ := Session.recordFiles_eq_ok_iff.1 hfound
      exact ⟨entries, hlist⟩
    · rintro ⟨entries, hlist⟩
      exact ⟨_, Session.recordFiles_eq_ok_iff.2 ⟨entries, hlist, rfl⟩⟩
  found := by
    intro found hfound path
    rw [Session.mem_recordFiles_iff hfound]
    constructor
    · rintro ⟨name, content, executable, rfl, hentry, hextension⟩
      obtain ⟨hsuffix, hdot⟩ := Path.extension?_eq_some_iff.1 hextension
      have hname : Path.isName name := FileTree.isName_of_lookup (by rw [hentry]; rfl) _ List.mem_concat_self
      obtain ⟨stem, hstem, rfl⟩ := (Path.hasSuffix_iff_of_isName hname).1 hsuffix
      exact ⟨stem, content, executable, hstem, hdot, rfl, hentry⟩
    · rintro ⟨stem, content, executable, hstem, hdot, rfl, hentry⟩
      refine ⟨_, content, executable, rfl, hentry, ?_⟩
      have hname : Path.isName (stem ++ "." ++ suffix) :=
        FileTree.isName_of_lookup (by rw [hentry]; rfl) _ List.mem_concat_self
      exact Path.extension?_eq_some_iff.2
        ⟨(Path.hasSuffix_iff_of_isName hname).2 ⟨stem, hstem, rfl⟩, hdot⟩

theorem counts_by_suffix (files : FileTree) (cwd : Location) (suffix : String) :
    (∀ inputs, SelectsBySuffix files cwd suffix inputs)
      ∧ ∀ dir, CollectsBySuffix files cwd suffix dir :=
  ⟨fun inputs => selectsBySuffix inputs, fun dir => collectsBySuffix dir⟩

/-- A unit and a record whose suffixes have two parts. -/
def dottedFiles : FileTree :=
  ((FileTree.empty.put ["f.bc.ll"] (.file [] false)).put ["out"] .directory).put
    ["out", "t.seed.ktest"] (.file [] false)

/-- Both have their suffixes, and neither counts. -/
theorem dotted_suffix_counts_nothing :
    (HasSuffix "f.bc.ll" "bc.ll" ∧ dottedFiles.exists? [] "f.bc.ll"
        ∧ selectUnits dottedFiles [] "bc.ll" ["f.bc.ll"] = ([], [⟨"f.bc.ll", .wrongExtension⟩]))
      ∧ HasSuffix "t.seed.ktest" "seed.ktest"
      ∧ dottedFiles.lookup ["out", "t.seed.ktest"] = some (.file [] false)
      ∧ Session.recordFiles dottedFiles [] "seed.ktest" "out" = .ok [] := by
  decide +kernel

end CaseHarvest
