import CaseHarvest.Proofs.Files.Order
import CaseHarvest.Proofs.Files.Suffix
import CaseHarvest.Proofs.Record.Extract
import CaseHarvest.Session
/-!
What is collected from an output directory. Main statements: the paths that are collected are those of
regular files directly in the directory whose names have the extension (`mem_recordFiles_iff`), each once
and ascending by name, in whatever order the directory delivers them (`collectsInOrder`).
-/
namespace CaseHarvest.Session

open FileTree (locate way)

variable {files : FileTree} {cwd : Location} {extension dir : String} {found : List String}

/-- The names of the records among some entries of a directory, ascending. -/
def sortedRecords (extension : String) (entries : List (String × Entry)) : List String :=
  ((entries.filter fun (name, entry) => isRecordFile extension name entry).map (·.1)).mergeSort
    Record.nameLe

/-- What is directly in a directory is collected whenever the directory can be listed. -/
theorem recordFiles_eq_ok_iff :
    recordFiles files cwd extension dir = .ok found
      ↔ ∃ entries, files.list cwd dir = .ok entries
        ∧ found = (sortedRecords extension entries).map (Path.join dir) := by
  unfold recordFiles
  rw [bind_eq_ok_iff]
  constructor
  · rintro ⟨entries, hlist, hfound⟩
    exact ⟨entries, hlist, (Except.ok.inj hfound).symm⟩
  · rintro ⟨entries, hlist, rfl⟩
    exact ⟨entries, hlist, rfl⟩

theorem isRecordFile_iff {name : String} {entry : Entry} :
    isRecordFile extension name entry
      ↔ Path.extension? name = some extension ∧ ∃ content executable, entry = .file content executable := by
  cases entry <;> simp [isRecordFile]

theorem mem_sortedRecords {name : String} {entries : List (String × Entry)} :
    name ∈ sortedRecords extension entries
      ↔ Path.extension? name = some extension
        ∧ ∃ content executable, (name, .file content executable) ∈ entries := by
  unfold sortedRecords
  rw [List.mem_mergeSort, List.mem_map]
  constructor
  · rintro ⟨⟨_, entry⟩, hentry, rfl⟩
    obtain ⟨hmem, hrecord⟩ := List.mem_filter.1 hentry
    obtain ⟨hextension, content, executable, rfl⟩ := isRecordFile_iff.1 hrecord
    exact ⟨hextension, content, executable, hmem⟩
  · rintro ⟨hextension, content, executable, hmem⟩
    refine ⟨_, List.mem_filter.2 ⟨hmem, ?_⟩, rfl⟩
    exact isRecordFile_iff.2 ⟨hextension, content, executable, rfl⟩

/-- What is collected are the regular files directly in the directory whose names have the extension. -/
theorem mem_recordFiles_iff (h : recordFiles files cwd extension dir = .ok found) {path : String} :
    path ∈ found ↔ ∃ name content executable, path = Path.join dir name
      ∧ files.lookup (locate cwd dir ++ [name]) = some (.file content executable)
      ∧ Path.extension? name = some extension := by
  obtain ⟨entries, hlist, rfl⟩ := recordFiles_eq_ok_iff.1 h
  obtain ⟨-, -, -, rfl⟩ := FileTree.list_eq_ok_iff.1 hlist
  rw [List.mem_map]
  constructor
  · rintro ⟨name, hname, rfl⟩
    obtain ⟨hextension, content, executable, hmem⟩ := mem_sortedRecords.1 hname
    exact ⟨name, content, executable, rfl, FileTree.mem_children_iff.1 hmem, hextension⟩
  · rintro ⟨name, content, executable, rfl, hentry, hextension⟩
    refine ⟨name, mem_sortedRecords.2 ⟨hextension, content, executable, ?_⟩, rfl⟩
    exact FileTree.mem_children_iff.2 hentry

/-! ## Order -/

theorem sortedRecords_of_perm {entries entries' : List (String × Entry)} (h : entries.Perm entries') :
    sortedRecords extension entries = sortedRecords extension entries' := by
  unfold sortedRecords
  have hnames := (h.filter fun (name, entry) => isRecordFile extension name entry).map (·.1)
  have hsorted := ((List.mergeSort_perm _ Record.nameLe).trans hnames).trans
    (List.mergeSort_perm _ Record.nameLe).symm
  refine hsorted.eq_of_pairwise (fun a b _ _ hab hba => ?_) (Record.pairwise_mergeSort_nameLe _)
    (Record.pairwise_mergeSort_nameLe _)
  exact Bytes.ofString_injective (List.le_antisymm hab hba)

theorem ascending_sortedRecords {entries : List (String × Entry)} (h : (entries.map (·.1)).Nodup) :
    Record.Ascending (sortedRecords extension entries) := by
  have hnodup : (sortedRecords extension entries).Nodup := by
    have hnames := h.sublist ((List.filter_sublist
      (p := fun (name, entry) => isRecordFile extension name entry)).map (·.1))
    exact (List.mergeSort_perm _ Record.nameLe).nodup_iff.2 hnames
  refine ((Record.pairwise_mergeSort_nameLe _).and hnodup).imp fun ⟨hle, hne⟩ => ?_
  rcases List.le_iff_lt_or_eq.1 hle with hlt | heq
  · exact hlt
  · exact absurd (Bytes.ofString_injective heq) hne

/-- What is collected is the same for files in another order. -/
theorem recordFiles_reordered {files' : FileTree} (h : files.Reordered files') :
    recordFiles files cwd extension dir = recordFiles files' cwd extension dir := by
  have hlist := h.list cwd dir
  unfold recordFiles
  generalize files.list cwd dir = delivered at hlist ⊢
  generalize files'.list cwd dir = delivered' at hlist ⊢
  cases hlist with
  | error fault => rfl
  | ok hperm =>
    have hsame : sortedRecords extension _ = sortedRecords extension _ := sortedRecords_of_perm hperm
    exact congrArg (fun names => Except.ok (names.map (Path.join dir))) hsame

/-- What is collected from a directory, whatever the order in which it is delivered. -/
structure CollectsInOrder (files : FileTree) (cwd : Location) (extension dir : String) : Prop where
  /-- Each order can be the one of delivery. -/
  orders : ∀ entries order, files.list cwd dir = .ok entries → entries.Perm order →
    ∃ files', files.Reordered files' ∧ files'.list cwd dir = .ok order
  same : ∀ files', files.Reordered files' →
    recordFiles files' cwd extension dir = recordFiles files cwd extension dir
  ascending : ∀ entries, files.list cwd dir = .ok entries →
    ∃ names, recordFiles files cwd extension dir = .ok (names.map (Path.join dir))
      ∧ Record.Ascending names
      ∧ ∀ name, name ∈ names ↔ Path.extension? name = some extension
        ∧ ∃ content executable, files.lookup (locate cwd dir ++ [name]) = some (.file content executable)
  unlisted : ∀ fault, files.list cwd dir = .error fault →
    recordFiles files cwd extension dir = .error fault

theorem collectsInOrder (files : FileTree) (cwd : Location) (extension dir : String) :
    CollectsInOrder files cwd extension dir where
  orders entries order hlist hperm := by
    obtain ⟨hpath, hway, hdir, rfl⟩ := FileTree.list_eq_ok_iff.1 hlist
    obtain ⟨files', h, horder⟩ := FileTree.exists_delivering hperm
    refine ⟨files', h, FileTree.list_eq_ok_iff.2 ⟨hpath, fun p hp => ?_, ?_, horder.symm⟩⟩
    · exact (h.lookup p).symm.trans (hway p hp)
    · exact (h.lookup _).symm.trans hdir
  same files' h := (recordFiles_reordered h).symm
  ascending entries hlist := by
    refine ⟨_, recordFiles_eq_ok_iff.2 ⟨entries, hlist, rfl⟩, ?_⟩
    obtain ⟨-, -, -, rfl⟩ := FileTree.list_eq_ok_iff.1 hlist
    refine ⟨ascending_sortedRecords (FileTree.nodup_names_children _ _), fun name => ?_⟩
    simp only [mem_sortedRecords, FileTree.mem_children_iff]
  unlisted fault hlist := by
    unfold recordFiles
    rw [hlist]
    rfl

end CaseHarvest.Session
