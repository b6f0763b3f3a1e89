import CaseHarvest.Proofs.Files.Write
/-!
A file that is put where nothing was. Main statements: it can be written again and taken away
without a trace (`IsVacant.put_put`, `IsVacant.erase_put`), and no path that ends elsewhere shows
anything of it (`WithFile.showsSame`).
-/
namespace CaseHarvest.FileTree

/-- Nothing stands at a location, and a file can be put there. -/
structure IsVacant (t : FileTree) (l : Location) : Prop where
  root : l ≠ []
  named : ∀ piece ∈ l, Path.isName piece
  parent : t.lookup l.dropLast = some .directory
  absent : t.lookup l = none

/-- The trees that differ from another one in a file at a location. -/
def WithFile (t : FileTree) (l : Location) (content : Bytes) (t' : FileTree) : Prop :=
  ∀ k, t'.lookup k = if k = l then some (.file content false) else t.lookup k

variable {t t' : FileTree} {cwd l : Location} {path : String} {content content' : Bytes}

theorem IsVacant.ne_parent (h : IsVacant t l) : l ≠ l.dropLast := by
  intro e
  have hparent := h.parent
  rw [← e, h.absent] at hparent
  cases hparent

theorem IsVacant.admits (h : IsVacant t l) (content : Bytes) : t.Admits l (.file content false) :=
  ⟨h.root, h.named, h.parent, fun e => by rw [h.absent] at e; cases e⟩

theorem IsVacant.withFile (h : IsVacant t l) (content : Bytes) :
    WithFile t l content (t.put l (.file content false)) :=
  lookup_put (h.admits content)

/-- Where a file was put it can be put again with another content. -/
theorem IsVacant.put_put (h : IsVacant t l) (content content' : Bytes) :
    (t.put l (.file content false)).put l (.file content' false)
      = t.put l (.file content' false) := by
  have hfile := h.withFile content
  have hparent : (t.put l (.file content false)).lookup l.dropLast = some .directory := by
    rw [hfile, if_neg h.ne_parent.symm, h.parent]
  have hadmits : (t.put l (.file content false)).Admits l (.file content' false) :=
    ⟨h.root, h.named, hparent, fun e => by rw [hfile, if_pos rfl] at e; cases e⟩
  apply eq_of_entries
  rw [entries_put hadmits, entries_put (h.admits content), entries_put (h.admits content')]
  exact Entries.put_put l _ _ t.entries

/-- A file that was put where nothing was can be taken away again without a trace. -/
theorem IsVacant.erase_put (h : IsVacant t l) (content : Bytes) :
    (t.put l (.file content false)).erase l = t := by
  apply eq_of_entries
  show Entries.drop l (t.put l (.file content false)).entries = t.entries
  rw [entries_put (h.admits content)]
  exact Entries.drop_put (fun k hk => not_prefix_of_mem_locations h.absent hk) _

theorem WithFile.withEntry (ht : WithFile t l content t') : WithEntry t l (.file content false) t' :=
  ht

theorem WithFile.directory_iff (ht : WithFile t l content t') (hl : t.lookup l ≠ some .directory)
    (k : Location) : t'.lookup k = some .directory ↔ t.lookup k = some .directory :=
  ht.withEntry.directory_iff hl nofun k

/-- Trees with different contents in the same file have the same shape. -/
theorem WithFile.sameShape (ht : WithFile t l content t') {t'' : FileTree}
    (ht' : WithFile t l content' t'') : SameShape t' t'' := by
  constructor
  · intro k
    unfold isDirectory
    rw [ht, ht']
    split <;> rfl
  · intro k
    rw [ht, ht']
    split <;> rfl

/-- A path shows in a second tree what it shows in a first one: at its end stands the same, and the
same is read. -/
structure ShowsSame (cwd : Location) (path : String) (t t' : FileTree) : Prop where
  entry : t'.lookup (locate cwd path) = t.lookup (locate cwd path)
  content : (t'.read cwd path).toOption = (t.read cwd path).toOption

theorem ShowsSame.refl (cwd : Location) (path : String) (t : FileTree) : ShowsSame cwd path t t :=
  ⟨rfl, rfl⟩

/-- A new file does not show at a path that ends elsewhere, nor does it open or close its way. -/
theorem WithFile.showsSame (ht : WithFile t l content t') (hl : t.lookup l = none)
    (hne : l ≠ locate cwd path) : ShowsSame cwd path t t' := by
  have hend : t'.lookup (locate cwd path) = t.lookup (locate cwd path) := by
    rw [ht, if_neg hne.symm]
  refine ⟨hend, toOption_congr fun content => ?_⟩
  exact ht.withEntry.read_elsewhere (by rw [hl]; nofun) nofun hne.symm

/-- A new file does not change where a file can be moved to. -/
theorem WithFile.resolveMove_eq_ok_iff (ht : WithFile t l content t') (hl : t.lookup l = none)
    {target : Location} :
    t'.resolveMove cwd path = .ok target ↔ t.resolveMove cwd path = .ok target := by
  have hdirectory := ht.directory_iff (by rw [hl]; nofun)
  rw [FileTree.resolveMove_eq_ok_iff, FileTree.resolveMove_eq_ok_iff]
  simp only [ne_eq, hdirectory]

end CaseHarvest.FileTree
