import CaseHarvest.Proofs.Files.Move
/-!
Writing a file by its path. Main statements: a file can be written to the location that its path
spells, if that is a name in a directory that is there and no directory has that name
(`resolveNew_eq_ok`); where no link has a part in it, it can then be read by that path, and nothing else
has changed (`wrote_of_write`, `Wrote.read`, `Wrote.read_elsewhere`); what a device that breaks the
writing off leaves (`left_of_writeOn`).
-/
namespace CaseHarvest

/-- The last piece of a path, behind some others, can be the name of an entry. -/
structure Path.EndsIn (path : String) (init : List String) (name : String) : Prop where
  pieces : Path.pieces path = init ++ [name]
  moves : Path.isIdle name = false
  notUp : name ≠ ".."

namespace FileTree

variable {t t' : FileTree} {cwd l : Location} {path other : String} {content : Bytes}

/-- A path that leads to something else than a directory ends in a name. -/
theorem exists_endsIn (hway : ∀ p ∈ way cwd path, t.lookup p = some .directory)
    (hend : t.lookup (locate cwd path) ≠ some .directory) :
    ∃ init name, Path.EndsIn path init name := by
  obtain ⟨init, name, hpieces⟩ : ∃ init name, Path.pieces path = init ++ [name] :=
    ⟨_, _, (List.dropLast_concat_getLast (Path.pieces_ne_nil path)).symm⟩
  have hdir : t.lookup (init.foldl follow (origin cwd path)) = some .directory := by
    apply hway
    simp [way_of_pieces hpieces]
  have hlocate : locate cwd path = follow (init.foldl follow (origin cwd path)) name := by
    simp [locate, hpieces]
  refine ⟨init, name, hpieces, Bool.eq_false_iff.2 fun hidle => ?_, fun hup => ?_⟩
  · rw [hlocate, follow_idle hidle] at hend
    exact hend hdir
  · rw [hlocate, hup, follow_up] at hend
    exact hend (lookup_dropLast (by rw [hdir]; rfl))

/-- The path of a file ends in a name. -/
theorem exists_endsIn_of_read (h : t.read cwd path = .ok content) :
    ∃ init name, Path.EndsIn path init name := by
  obtain ⟨-, hway, hread⟩ := read_eq_ok_iff.1 h
  apply exists_endsIn hway
  intro hdir
  rw [hdir] at hread
  cases hread

theorem resolveNew_checks (h : t.resolveNew cwd path = .ok l) :
    ∃ init name dir, Path.EndsIn path init name ∧ checkPath path = .ok ()
      ∧ t.walk (origin cwd path) init = .ok dir ∧ t.lookup dir = some .directory
      ∧ name.utf8ByteSize ≤ maxName ∧ t.lookup (dir ++ [name]) ≠ some .directory
      ∧ l = dir ++ [name] := by
  obtain ⟨⟨dir, name⟩, hparent, h⟩ := bind_eq_ok_iff.1 h
  obtain ⟨⟨⟩, hchecked, hparent⟩ := bind_eq_ok_iff.1 hparent
  obtain ⟨dir', hwalk, hparent⟩ := bind_eq_ok_iff.1 hparent
  obtain ⟨init, last, hpieces⟩ : ∃ init last, Path.pieces path = init ++ [last] :=
    ⟨_, _, (List.dropLast_concat_getLast (Path.pieces_ne_nil path)).symm⟩
  split at hparent
  · rename_i hdir
    rw [hpieces, List.getLastD_concat] at hparent
    rw [hpieces, List.dropLast_concat] at hwalk
    cases hparent
    dsimp only at h
    split at h
    · cases h
    rename_i hmoves
    split at h
    · cases h
    rename_i hshort
    split at h
    · cases h
    rename_i hfile
    cases h
    obtain ⟨hidle, hup⟩ := not_or.1 hmoves
    refine ⟨init, name, dir, ⟨hpieces, Bool.eq_false_iff.2 hidle, hup⟩, hchecked, hwalk,
      isDirectory_iff.1 hdir, Nat.le_of_not_lt hshort, ?_, rfl⟩
    simpa [isDirectory_iff] using hfile
  · cases hparent

/-- Where a file of a path can be written. -/
theorem resolveNew_eq_ok (h : t.resolveNew cwd path = .ok l) :
    Followable path ∧ (∃ init name, Path.EndsIn path init name)
      ∧ (∀ p ∈ way cwd path, t.lookup p = some .directory)
      ∧ t.lookup (locate cwd path) ≠ some .directory ∧ l = locate cwd path := by
  obtain ⟨init, name, dir, hends, hchecked, hwalk, hdir, hshort, hfile, rfl⟩ := resolveNew_checks h
  obtain ⟨hshorts, rfl, hway⟩ := walk_eq_ok hwalk
  have hlocate : locate cwd path = init.foldl follow (origin cwd path) ++ [name] :=
    locate_of_pieces hends.pieces hends.moves hends.notUp
  refine ⟨⟨hchecked, ?_⟩, ⟨init, name, hends⟩, ?_, hlocate ▸ hfile, hlocate.symm⟩
  · rw [hends.pieces, List.forall_mem_append, List.forall_mem_singleton]
    exact ⟨hshorts, hshort⟩
  · rw [way_of_pieces hends.pieces, List.forall_mem_append, List.forall_mem_singleton]
    exact ⟨hway, hdir⟩

/-- A file at one location neither shows at a path that ends elsewhere, nor does it open or close its
way. -/
theorem WithEntry.read_elsewhere {e : Entry} (h : WithEntry t l e t')
    (hl : t.lookup l ≠ some .directory) (he : e ≠ .directory) (hne : locate cwd other ≠ l)
    {held : Bytes} : t'.read cwd other = .ok held ↔ t.read cwd other = .ok held := by
  have hend : t'.lookup (locate cwd other) = t.lookup (locate cwd other) := by
    rw [h, if_neg hne]
  rw [read_eq_ok_iff, read_eq_ok_iff, hend]
  simp only [h.directory_iff hl he]

/-- What is written to a location stays there and is seen nowhere else: it is not a link or a pipe, and no
link leads to it. -/
def IsPlain (t : FileTree) (l : Location) : Prop :=
  (t.lookup l).all (fun e => e.target? = none && e ≠ .pipe) ∧ ∀ p ∈ t.entries, p.2.target? ≠ some l

instance (t : FileTree) (l : Location) : Decidable (t.IsPlain l) :=
  inferInstanceAs (Decidable (_ ∧ _))

theorem isPlain_iff : t.IsPlain l
    ↔ (∀ e, t.lookup l = some e → e.target? = none ∧ e ≠ .pipe)
      ∧ ∀ k e, t.lookup k = some e → e.target? ≠ some l := by
  refine and_congr ?_ ⟨fun h k e he => ?_, fun h p hp => ?_⟩
  · cases t.lookup l with
    | none => simp
    | some e => simp
  · by_cases hk : k = []
    · subst hk
      cases he
      exact nofun
    · exact h (k, e) ((lookup_eq_some_iff hk).1 he)
  · have hroot : p.1 ≠ [] := (t.wellPlaced.rooted p.1 (List.mem_map_of_mem hp)).1
    exact h p.1 p.2 ((lookup_eq_some_iff hroot).2 hp)

/-- A file that comes to stand somewhere leaves plain what is plain. -/
theorem IsPlain.of_withEntry {place : Location} {executable : Bool} (h : t.IsPlain l)
    (hwith : WithEntry t place (.file content executable) t') : t'.IsPlain l := by
  obtain ⟨hown, hothers⟩ := isPlain_iff.1 h
  refine isPlain_iff.2 ⟨fun e he => ?_, fun k e he => ?_⟩
  · rw [hwith] at he
    split at he
    · cases he
      exact ⟨rfl, nofun⟩
    · exact hown e he
  · rw [hwith] at he
    split at he
    · cases he
      exact nofun
    · exact hothers k e he

/-- A plain location is given its content as a file, and nothing else changes. -/
theorem withEntry_of_writeAt (hplain : t.IsPlain l)
    (hadmits : ∀ executable, t.Admits l (.file content executable))
    (h : t.writeAt l content = .ok t') : ∃ executable, WithEntry t l (.file content executable) t' := by
  obtain ⟨hown, hothers⟩ := isPlain_iff.1 hplain
  have hfill : t' = t.fill l content := by
    unfold writeAt at h
    split at h
    · rename_i he
      cases (hown _ he).1
    · rename_i he
      exact absurd rfl (hown _ he).2
    · exact (Except.ok.inj h).symm
  refine ⟨t.executableAt l, fun k => ?_⟩
  rw [hfill, fill, lookup_showing, lookup_put (hadmits _)]
  by_cases hk : k = l
  · rw [if_pos hk]
    rfl
  · rw [if_neg hk]
    cases he : t.lookup k with
    | none => rfl
    | some e => exact congrArg some (Entry.showing_of_not_target (hothers k e he) content)

/-- A path has been given a content: it leads to a file that has it, and all else is as before. -/
structure Wrote (t : FileTree) (cwd : Location) (path : String) (content : Bytes) (t' : FileTree) :
    Prop where
  followable : Followable path
  way : ∀ p ∈ way cwd path, t.lookup p = some .directory
  free : t.lookup (locate cwd path) ≠ some .directory
  file : ∃ executable, WithEntry t (locate cwd path) (.file content executable) t'

theorem wrote_of_write (hplain : t.IsPlain (locate cwd path)) (h : t.write cwd path content = .ok t') :
    Wrote t cwd path content t' := by
  obtain ⟨l, hnew, h⟩ := bind_eq_ok_iff.1 h
  obtain ⟨hpath, ⟨init, name, hends⟩, hway, hfree, rfl⟩ := resolveNew_eq_ok hnew
  have hlocate : locate cwd path = init.foldl follow (origin cwd path) ++ [name] :=
    locate_of_pieces hends.pieces hends.moves hends.notUp
  have hdir : t.lookup (init.foldl follow (origin cwd path)) = some .directory := by
    apply hway
    simp [way_of_pieces hends.pieces]
  have hisName : Path.isName name := by
    apply Path.isName_of_mem_pieces (checkPath_eq_ok_iff.1 hpath.checked).1 _ hends.moves hends.notUp
    simp [hends.pieces]
  have hadmits (executable : Bool) : t.Admits (locate cwd path) (.file content executable) := by
    refine ⟨by simp [hlocate], fun piece hpiece => ?_, by simpa [hlocate] using hdir,
      fun e => absurd e hfree⟩
    rw [hlocate, List.mem_append, List.mem_singleton] at hpiece
    rcases hpiece with hpiece | rfl
    · exact isName_of_lookup (by rw [hdir]; rfl) piece hpiece
    · exact hisName
  exact ⟨hpath, hway, hfree, withEntry_of_writeAt hplain hadmits h⟩

theorem Wrote.isPlain (h : Wrote t cwd path content t') (hplain : t.IsPlain l) : t'.IsPlain l := by
  obtain ⟨executable, hfile⟩ := h.file
  exact hplain.of_withEntry hfile

theorem Wrote.directory_iff (h : Wrote t cwd path content t') (k : Location) :
    t'.lookup k = some .directory ↔ t.lookup k = some .directory := by
  obtain ⟨executable, hfile⟩ := h.file
  exact hfile.directory_iff h.free nofun k

theorem Wrote.lookup_elsewhere (h : Wrote t cwd path content t') (hl : l ≠ locate cwd path) :
    t'.lookup l = t.lookup l := by
  obtain ⟨executable, hfile⟩ := h.file
  rw [hfile, if_neg hl]

/-- What has been written can be read. -/
theorem Wrote.read (h : Wrote t cwd path content t') : t'.read cwd path = .ok content := by
  obtain ⟨executable, hfile⟩ := h.file
  refine read_eq_ok_iff.2 ⟨h.followable, fun p hp => (h.directory_iff p).2 (h.way p hp), ?_⟩
  rw [hfile, if_pos rfl]
  rfl

theorem Wrote.read_elsewhere (h : Wrote t cwd path content t')
    (hne : locate cwd other ≠ locate cwd path) {held : Bytes} :
    t'.read cwd other = .ok held ↔ t.read cwd other = .ok held := by
  obtain ⟨executable, hfile⟩ := h.file
  exact hfile.read_elsewhere h.free nofun hne

/-- A write that a device does not break off is a write. -/
theorem wrote_of_writeOn {breakdown : Option Breakdown} (hplain : t.IsPlain (locate cwd path))
    (h : t.writeOn breakdown cwd path content = (t', .ok ())) : Wrote t cwd path content t' := by
  unfold writeOn at h
  rcases breakdown with _ | ⟨fault, _ | reached⟩ <;> dsimp only at h
  · split at h
    · rename_i hwrite
      cases h
      exact wrote_of_write hplain hwrite
    · cases h
  · cases h
  · split at h <;> cases h

/-- After a write that fails the file is as it was, or it has some first bytes of the content. -/
theorem left_of_writeOn {breakdown : Option Breakdown} {fault : Fault}
    (hplain : t.IsPlain (locate cwd path))
    (h : t.writeOn breakdown cwd path content = (t', .error fault)) :
    t' = t ∨ ∃ reached, Wrote t cwd path (content.take reached) t' := by
  unfold writeOn at h
  rcases breakdown with _ | ⟨fault', _ | reached⟩ <;> dsimp only at h
  · split at h <;> cases h
    exact .inl rfl
  · cases h
    exact .inl rfl
  · split at h
    · rename_i hwrite
      cases h
      exact .inr ⟨reached, wrote_of_write hplain hwrite⟩
    · cases h
      exact .inl rfl

/-- A write that fails changes at most the file that it is for. -/
theorem lookup_of_writeOn_error {breakdown : Option Breakdown} {fault : Fault}
    (hplain : t.IsPlain (locate cwd path))
    (h : t.writeOn breakdown cwd path content = (t', .error fault)) (hl : l ≠ locate cwd path) :
    t'.lookup l = t.lookup l := by
  rcases left_of_writeOn hplain h with rfl | ⟨reached, hpart⟩
  · rfl
  · exact hpart.lookup_elsewhere hl

theorem read_of_writeOn_error {breakdown : Option Breakdown} {fault : Fault}
    (hplain : t.IsPlain (locate cwd path))
    (h : t.writeOn breakdown cwd path content = (t', .error fault))
    (hne : locate cwd other ≠ locate cwd path) {held : Bytes} :
    t'.read cwd other = .ok held ↔ t.read cwd other = .ok held := by
  rcases left_of_writeOn hplain h with rfl | ⟨reached, hpart⟩
  · rfl
  · exact hpart.read_elsewhere hne

end FileTree

end CaseHarvest
