import CaseHarvest.Proofs.Files.Walk
/-!
Moving a file to a path. Main statement: a file can be moved exactly to the location that the path
spells, if it is a name in a directory that is there and no directory has that name
(`resolveMove_eq_ok_iff`).
-/
namespace CaseHarvest.FileTree

variable {t t' : FileTree} {cwd l : Location} {path : String}

theorem walk_eq_ok {at' : Location} {pieces : List String}
    (h : t.walk at' pieces = .ok l) :
    (∀ piece ∈ pieces, piece.utf8ByteSize ≤ maxName) ∧ l = pieces.foldl follow at'
      ∧ ∀ p ∈ wayFrom at' pieces, t.lookup p = some .directory := by
  cases pieces with
  | nil =>
    cases h
    simp [wayFrom]
  | cons piece rest =>
    obtain ⟨hshort, hend, hway, -⟩ := (walk_eq_ok_iff (List.cons_ne_nil _ _)).1 h
    exact ⟨hshort, hend, hway⟩

theorem walk_eq_ok_of_way {at' : Location} {pieces : List String}
    (hshort : ∀ piece ∈ pieces, piece.utf8ByteSize ≤ maxName)
    (hway : ∀ p ∈ wayFrom at' pieces, t.lookup p = some .directory)
    (hend : t.lookup (pieces.foldl follow at') = some .directory) :
    t.walk at' pieces = .ok (pieces.foldl follow at') := by
  cases pieces with
  | nil => rfl
  | cons piece rest =>
    exact (walk_eq_ok_iff (List.cons_ne_nil _ _)).2 ⟨hshort, rfl, hway, by rw [hend]; rfl⟩

/-- What has been checked where a file can be moved to a path: the path's last piece is a name, and
what stands before it leads to a directory. -/
theorem resolveMove_checks (h : t.resolveMove cwd path = .ok l) :
    ∃ init name dir, Path.pieces path = init ++ [name] ∧ checkPath path = .ok ()
      ∧ t.walk (origin cwd path) init = .ok dir ∧ t.lookup dir = some .directory
      ∧ Path.isIdle name = false ∧ name ≠ ".." ∧ name.utf8ByteSize ≤ maxName
      ∧ t.lookup (dir ++ [name]) ≠ some .directory ∧ l = dir ++ [name] := by
  unfold resolveMove at h
  by_cases hnul : path.toList.contains '\x00'
  · rw [if_pos hnul] at h
    cases h
  rw [if_neg hnul] at h
  obtain ⟨⟨⟩, hchecked, h⟩ := bind_eq_ok_iff.1 h
  obtain ⟨dir, hwalk, h⟩ := bind_eq_ok_iff.1 h
  split at h
  · cases h
  rename_i hdir
  split at h
  · cases h
  rename_i hmoves
  split at h
  · cases h
  rename_i hshort
  split at h
  · cases h
  rename_i hlast
  split at h
  · cases h
  rename_i hfile
  cases h
  -- The path does not end in a separator, so that its last piece is the name.
  obtain ⟨init, name, hpieces⟩ : ∃ init name, Path.pieces path = init ++ [name] :=
    ⟨_, _, (List.dropLast_concat_getLast (Path.pieces_ne_nil path)).symm⟩
  have hname : name ≠ "" := by simpa [hpieces] using hlast
  have htrim : ((Path.pieces path).reverse.dropWhile (· = "")).reverse = init ++ [name] := by
    simp [hpieces, hname]
  rw [htrim] at hwalk hmoves hshort hfile ⊢
  simp only [List.dropLast_concat, List.getLastD_concat] at hwalk hmoves hshort hfile ⊢
  obtain ⟨hidle, hup⟩ := not_or.1 hmoves
  refine ⟨init, name, dir, hpieces, hchecked, hwalk, ?_, Bool.eq_false_iff.2 hidle, hup,
    Nat.le_of_not_lt hshort, ?_, rfl⟩
  · simpa [isDirectory_iff] using hdir
  · simpa [isDirectory_iff] using hfile

/-- A file can be moved to a name in a directory that its path leads to, if no directory has that
name. -/
theorem resolveMove_eq_ok (h : t.resolveMove cwd path = .ok l) :
    Followable path ∧ l = locate cwd path ∧ (∀ p ∈ way cwd path, t.lookup p = some .directory)
      ∧ l.dropLast ∈ way cwd path ∧ (∃ name, l = l.dropLast ++ [name] ∧ Path.isName name)
      ∧ t.lookup l ≠ some .directory := by
  obtain ⟨init, name, dir, hpieces, hchecked, hwalk, hdir, hidle, hup, hshort, hfile, rfl⟩ :=
    resolveMove_checks h
  obtain ⟨hshorts, rfl, hway⟩ := walk_eq_ok hwalk
  have hname : name ∈ Path.pieces path := by simp [hpieces]
  rw [List.dropLast_concat, way_of_pieces hpieces, locate_of_pieces hpieces hidle hup]
  refine ⟨⟨hchecked, ?_⟩, rfl, ?_, ?_, ⟨name, rfl, ?_⟩, hfile⟩
  · rw [hpieces, List.forall_mem_append, List.forall_mem_singleton]
    exact ⟨hshorts, hshort⟩
  · rw [List.forall_mem_append, List.forall_mem_singleton]
    exact ⟨hway, hdir⟩
  · exact List.mem_append_right _ (List.mem_singleton_self _)
  · exact Path.isName_of_mem_pieces (checkPath_eq_ok_iff.1 hchecked).1 hname hidle hup

/-- When a file can be moved to a path, and where it then stands. -/
theorem resolveMove_eq_ok_iff :
    t.resolveMove cwd path = .ok l ↔ Followable path
      ∧ (∃ init name, Path.pieces path = init ++ [name] ∧ Path.isIdle name = false ∧ name ≠ "..")
      ∧ (∀ p ∈ way cwd path, t.lookup p = some .directory)
      ∧ t.lookup (locate cwd path) ≠ some .directory ∧ l = locate cwd path := by
  constructor
  · intro h
    obtain ⟨hpath, rfl, hway, -, -, hfile⟩ := resolveMove_eq_ok h
    obtain ⟨init, name, -, hpieces, -, -, -, hidle, hup, -⟩ := resolveMove_checks h
    exact ⟨hpath, ⟨init, name, hpieces, hidle, hup⟩, hway, hfile, rfl⟩
  · rintro ⟨hpath, ⟨init, name, hpieces, hidle, hup⟩, hway, hfile, rfl⟩
    have hname : name ≠ "" := by
      rintro rfl
      cases hidle
    have hnul : path.toList.contains '\x00' = false := by
      simpa using (checkPath_eq_ok_iff.1 hpath.checked).1
    have htrim : ((Path.pieces path).reverse.dropWhile (· = "")).reverse = init ++ [name] := by
      simp [hpieces, hname]
    have hshort : ∀ piece ∈ init ++ [name], piece.utf8ByteSize ≤ maxName := hpieces ▸ hpath.short
    rw [way_of_pieces hpieces, List.forall_mem_append, List.forall_mem_singleton] at hway
    obtain ⟨hway, hdir⟩ := hway
    rw [locate_of_pieces hpieces hidle hup] at hfile ⊢
    rw [List.forall_mem_append, List.forall_mem_singleton] at hshort
    have hwalk : t.walk (origin cwd path) init = .ok (init.foldl follow (origin cwd path)) :=
      walk_eq_ok_of_way hshort.1 hway hdir
    unfold resolveMove
    rw [hnul, if_neg Bool.false_ne_true, hpath.checked, htrim]
    simp only [List.dropLast_concat, List.getLastD_concat, hpieces]
    show (do let dir ← t.walk (origin cwd path) init; _) = _
    rw [hwalk]
    show (if _ then _ else _) = _
    rw [if_neg (by simpa [isDirectory_iff] using hdir), if_neg (by simp [hidle, hup]),
      if_neg (Nat.not_lt.2 hshort.2), if_neg hname, if_neg (by simpa [isDirectory_iff] using hfile)]

/-- A file can be moved to a path exactly if it has a place there. -/
theorem move_eq_ok_iff (hl : (t.lookup l).isSome) :
    (t.move cwd l path).map (fun _ => ()) = .ok ()
      ↔ ∃ target, t.resolveMove cwd path = .ok target := by
  obtain ⟨entry, hentry⟩ := Option.isSome_iff_exists.1 hl
  unfold FileTree.move
  rw [hentry]
  cases t.resolveMove cwd path with
  | error fault => exact ⟨nofun, nofun⟩
  | ok target => exact ⟨fun _ => ⟨target, rfl⟩, fun _ => rfl⟩

/-- The same names are taken in two trees, and the same ones by directories. -/
structure SameShape (t t' : FileTree) : Prop where
  directory : ∀ k, t.isDirectory k = t'.isDirectory k
  taken : ∀ k, (t.lookup k).isSome = (t'.lookup k).isSome

theorem SameShape.step (h : SameShape t t') (at' : Location) (piece : String) :
    t.step at' piece = t'.step at' piece := by
  have htaken := h.taken (at' ++ [piece])
  unfold FileTree.step
  rw [h.directory]
  cases hl : t.lookup (at' ++ [piece]) with
  | none =>
    rw [hl] at htaken
    rw [Option.isSome_eq_false_iff.1 htaken.symm |> Option.isNone_iff_eq_none.1]
  | some e =>
    rw [hl] at htaken
    obtain ⟨e', hl'⟩ := Option.isSome_iff_exists.1 htaken.symm
    rw [hl']

theorem SameShape.walk (h : SameShape t t') (at' : Location) (pieces : List String) :
    t.walk at' pieces = t'.walk at' pieces := by
  induction pieces generalizing at' with
  | nil => rfl
  | cons piece rest ih =>
    rw [FileTree.walk, FileTree.walk, h.step]
    cases t'.step at' piece with
    | error fault => rfl
    | ok next => exact ih next

/-- Where a file can be moved to depends on the names that are taken, not on contents. -/
theorem SameShape.resolveMove (h : SameShape t t') (cwd : Location) (path : String) :
    t.resolveMove cwd path = t'.resolveMove cwd path := by
  unfold FileTree.resolveMove
  simp only [h.walk, h.directory]

end CaseHarvest.FileTree
