import CaseHarvest.Files.Access
import CaseHarvest.Proofs.Files.Path
import CaseHarvest.Proofs.Files.Tree
/-!
Following paths. Main statements: a path leads to the location that its pieces spell, and it does so
exactly if all that it leads through are directories and something is at its end
(`resolve_eq_ok_iff`). From that: when reading, listing and removing by a path succeed, and that
trees that agree on a path's way are read alike.
-/
namespace CaseHarvest

theorem bind_eq_ok_iff {ε α β : Type} {x : Except ε α} {f : α → Except ε β} {b : β} :
    (x >>= f) = .ok b ↔ ∃ a, x = .ok a ∧ f a = .ok b := by
  cases x with
  | error e =>
    constructor
    · nofun
    · nofun
  | ok a =>
    constructor
    · intro h
      exact ⟨a, rfl, h⟩
    · rintro ⟨a', h, hf⟩
      cases h
      exact hf

theorem mapError_eq_ok_iff {ε ε' α : Type} {x : Except ε α} {f : ε → ε'} {a : α} :
    x.mapError f = .ok a ↔ x = .ok a := by
  cases x with
  | error e => exact ⟨nofun, nofun⟩
  | ok b =>
    exact ⟨fun h => congrArg Except.ok (Except.ok.inj h),
      fun h => congrArg Except.ok (Except.ok.inj h)⟩

theorem toOption_eq_some_iff {ε α : Type} {x : Except ε α} {a : α} :
    x.toOption = some a ↔ x = .ok a := by
  cases x with
  | error e => exact ⟨nofun, nofun⟩
  | ok b => exact ⟨fun h => congrArg Except.ok (Option.some.inj h), fun h => congrArg _ h⟩

theorem toOption_congr {ε α : Type} {x y : Except ε α} (h : ∀ a, x = .ok a ↔ y = .ok a) :
    x.toOption = y.toOption := by
  cases hy : y with
  | ok a => rw [(h a).2 hy]
  | error e =>
    cases hx : x with
    | ok a =>
      rw [(h a).1 hx] at hy
      cases hy
    | error e' => rfl

theorem exists_eq_ok {ε α : Type} {x : Except ε α} (h : x.toOption.isSome) : ∃ a, x = .ok a := by
  obtain ⟨a, ha⟩ := Option.isSome_iff_exists.1 h
  exact ⟨a, toOption_eq_some_iff.1 ha⟩

namespace FileTree

/-- Where a piece leads from a directory, whatever is there. -/
def follow (at' : Location) (piece : String) : Location :=
  if Path.isIdle piece then at'
  else if piece = ".." then at'.dropLast
  else at' ++ [piece]

/-- Where a path leads, whatever is there. -/
def locate (cwd : Location) (path : String) : Location :=
  (Path.pieces path).foldl follow (origin cwd path)

/-- The locations in which pieces are looked up, one after the other. -/
def wayFrom : Location → List String → List Location
  | _, [] => []
  | at', piece :: rest => at' :: wayFrom (follow at' piece) rest

/-- What a path leads through before its end. -/
def way (cwd : Location) (path : String) : List Location :=
  wayFrom (origin cwd path) (Path.pieces path)

/-- A path that is not refused for its text. -/
structure Followable (path : String) : Prop where
  checked : checkPath path = .ok ()
  short : ∀ piece ∈ Path.pieces path, piece.utf8ByteSize ≤ maxName

variable {t t' : FileTree} {cwd at' l : Location} {path piece : String}

theorem follow_name (h : Path.isIdle piece = false) (hup : piece ≠ "..") :
    follow at' piece = at' ++ [piece] := by
  simp [follow, h, hup]

theorem follow_idle (h : Path.isIdle piece = true) : follow at' piece = at' := if_pos h

theorem follow_up : follow at' ".." = at'.dropLast := rfl

theorem short_of_idle (h : Path.isIdle piece = true) : piece.utf8ByteSize ≤ maxName := by
  rcases Bool.or_eq_true_iff.1 h with h | h <;> rw [of_decide_eq_true h] <;> decide

theorem step_eq_ok_iff :
    t.step at' piece = .ok l ↔ piece.utf8ByteSize ≤ maxName ∧ l = follow at' piece
      ∧ t.lookup at' = some .directory ∧ (t.lookup l).isSome := by
  unfold step
  by_cases hdir : t.lookup at' = some .directory
  · rw [isDirectory_iff.2 hdir, Bool.not_true, if_neg Bool.false_ne_true]
    by_cases hidle : Path.isIdle piece
    · rw [if_pos hidle, follow_idle hidle]
      constructor
      · rintro ⟨⟩
        exact ⟨short_of_idle hidle, rfl, hdir, by rw [hdir]; rfl⟩
      · rintro ⟨-, rfl, -⟩
        rfl
    rw [if_neg hidle]
    by_cases hup : piece = ".."
    · subst hup
      rw [if_pos rfl, follow_up]
      constructor
      · rintro ⟨⟩
        have hparent : t.lookup at'.dropLast = some .directory :=
          lookup_dropLast (by rw [hdir]; rfl)
        exact ⟨by decide, rfl, hdir, by rw [hparent]; rfl⟩
      · rintro ⟨-, rfl, -⟩
        rfl
    rw [if_neg hup, follow_name (Bool.eq_false_iff.2 hidle) hup]
    by_cases hshort : piece.utf8ByteSize ≤ maxName
    · rw [if_neg (Nat.not_lt.2 hshort)]
      cases hl : t.lookup (at' ++ [piece]) with
      | none =>
        refine ⟨nofun, ?_⟩
        rintro ⟨-, rfl, -, h⟩
        rw [hl] at h
        cases h
      | some e =>
        constructor
        · rintro ⟨⟩
          exact ⟨hshort, rfl, hdir, by rw [hl]; rfl⟩
        · rintro ⟨-, rfl, -⟩
          rfl
    · rw [if_pos (Nat.lt_of_not_le hshort)]
      exact ⟨nofun, fun h => absurd h.1 hshort⟩
  · rw [Bool.eq_false_iff.2 fun h => hdir (isDirectory_iff.1 h)]
    exact ⟨nofun, fun h => absurd h.2.2.1 hdir⟩

/-- Pieces are followed to their end exactly if they are short, all that they are looked up in are
directories, and something is at the end. -/
theorem walk_eq_ok_iff {pieces : List String} (hne : pieces ≠ []) :
    t.walk at' pieces = .ok l ↔ (∀ piece ∈ pieces, piece.utf8ByteSize ≤ maxName)
      ∧ l = pieces.foldl follow at' ∧ (∀ p ∈ wayFrom at' pieces, t.lookup p = some .directory)
      ∧ (t.lookup l).isSome := by
  induction pieces generalizing at' with
  | nil => exact absurd rfl hne
  | cons piece rest ih =>
    rw [walk, bind_eq_ok_iff]
    simp only [step_eq_ok_iff, wayFrom, List.forall_mem_cons, List.foldl_cons]
    cases rest with
    | nil =>
      simp only [walk, Except.ok.injEq, wayFrom, List.foldl_nil]
      constructor
      · rintro ⟨next, ⟨hshort, rfl, hdir, hsome⟩, rfl⟩
        exact ⟨⟨hshort, by simp⟩, rfl, ⟨hdir, by simp⟩, hsome⟩
      · rintro ⟨⟨hshort, -⟩, rfl, ⟨hdir, -⟩, hsome⟩
        exact ⟨_, ⟨hshort, rfl, hdir, hsome⟩, rfl⟩
    | cons piece' rest =>
      simp only [ih (List.cons_ne_nil _ _)]
      constructor
      · rintro ⟨next, ⟨hshort, rfl, hdir, -⟩, hshorts, hl, hdirs, hsome⟩
        exact ⟨⟨hshort, hshorts⟩, hl, ⟨hdir, hdirs⟩, hsome⟩
      · rintro ⟨⟨hshort, hshorts⟩, hl, ⟨hdir, hdirs⟩, hsome⟩
        have hnext : t.lookup (follow at' piece) = some .directory := hdirs _ List.mem_cons_self
        exact ⟨_, ⟨hshort, rfl, hdir, by rw [hnext]; rfl⟩, hshorts, hl, hdirs, hsome⟩

/-- A path leads somewhere exactly if its text is not refused, all that it leads through are
directories, and something is at its end. -/
theorem resolve_eq_ok_iff :
    t.resolve cwd path = .ok l ↔ Followable path ∧ l = locate cwd path
      ∧ (∀ p ∈ way cwd path, t.lookup p = some .directory) ∧ (t.lookup l).isSome := by
  unfold resolve
  rw [bind_eq_ok_iff]
  simp only [walk_eq_ok_iff (Path.pieces_ne_nil path)]
  constructor
  · rintro ⟨⟨⟩, hchecked, hshort, hl⟩
    exact ⟨⟨hchecked, hshort⟩, hl⟩
  · rintro ⟨⟨hchecked, hshort⟩, hl⟩
    exact ⟨(), hchecked, hshort, hl⟩

/-- When a path leads to a directory. -/
theorem resolve_directory_iff :
    (∃ l, t.resolve cwd path = .ok l ∧ t.lookup l = some .directory)
      ↔ Followable path ∧ (∀ p ∈ way cwd path, t.lookup p = some .directory)
        ∧ t.lookup (locate cwd path) = some .directory := by
  constructor
  · rintro ⟨l, hl, hdir⟩
    obtain ⟨hpath, rfl, hway, -⟩ := resolve_eq_ok_iff.1 hl
    exact ⟨hpath, hway, hdir⟩
  · rintro ⟨hpath, hway, hdir⟩
    exact ⟨_, resolve_eq_ok_iff.2 ⟨hpath, rfl, hway, by rw [hdir]; rfl⟩, hdir⟩

theorem exists?_iff :
    t.exists? cwd path ↔ Followable path ∧ (∀ p ∈ way cwd path, t.lookup p = some .directory)
      ∧ (t.lookup (locate cwd path)).isSome := by
  unfold exists?
  constructor
  · intro h
    cases hr : t.resolve cwd path with
    | error e =>
      rw [hr] at h
      cases h
    | ok l =>
      obtain ⟨hpath, rfl, hway, hsome⟩ := resolve_eq_ok_iff.1 hr
      exact ⟨hpath, hway, hsome⟩
  · rintro ⟨hpath, hway, hsome⟩
    rw [resolve_eq_ok_iff.2 ⟨hpath, rfl, hway, hsome⟩]
    rfl

theorem read_eq_ok_iff {content : Bytes} :
    t.read cwd path = .ok content ↔ Followable path
      ∧ (∀ p ∈ way cwd path, t.lookup p = some .directory)
      ∧ (t.lookup (locate cwd path)).bind Entry.content? = some content := by
  unfold read
  rw [bind_eq_ok_iff]
  constructor
  · rintro ⟨l, hl, hread⟩
    obtain ⟨hpath, rfl, hway, hsome⟩ := resolve_eq_ok_iff.1 hl
    refine ⟨hpath, hway, ?_⟩
    cases he : t.lookup (locate cwd path) with
    | none =>
      rw [he] at hsome
      cases hsome
    | some e =>
      rw [he] at hread
      cases e <;> cases hread <;> rfl
  · rintro ⟨hpath, hway, hread⟩
    cases he : t.lookup (locate cwd path) with
    | none =>
      rw [he] at hread
      cases hread
    | some e =>
      refine ⟨_, resolve_eq_ok_iff.2 ⟨hpath, rfl, hway, by rw [he]; rfl⟩, ?_⟩
      rw [he] at hread ⊢
      cases e <;> cases hread <;> rfl

/-- What is read by a path depends only on the directories that it leads through and on what is at
its end. -/
theorem read_congr (hway : ∀ p ∈ way cwd path, t'.lookup p = t.lookup p)
    (hend : t'.lookup (locate cwd path) = t.lookup (locate cwd path)) :
    (t'.read cwd path).toOption = (t.read cwd path).toOption := by
  refine toOption_congr fun content => ?_
  rw [read_eq_ok_iff, read_eq_ok_iff, hend]
  refine and_congr_right fun _ => and_congr_left fun _ => ?_
  exact forall₂_congr fun p hp => by rw [hway p hp]

theorem list_eq_ok_iff {entries : List (String × Entry)} :
    t.list cwd path = .ok entries ↔ Followable path
      ∧ (∀ p ∈ way cwd path, t.lookup p = some .directory)
      ∧ t.lookup (locate cwd path) = some .directory
      ∧ entries = t.children (locate cwd path) := by
  unfold list
  rw [bind_eq_ok_iff]
  constructor
  · rintro ⟨l, hl, hlist⟩
    obtain ⟨hpath, rfl, hway, -⟩ := resolve_eq_ok_iff.1 hl
    split at hlist
    · rename_i hdir
      exact ⟨hpath, hway, isDirectory_iff.1 hdir, (Except.ok.inj hlist).symm⟩
    · cases hlist
  · rintro ⟨hpath, hway, hdir, rfl⟩
    refine ⟨_, resolve_eq_ok_iff.2 ⟨hpath, rfl, hway, by rw [hdir]; rfl⟩, ?_⟩
    rw [if_pos (isDirectory_iff.2 hdir)]

/-- What removing takes away: a directory with all that is below it, or a link. -/
theorem removeTree_eq_ok_iff :
    t.removeTree cwd path = .ok t' ↔ Followable path
      ∧ (∀ p ∈ way cwd path, t.lookup p = some .directory)
      ∧ (t.lookup (locate cwd path) = some .directory
          ∨ ∃ target content, t.lookup (locate cwd path) = some (@Entry.link target content))
      ∧ t' = t.erase (locate cwd path) := by
  unfold removeTree
  rw [bind_eq_ok_iff]
  constructor
  · rintro ⟨l, hl, hremove⟩
    obtain ⟨hpath, rfl, hway, -⟩ := resolve_eq_ok_iff.1 hl
    split at hremove
    · rename_i he
      exact ⟨hpath, hway, .inl he, (Except.ok.inj hremove).symm⟩
    · rename_i target content he
      exact ⟨hpath, hway, .inr ⟨target, content, he⟩, (Except.ok.inj hremove).symm⟩
    · cases hremove
  · rintro ⟨hpath, hway, hentry, rfl⟩
    rcases hentry with he | ⟨target, content, he⟩
    · exact ⟨_, resolve_eq_ok_iff.2 ⟨hpath, rfl, hway, by rw [he]; rfl⟩, by rw [he]⟩
    · exact ⟨_, resolve_eq_ok_iff.2 ⟨hpath, rfl, hway, by rw [he]; rfl⟩, by rw [he]⟩

theorem wayFrom_append (at' : Location) (a b : List String) :
    wayFrom at' (a ++ b) = wayFrom at' a ++ wayFrom (a.foldl follow at') b := by
  induction a generalizing at' with
  | nil => rfl
  | cons piece a ih => simp [wayFrom, ih]

section LastPiece

variable {init : List String} {name : String}

theorem way_of_pieces (h : Path.pieces path = init ++ [name]) :
    way cwd path = wayFrom (origin cwd path) init ++ [init.foldl follow (origin cwd path)] := by
  rw [way, h, wayFrom_append]
  rfl

theorem locate_of_pieces (h : Path.pieces path = init ++ [name]) (hidle : Path.isIdle name = false)
    (hup : name ≠ "..") :
    locate cwd path = init.foldl follow (origin cwd path) ++ [name] := by
  rw [locate, h, List.foldl_append]
  exact follow_name hidle hup

end LastPiece

theorem origin_join {dir name : String} (h : Path.isName name) :
    origin cwd (Path.join dir name) = origin cwd dir := by
  rw [origin, origin, Path.isAbsolute_join h]

/-- A name behind a directory is found in the directory. -/
theorem locate_join {dir name : String} (h : Path.isName name) :
    locate cwd (Path.join dir name) = locate cwd dir ++ [name] := by
  obtain ⟨hidle, hup, -⟩ := Path.isName_iff.1 h
  unfold locate
  rw [origin_join h]
  rcases Path.pieces_join dir h with hj | ⟨init, hdir, hj⟩
  · rw [hj, List.foldl_append]
    exact follow_name hidle hup
  · rw [hj, hdir, List.foldl_append, List.foldl_append]
    exact follow_name hidle hup

theorem mem_way_join {dir name : String} (h : Path.isName name) :
    l ∈ way cwd (Path.join dir name) ↔ l ∈ way cwd dir ∨ l = locate cwd dir := by
  unfold way locate
  rw [origin_join h]
  rcases Path.pieces_join dir h with hj | ⟨init, hdir, hj⟩
  · simp [hj, wayFrom_append, wayFrom]
  · -- The empty piece is looked up where the name is, and leads nowhere else.
    have hidle : Path.isIdle "" = true := by decide
    have hempty : (init ++ [""]).foldl follow (origin cwd dir)
        = init.foldl follow (origin cwd dir) := by
      rw [List.foldl_append]
      exact follow_idle hidle
    simp [hj, hdir, wayFrom_append, wayFrom, hempty]

theorem checkPath_eq_ok_iff :
    checkPath path = .ok () ↔ '\x00' ∉ path.toList ∧ path ≠ "" ∧ path.utf8ByteSize ≤ maxPath := by
  unfold checkPath
  by_cases hnul : '\x00' ∈ path.toList
  · simp [hnul]
  · by_cases hempty : path = ""
    · simp [hempty]
    · by_cases hlong : path.utf8ByteSize ≤ maxPath
      · simp [hnul, hempty, hlong, Nat.not_lt.2 hlong]
      · simp [hnul, hempty, hlong, Nat.lt_of_not_le hlong]

/-- A directory's path is not refused if that of a name in it is not. -/
theorem followable_of_join {dir name : String} (hdir : dir ≠ "") (hname : Path.isName name)
    (h : Followable (Path.join dir name)) : Followable dir := by
  obtain ⟨hnul, -, hlong⟩ := checkPath_eq_ok_iff.1 h.checked
  constructor
  · obtain ⟨rest, hjoin⟩ := Path.join_name_eq_append dir hname
    rw [hjoin] at hnul hlong
    rw [String.toList_append, List.mem_append, not_or] at hnul
    rw [String.utf8ByteSize_append] at hlong
    exact checkPath_eq_ok_iff.2 ⟨hnul.1, hdir, by omega⟩
  · intro piece hpiece
    rcases Path.pieces_join dir hname with hj | ⟨init, hpieces, hj⟩
    · exact h.short piece (hj ▸ List.mem_append_left _ hpiece)
    · rw [hpieces, List.mem_append, List.mem_singleton] at hpiece
      rcases hpiece with hpiece | rfl
      · exact h.short piece (hj ▸ List.mem_append_left _ hpiece)
      · decide

/-- An output directory lies in some directory. -/
theorem locate_unitOutputDir_ne_root (namePrefix unit : String) (ordinal : Nat) :
    locate cwd (unitOutputDir namePrefix unit ordinal) ≠ [] := by
  obtain ⟨init, start, hpieces⟩ := pieces_unitOutputDir namePrefix unit ordinal
  obtain ⟨hidle, hup⟩ := moves_of_hyphen start ordinal
  rw [locate_of_pieces hpieces hidle hup]
  exact List.append_ne_nil_of_right_ne_nil _ (List.cons_ne_nil _ _)

theorem prefix_follow (h : piece ≠ "..") : at' <+: follow at' piece := by
  by_cases hidle : Path.isIdle piece
  · exact (follow_idle hidle).symm ▸ List.prefix_refl at'
  · rw [follow_name (Bool.eq_false_iff.2 hidle) h]
    exact List.prefix_append _ _

/-- Pieces that do not lead up lead down. -/
theorem prefix_of_mem_wayFrom {pieces : List String} (hup : ".." ∉ pieces) :
    at' <+: pieces.foldl follow at' ∧ ∀ p ∈ wayFrom at' pieces, p <+: pieces.foldl follow at' := by
  induction pieces generalizing at' with
  | nil => exact ⟨List.prefix_refl _, nofun⟩
  | cons piece rest ih =>
    obtain ⟨hpiece, hrest⟩ := not_or.1 fun h => hup (List.mem_cons.2 h)
    obtain ⟨hnext, hway⟩ := ih hrest
    have hstart : at' <+: _ := (prefix_follow (Ne.symm hpiece)).trans hnext
    exact ⟨hstart, List.forall_mem_cons.2 ⟨hstart, hway⟩⟩

/-- What lies in a place whose name is not followed lay there at the start. -/
theorem prefix_of_foldl_follow {dir : Location} {name : String} {pieces : List String}
    (hname : name ∉ pieces) (h : dir ++ [name] <+: pieces.foldl follow l) :
    dir ++ [name] <+: l := by
  induction pieces generalizing l with
  | nil => exact h
  | cons piece rest ih =>
    obtain ⟨hpiece, hrest⟩ := not_or.1 fun e => hname (List.mem_cons.2 e)
    have hnext : dir ++ [name] <+: follow l piece := ih hrest h
    unfold follow at hnext
    split at hnext
    · exact hnext
    · split at hnext
      · exact hnext.trans (List.dropLast_prefix l)
      · rcases List.prefix_concat_iff.1 hnext with hsame | hbefore
        · exact absurd (List.append_inj' hsame rfl).2 (by simpa using hpiece)
        · exact hbefore

theorem prefix_of_mem_way {namePrefix unit : String} {ordinal : Nat}
    (hup : ".." ∉ Path.pieces (unitOutputDir namePrefix unit ordinal)) {p : Location}
    (hp : p ∈ way cwd (unitOutputDir namePrefix unit ordinal)) :
    p <+: (locate cwd (unitOutputDir namePrefix unit ordinal)).dropLast := by
  obtain ⟨init, start, hpieces⟩ := pieces_unitOutputDir namePrefix unit ordinal
  obtain ⟨hidle, hname⟩ := moves_of_hyphen start ordinal
  rw [hpieces, List.mem_append, not_or] at hup
  rw [way_of_pieces hpieces, List.mem_append] at hp
  rw [locate_of_pieces hpieces hidle hname, List.dropLast_concat]
  rcases hp with hp | hp
  · exact (prefix_of_mem_wayFrom hup.1).2 p hp
  · obtain rfl := List.mem_singleton.1 hp
    exact List.prefix_refl _

end FileTree

end CaseHarvest
