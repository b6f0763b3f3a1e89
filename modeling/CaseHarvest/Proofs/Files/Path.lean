import CaseHarvest.Layout
/-!
The pieces of paths. Main statements: the pieces of a joined path (`pieces_join`), and what the last
piece of an output directory's path looks like (`pieces_unitOutputDir`).
-/
namespace CaseHarvest

theorem piecesBetween_ne_nil (s : Char) (cs : List Char) : piecesBetween s cs ≠ [] := by
  cases cs with
  | nil => simp [piecesBetween]
  | cons c cs =>
    unfold piecesBetween
    split
    · simp
    · split <;> simp

theorem piecesBetween_append_separator (s : Char) (a b : List Char) :
    piecesBetween s (a ++ s :: b) = piecesBetween s a ++ piecesBetween s b := by
  induction a with
  | nil => simp [piecesBetween]
  | cons c a ih =>
    by_cases hc : c = s
    · simp [piecesBetween, hc, ih]
    · obtain ⟨p, ps, hp⟩ := List.exists_cons_of_ne_nil (piecesBetween_ne_nil s a)
      simp [piecesBetween, hc, ih, hp]

theorem piecesBetween_of_not_mem {s : Char} {cs : List Char} (h : s ∉ cs) :
    piecesBetween s cs = [cs] := by
  induction cs with
  | nil => rfl
  | cons c cs ih =>
    obtain ⟨hc, hcs⟩ := not_or.1 fun hm => h (List.mem_cons.2 hm)
    simp [piecesBetween, Ne.symm hc, ih hcs]

/-- A text without separators behind another one makes the last piece of that longer. -/
theorem piecesBetween_append_of_not_mem {s : Char} (a : List Char) {b : List Char} (h : s ∉ b) :
    ∃ init last, piecesBetween s a = init ++ [last]
      ∧ piecesBetween s (a ++ b) = init ++ [last ++ b] := by
  induction a with
  | nil => exact ⟨[], [], rfl, by simp [piecesBetween_of_not_mem h]⟩
  | cons c a ih =>
    obtain ⟨init, last, ha, hab⟩ := ih
    by_cases hc : c = s
    · exact ⟨[] :: init, last, by simp [piecesBetween, hc, ha], by simp [piecesBetween, hc, hab]⟩
    · cases init with
      | nil =>
        exact ⟨[], c :: last, by simp [piecesBetween, hc, ha], by simp [piecesBetween, hc, hab]⟩
      | cons p init =>
        exact ⟨(c :: p) :: init, last, by simp [piecesBetween, hc, ha],
          by simp [piecesBetween, hc, hab]⟩

theorem not_mem_of_mem_piecesBetween {s : Char} {cs piece : List Char}
    (h : piece ∈ piecesBetween s cs) : s ∉ piece ∧ ∀ c ∈ piece, c ∈ cs := by
  induction cs generalizing piece with
  | nil =>
    obtain rfl := List.mem_singleton.1 h
    simp
  | cons c cs ih =>
    unfold piecesBetween at h
    split at h
    · rcases List.mem_cons.1 h with rfl | h
      · simp
      · exact ⟨(ih h).1, fun d hd => List.mem_cons_of_mem _ ((ih h).2 d hd)⟩
    · rename_i hc
      obtain ⟨p, ps, hp⟩ := List.exists_cons_of_ne_nil (piecesBetween_ne_nil s cs)
      simp only [hp] at h
      rcases List.mem_cons.1 h with rfl | h
      · have hhead := ih (hp ▸ List.mem_cons_self)
        refine ⟨fun hm => ?_, fun d hd => ?_⟩
        · exact (List.mem_cons.1 hm).elim (fun e => hc e.symm) hhead.1
        · exact (List.mem_cons.1 hd).elim (fun e => e ▸ List.mem_cons_self)
            fun hd => List.mem_cons_of_mem _ (hhead.2 d hd)
      · have htail := ih (hp ▸ List.mem_cons_of_mem _ h)
        exact ⟨htail.1, fun d hd => List.mem_cons_of_mem _ (htail.2 d hd)⟩

namespace Path

theorem pieces_ne_nil (path : String) : pieces path ≠ [] := by
  simp [pieces, piecesBetween_ne_nil]

theorem isName_iff {piece : String} :
    isName piece ↔ isIdle piece = false ∧ piece ≠ ".." ∧ '/' ∉ piece.toList
      ∧ '\x00' ∉ piece.toList := by
  unfold isName isSeparator
  simp only [Bool.and_eq_true, Bool.not_eq_true', List.all_eq_true, decide_eq_true_eq, and_assoc]
  refine and_congr_right fun _ => and_congr_right fun _ => ⟨fun h => ⟨fun hm => ?_, fun hm => ?_⟩,
    fun ⟨hslash, hnul⟩ c hc => ?_⟩
  · simpa using (h _ hm).1
  · simpa using (h _ hm).2
  · refine ⟨?_, ?_⟩
    · simpa using fun e : c = '/' => hslash (e ▸ hc)
    · simpa using fun e : c = '\x00' => hnul (e ▸ hc)

/-- A piece of a path without NUL that moves on to another directory is the name of an entry. -/
theorem isName_of_mem_pieces {path piece : String} (hnul : '\x00' ∉ path.toList)
    (hmem : piece ∈ pieces path) (hidle : isIdle piece = false) (hup : piece ≠ "..") :
    isName piece := by
  obtain ⟨cs, hcs, rfl⟩ := List.mem_map.1 hmem
  obtain ⟨hslash, hsub⟩ := not_mem_of_mem_piecesBetween hcs
  exact isName_iff.2 ⟨hidle, hup, by simpa using hslash,
    by simpa using fun hm => hnul (hsub _ hm)⟩

theorem pieces_of_isName {name : String} (h : isName name) : pieces name = [name] := by
  unfold pieces
  rw [piecesBetween_of_not_mem (isName_iff.1 h).2.2.1]
  simp

theorem not_isAbsolute_of_isName {name : String} (h : isName name) : isAbsolute name = false := by
  have hslash := (isName_iff.1 h).2.2.1
  unfold isAbsolute isSeparator
  cases hcs : name.toList with
  | nil => rfl
  | cons c cs =>
    rw [hcs] at hslash
    simpa using fun e : c = '/' => hslash (e ▸ List.mem_cons_self)

theorem isAbsolute_append {a b : String} (h : a ≠ "") : isAbsolute (a ++ b) = isAbsolute a := by
  unfold isAbsolute
  cases ha : a.toList with
  | nil => exact absurd (String.toList_injective (by rw [ha]; rfl)) h
  | cons c cs => simp [ha]

theorem pieces_append_separator (a b : String) :
    pieces (a ++ "/" ++ b) = pieces a ++ pieces b := by
  unfold pieces
  have hslash : "/".toList = ['/'] := rfl
  simp [hslash, piecesBetween_append_separator]

/-- A text that ends in a separator is what stands before it, and that separator. -/
theorem exists_eq_append_separator {dir : String} (h : dir.toList.getLast?.any isSeparator) :
    ∃ init, dir = init ++ "/" := by
  obtain ⟨c, hc, hsep⟩ : ∃ c, dir.toList.getLast? = some c ∧ isSeparator c := by
    simpa [Option.any_eq_true] using h
  obtain ⟨cs, hcs⟩ := List.getLast?_eq_some_iff.1 hc
  obtain rfl : c = '/' := by simpa [isSeparator] using hsep
  exact ⟨String.ofList cs, String.toList_injective (by rw [hcs]; simp)⟩

/-- The directory's pieces come first; a last one that is empty is left out. -/
theorem pieces_join (dir : String) {name : String} (h : isName name) :
    pieces (join dir name) = pieces dir ++ [name]
      ∨ ∃ init, pieces dir = init ++ [""] ∧ pieces (join dir name) = init ++ [name] := by
  unfold join
  rw [not_isAbsolute_of_isName h, if_neg Bool.false_ne_true]
  split
  · rename_i hend
    refine .inr ?_
    rcases hend with rfl | hend
    · exact ⟨[], rfl, by simpa using pieces_of_isName h⟩
    · obtain ⟨init, hdir⟩ := exists_eq_append_separator hend
      have hempty := pieces_append_separator init ""
      rw [String.append_empty] at hempty
      refine ⟨pieces init, ?_, ?_⟩
      · rw [hdir, hempty]
        rfl
      · rw [hdir, pieces_append_separator, pieces_of_isName h]
  · exact .inl (by rw [pieces_append_separator, pieces_of_isName h])

theorem isAbsolute_join {dir name : String} (h : isName name) :
    isAbsolute (join dir name) = isAbsolute dir := by
  by_cases hdir : dir = ""
  · subst hdir
    have hempty : isAbsolute "" = false := rfl
    simp [join, not_isAbsolute_of_isName h, hempty]
  · unfold join
    rw [not_isAbsolute_of_isName h, if_neg Bool.false_ne_true]
    split
    · exact isAbsolute_append hdir
    · rw [String.append_assoc]
      exact isAbsolute_append hdir

/-- A name stays behind its directory. -/
theorem join_name_eq_append (dir : String) {name : String} (h : isName name) :
    ∃ rest, join dir name = dir ++ rest := by
  unfold join
  rw [not_isAbsolute_of_isName h, if_neg Bool.false_ne_true]
  split
  · exact ⟨name, rfl⟩
  · exact ⟨"/" ++ name, String.append_assoc⟩

/-- A joined path ends as the path behind the directory does. -/
theorem join_eq_append (dir path : String) : ∃ start, join dir path = start ++ path := by
  unfold join
  split
  · exact ⟨"", by simp⟩
  · split
    · exact ⟨dir, rfl⟩
    · exact ⟨dir ++ "/", rfl⟩

end Path

theorem not_mem_toString {c : Char} (h : c.isDigit = false) (n : Nat) : c ∉ (toString n).toList := by
  intro hm
  rw [Nat.toString_eq_ofList_toDigits, String.toList_ofList] at hm
  have hdigit := Nat.isDigit_of_mem_toDigits (by decide) (by decide) hm
  rw [h] at hdigit
  cases hdigit

/-- The last piece of an output directory's path ends in a hyphen and the position of the unit. -/
theorem pieces_unitOutputDir (namePrefix unit : String) (ordinal : Nat) :
    ∃ init start, Path.pieces (unitOutputDir namePrefix unit ordinal)
      = init ++ [start ++ ("-" ++ toString ordinal)] := by
  obtain ⟨start, hstart⟩ := Path.join_eq_append (Path.directory unit)
    (outputDirName namePrefix ordinal)
  have hsplit : (unitOutputDir namePrefix unit ordinal).toList
      = (start ++ namePrefix).toList ++ ("-" ++ toString ordinal).toList := by
    rw [unitOutputDir, hstart, outputDirName, ← String.toList_append]
    simp only [String.append_assoc]
  have hslash : '/' ∉ ("-" ++ toString ordinal).toList := by
    rw [String.toList_append, List.mem_append]
    exact fun hm => hm.elim (by decide) (not_mem_toString rfl ordinal)
  obtain ⟨init, last, -, hpieces⟩ :=
    piecesBetween_append_of_not_mem (start ++ namePrefix).toList hslash
  refine ⟨init.map String.ofList, String.ofList last, ?_⟩
  rw [Path.pieces, hsplit, hpieces]
  simp only [List.map_append, List.map_cons, List.map_nil, String.ofList_append,
    String.ofList_toList]

/-- Such a piece is a name as far as paths tell. -/
theorem moves_of_hyphen (start : String) (ordinal : Nat) :
    Path.isIdle (start ++ ("-" ++ toString ordinal)) = false
      ∧ start ++ ("-" ++ toString ordinal) ≠ ".." := by
  have hyphen : '-' ∈ (start ++ ("-" ++ toString ordinal)).toList := by simp
  refine ⟨?_, fun e => by rw [e] at hyphen; exact absurd hyphen (by decide)⟩
  unfold Path.isIdle
  rw [Bool.or_eq_false_iff, decide_eq_false_iff_not, decide_eq_false_iff_not]
  exact ⟨fun e => by rw [e] at hyphen; exact absurd hyphen (by decide),
    fun e => by rw [e] at hyphen; exact absurd hyphen (by decide)⟩

theorem unitOutputDir_ne_empty (namePrefix unit : String) (ordinal : Nat) :
    unitOutputDir namePrefix unit ordinal ≠ "" := by
  intro h
  obtain ⟨init, start, hpieces⟩ := pieces_unitOutputDir namePrefix unit ordinal
  have hempty : Path.pieces "" = [] ++ [""] := rfl
  rw [h, hempty] at hpieces
  have hlast := (List.append_inj' hpieces rfl).2
  have hidle := (moves_of_hyphen start ordinal).1
  rw [← List.singleton_inj.1 hlast] at hidle
  exact absurd hidle (by decide)

end CaseHarvest
