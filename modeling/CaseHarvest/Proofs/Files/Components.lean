import CaseHarvest.Proofs.Files.Suffix
/-!
The components by which paths are compared. Main statement: the last component of an output directory's
path is what follows the last separator of the prefix, a hyphen and the position of the unit
(`lastName_unitOutputDir`), whatever directory the unit lies in.
-/
namespace CaseHarvest

namespace Path

/-- The components of a path: the root or a dot at the front, and all pieces that name something. Two texts
with the same components are the same path. -/
def components (path : String) : List String :=
  (if isAbsolute path then ["/"] else if (pieces path).head? = some "." then ["."] else [])
    ++ names path

theorem lastName_of_pieces {path last : String} {init : List String} (h : pieces path = init ++ [last])
    (hidle : isIdle last = false) (hup : last ≠ "..") : LastName path last where
  last := by
    unfold names
    rw [h, List.filter_append]
    simp [hidle]
  notUp := hup

theorem LastName.getLast?_components {path name : String} (h : LastName path name) :
    (components path).getLast? = some name := by
  unfold components
  rw [List.getLast?_append, h.last, Option.some_or]

theorem LastName.components_ne {path path' name name' : String} (h : LastName path name)
    (h' : LastName path' name') (hne : name ≠ name') : components path ≠ components path' := by
  intro hsame
  have hlast := h.getLast?_components
  rw [hsame, h'.getLast?_components] at hlast
  exact hne (Option.some.inj hlast).symm

/-- The pieces of a joined path end in those of the path behind the directory. -/
theorem exists_pieces_join (dir path : String) :
    ∃ init, pieces (join dir path) = init ++ pieces path := by
  unfold join
  split
  · exact ⟨[], rfl⟩
  · split
    · rename_i hend
      rcases hend with rfl | hend
      · exact ⟨[], by rw [String.empty_append, List.nil_append]⟩
      · obtain ⟨init, rfl⟩ := exists_eq_append_separator hend
        exact ⟨pieces init, pieces_append_separator init path⟩
    · exact ⟨pieces dir, pieces_append_separator dir path⟩

/-- What follows the last separator of a path. -/
def lastPiece (path : String) : String := (pieces path).getLast (pieces_ne_nil path)

/-- A text without separators behind a path makes the last piece of that longer. -/
theorem exists_pieces_append (path : String) {text : String} (h : '/' ∉ text.toList) :
    ∃ init, pieces (path ++ text) = init ++ [lastPiece path ++ text] := by
  obtain ⟨init, last, hbefore, hbehind⟩ := piecesBetween_append_of_not_mem path.toList h
  have hlast : lastPiece path = String.ofList last := by
    unfold lastPiece pieces
    simp [hbefore]
  refine ⟨init.map String.ofList, ?_⟩
  rw [hlast, pieces, String.toList_append, hbehind]
  simp

end Path

open CaseHarvest.Path (LastName lastPiece)

/-- The name that an output directory has in the end, if a prefix leads to other directories. -/
theorem lastName_unitOutputDir (namePrefix unit : String) (ordinal : Nat) :
    LastName (unitOutputDir namePrefix unit ordinal) (outputDirName (lastPiece namePrefix) ordinal) := by
  have hslash : '/' ∉ ("-" ++ toString ordinal).toList := by
    rw [String.toList_append, List.mem_append]
    exact fun hm => hm.elim (by decide) (not_mem_toString rfl ordinal)
  obtain ⟨dirs, hjoin⟩ := Path.exists_pieces_join (Path.directory unit)
    (outputDirName namePrefix ordinal)
  obtain ⟨init, hname⟩ := Path.exists_pieces_append namePrefix hslash
  obtain ⟨hidle, hup⟩ := moves_of_hyphen (lastPiece namePrefix) ordinal
  unfold outputDirName at *
  rw [String.append_assoc] at hjoin ⊢
  rw [hname, ← List.append_assoc] at hjoin
  exact Path.lastName_of_pieces (by rw [unitOutputDir, outputDirName, String.append_assoc, hjoin])
    hidle hup

/-- A prefix that leads to another directory than the unit's. -/
example : unitOutputDir "../out/klee" "units/a.ll" 3 = "units/../out/klee-3"
    ∧ Path.fileName? "units/../out/klee-3" = some "klee-3" := by
  decide +kernel

theorem outputDirName_injective (namePrefix : String) :
    Function.Injective (outputDirName namePrefix) := by
  intro m n h
  have hdigits : (toString m).toList = (toString n).toList :=
    congrArg String.toList ((String.append_right_inj (namePrefix ++ "-")).1 h)
  rw [Nat.toString_eq_ofList_toDigits, Nat.toString_eq_ofList_toDigits, String.toList_ofList,
    String.toList_ofList] at hdigits
  rw [← Nat.ofDigitChars_ten_toDigits (n := m), hdigits, Nat.ofDigitChars_ten_toDigits]

end CaseHarvest
