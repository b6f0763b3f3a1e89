import Mathlib.Data.List.TakeDrop
import Mathlib.Data.List.TakeWhile
import CaseHarvest.Proofs.Files.Path
/-!
Suffixes of names. Main statement: a path has an extension exactly if its last name is something, a dot
and that extension, and no dot is in the extension (`extension?_eq_some_iff`).
-/
namespace CaseHarvest.Path

/-- The last component of a path is a name; behind it come only pieces that name nothing. -/
structure LastName (path name : String) : Prop where
  last : (names path).getLast? = some name
  notUp : name ≠ ".."

/-- The last name of a path is something, a dot and a suffix. -/
def HasSuffix (path suffix : String) : Prop :=
  ∃ name stem, LastName path name ∧ stem ≠ "" ∧ name = stem ++ "." ++ suffix

/-- What makes a text a name with a suffix, as it can be looked up. -/
theorem exists_stem_iff {name suffix : String} :
    (∃ stem, stem ≠ "" ∧ name = stem ++ "." ++ suffix)
      ↔ ('.' :: suffix.toList) <:+ name.toList ∧ name.toList ≠ '.' :: suffix.toList := by
  constructor
  · rintro ⟨stem, hstem, rfl⟩
    refine ⟨⟨stem.toList, by simp⟩, ?_⟩
    intro h
    apply hstem
    simpa using congrArg List.length h
  · rintro ⟨⟨stem, hjoined⟩, hmore⟩
    refine ⟨String.ofList stem, ?_, String.toList_injective (by simp [← hjoined])⟩
    intro hempty
    have hnil : stem = [] := by simpa using congrArg String.toList hempty
    rw [hnil] at hjoined
    exact hmore hjoined.symm

instance (path suffix : String) : Decidable (HasSuffix path suffix) :=
  decidable_of_iff (∃ name ∈ (names path).getLast?, name ≠ ".."
      ∧ ('.' :: suffix.toList) <:+ name.toList ∧ name.toList ≠ '.' :: suffix.toList) <| by
    constructor
    · rintro ⟨name, hlast, hup, hsuffix⟩
      obtain ⟨stem, hstem, hname⟩ := exists_stem_iff.2 hsuffix
      exact ⟨name, stem, ⟨hlast, hup⟩, hstem, hname⟩
    · rintro ⟨name, stem, hname, hstem⟩
      exact ⟨name, hname.last, hname.notUp, exists_stem_iff.1 ⟨stem, hstem⟩⟩

/-- A name by itself is its own last name. -/
theorem lastName_iff_of_isName {name last : String} (h : isName name) :
    LastName name last ↔ last = name := by
  have hnames : names name = [name] := by
    rw [names, pieces_of_isName h]
    simp [(isName_iff.1 h).1]
  constructor
  · intro hlast
    have := hlast.last
    rw [hnames] at this
    simpa using this.symm
  · rintro rfl
    exact ⟨by rw [hnames]; rfl, (isName_iff.1 h).2.1⟩

theorem hasSuffix_iff_of_isName {name suffix : String} (h : isName name) :
    HasSuffix name suffix ↔ ∃ stem, stem ≠ "" ∧ name = stem ++ "." ++ suffix := by
  constructor
  · rintro ⟨last, stem, hlast, hstem, hname⟩
    obtain rfl := (lastName_iff_of_isName h).1 hlast
    exact ⟨stem, hstem, hname⟩
  · rintro ⟨stem, hstem, hname⟩
    exact ⟨name, stem, (lastName_iff_of_isName h).2 rfl, hstem, hname⟩

/-- Where a name is cut, and that no dot comes behind. -/
theorem cutAtDot?_eq_some_iff {name stem suffix : List Char} :
    cutAtDot? name = some (stem, suffix) ↔ name = stem ++ '.' :: suffix ∧ '.' ∉ suffix := by
  unfold cutAtDot?
  rw [List.span_eq_takeWhile_dropWhile]
  have hjoined : name.reverse.takeWhile (· != '.') ++ name.reverse.dropWhile (· != '.')
      = name.reverse := List.takeWhile_append_dropWhile
  have hbehind : '.' ∉ name.reverse.takeWhile (· != '.') := by
    intro hmem
    have := List.mem_takeWhile_imp hmem
    simp at this
  constructor
  · intro h
    generalize name.reverse.takeWhile (· != '.') = after at h hjoined hbehind
    cases hbefore : name.reverse.dropWhile (· != '.') with
    | nil =>
      rw [hbefore] at h
      cases h
    | cons dot before =>
      rw [hbefore] at h hjoined
      have hdot : dot = '.' := by
        have := List.head?_dropWhile_not (· != '.') name.reverse
        rw [hbefore] at this
        simpa using this
      cases h
      refine ⟨?_, fun hmem => hbehind (List.mem_reverse.1 hmem)⟩
      have hname := congrArg List.reverse hjoined
      rw [List.reverse_reverse, List.reverse_append, List.reverse_cons, hdot] at hname
      simp [← hname]
  · rintro ⟨rfl, hnone⟩
    have hreverse : (stem ++ '.' :: suffix).reverse = suffix.reverse ++ '.' :: stem.reverse := by
      simp
    have hpass : ∀ c ∈ suffix.reverse, (c != '.') = true := by
      intro c hc
      have : c ≠ '.' := fun e => hnone (e ▸ List.mem_reverse.1 hc)
      simpa using this
    rw [hreverse, List.takeWhile_append_of_pos hpass, List.dropWhile_append_of_pos hpass]
    simp

/-- The last of a path's pieces that name something is looked for behind the first piece, and then it is
the first one if that names something. -/
theorem getLast?_names {path first : String} {others : List String}
    (h : pieces path = first :: others) :
    (names path).getLast? = (others.reverse.dropWhile isIdle).head?.or
      (if isIdle first then none else some first) := by
  have hnegated : (fun piece => !!isIdle piece) = isIdle := by
    funext piece
    exact Bool.not_not _
  unfold names
  rw [h, List.getLast?_filter, List.reverse_cons, List.find?_append,
    List.find?_eq_head?_dropWhile_not, hnegated, List.find?_singleton]
  cases isIdle first <;> rfl

/-- A last component is taken for a name unless it names nothing or leads up. -/
theorem taken_eq_some_iff {last name : String} :
    (if last = "" ∨ last = "." ∨ last = ".." then none else some last) = some name
      ↔ isIdle last = false ∧ last = name ∧ name ≠ ".." := by
  by_cases hskip : last = "" ∨ last = "." ∨ last = ".."
  · rw [if_pos hskip]
    constructor
    · intro h
      cases h
    · rintro ⟨hnames, rfl, hup⟩
      rcases hskip with rfl | rfl | rfl
      · cases hnames
      · cases hnames
      · exact absurd rfl hup
  · rw [if_neg hskip]
    obtain ⟨hempty, hdot, hup⟩ : last ≠ "" ∧ last ≠ "." ∧ last ≠ ".." := by simpa using hskip
    constructor
    · intro h
      cases h
      exact ⟨by simp [isIdle, hempty, hdot], rfl, hup⟩
    · rintro ⟨-, rfl, -⟩
      rfl

/-- The last component of a path, if it is a name. -/
theorem fileName?_eq_some_iff {path name : String} :
    fileName? path = some name ↔ LastName path name := by
  obtain ⟨first, others, hpieces⟩ := List.exists_cons_of_ne_nil (pieces_ne_nil path)
  have hiff : LastName path name ↔ (names path).getLast? = some name ∧ name ≠ ".." :=
    ⟨fun h => ⟨h.last, h.notUp⟩, fun h => ⟨h.1, h.2⟩⟩
  rw [hiff, getLast?_names hpieces]
  unfold fileName? backwards
  rw [hpieces]
  simp only
  cases hbehind : others.reverse.dropWhile isIdle with
  | nil =>
    simp only [taken_eq_some_iff, List.head?_nil, Option.none_or]
    cases isIdle first with
    | true => simp
    | false => simp
  | cons last before =>
    have hnames := List.head?_dropWhile_not isIdle others.reverse
    rw [hbehind] at hnames
    simp only [List.head?_cons] at hnames
    simp only [taken_eq_some_iff, List.head?_cons, Option.some_or, hnames]
    simp

theorem extension?_eq_some_iff {path suffix : String} :
    extension? path = some suffix ↔ HasSuffix path suffix ∧ '.' ∉ suffix.toList := by
  have hchars (stem suffix : String) :
      (stem ++ "." ++ suffix).toList = stem.toList ++ '.' :: suffix.toList := by simp
  unfold extension?
  constructor
  · intro h
    obtain ⟨name, hname, h⟩ := Option.bind_eq_some_iff.1 h
    obtain ⟨⟨stem, rest⟩, hcut, h⟩ := Option.bind_eq_some_iff.1 h
    obtain ⟨hsplit, hdot⟩ := cutAtDot?_eq_some_iff.1 hcut
    simp only at h
    by_cases hstem : stem.isEmpty
    · rw [if_pos hstem] at h
      cases h
    · rw [if_neg hstem] at h
      cases h
      refine ⟨⟨name, String.ofList stem, fileName?_eq_some_iff.1 hname, ?_, ?_⟩, by simpa using hdot⟩
      · intro hempty
        apply hstem
        have := congrArg String.toList hempty
        simpa using this
      · apply String.toList_injective
        rw [hsplit, hchars]
        simp
  · rintro ⟨⟨name, stem, hname, hstem, rfl⟩, hdot⟩
    have hcut : cutAtDot? (stem.toList ++ '.' :: suffix.toList)
        = some (stem.toList, suffix.toList) := cutAtDot?_eq_some_iff.2 ⟨rfl, hdot⟩
    simp [fileName?_eq_some_iff.2 hname, hcut, hstem]

end CaseHarvest.Path
