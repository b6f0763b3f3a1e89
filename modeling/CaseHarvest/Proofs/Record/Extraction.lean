import CaseHarvest.Proofs.Files.Write
import CaseHarvest.Record.Extract
/-!
Writing the payloads of objects to files beside a record. Main statements: each payload goes into the
record's directory, to a file of the object's name and never to the record itself
(`beside_extractPath`); of objects with one name the last one that is written stays
(`WritesAll.read_last`), and nothing else changes (`WritesAll.lookup_elsewhere`), where no link or pipe
has a part in it (`PlainTargets`); what has been written before a failure (`writeObjects_eq_error`).
-/
namespace CaseHarvest.Record

open FileTree (locate origin follow Breakdown)

variable {cwd l : Location} {source name other : String} {init : List String} {last : String}

/-! ## Paths -/

theorem isUnusableName_iff : isUnusableName name = true ↔ '\x00' ∈ name.toList ∨ '/' ∈ name.toList := by
  unfold isUnusableName Path.isSeparator
  simp only [List.any_eq_true, Bool.or_eq_true, decide_eq_true_eq]
  constructor
  · rintro ⟨c, hc, rfl | rfl⟩
    · exact .inl hc
    · exact .inr hc
  · rintro (hc | hc)
    · exact ⟨_, hc, .inl rfl⟩
    · exact ⟨_, hc, .inr rfl⟩

theorem slash_not_mem_of_usable (h : isUnusableName name = false) : '/' ∉ name.toList := by
  intro hslash
  rw [isUnusableName_iff.2 (.inr hslash)] at h
  cases h

theorem toList_suffixed (last name : String) :
    (last ++ "." ++ name).toList = last.toList ++ '.' :: name.toList := by
  simp

theorem isIdle_iff : Path.isIdle name = true ↔ name = "" ∨ name = "." := by
  simp [Path.isIdle]

/-- A name with something behind it is a name. -/
theorem moves_suffixed (hmoves : Path.isIdle last = false) (name : String) :
    Path.isIdle (last ++ "." ++ name) = false ∧ last ++ "." ++ name ≠ ".." := by
  obtain ⟨hempty, hdot⟩ : last ≠ "" ∧ last ≠ "." := by
    rwa [← Bool.not_eq_true, isIdle_iff, not_or] at hmoves
  have hchars : (last ++ "." ++ name).toList ∉ [[], ['.'], ['.', '.']] := by
    rw [toList_suffixed]
    cases hlast : last.toList with
    | nil => exact absurd (String.toList_injective hlast) hempty
    | cons c rest =>
      cases rest with
      | nil =>
        have hc : c ≠ '.' := by
          rintro rfl
          exact hdot (String.toList_injective hlast)
        simp [hc]
      | cons d rest => simp
  constructor
  · rw [← Bool.not_eq_true, isIdle_iff]
    rintro (hname | hname)
    · rw [hname] at hchars
      exact hchars (by decide)
    · rw [hname] at hchars
      exact hchars (by decide)
  · intro hname
    rw [hname] at hchars
    exact hchars (by decide)

/-- The file for an object ends in the record's name, a dot and the object's name. -/
theorem endsIn_extractPath (h : Path.EndsIn source init last) (hname : '/' ∉ name.toList) :
    Path.EndsIn (extractPath source name) init (last ++ "." ++ name) := by
  have hdot : '/' ∉ ("." ++ name).toList := by
    rw [String.toList_append, List.mem_append]
    exact fun hm => hm.elim (by decide) hname
  obtain ⟨front, tail, hsource, htarget⟩ := piecesBetween_append_of_not_mem source.toList hdot
  have hpieces : front.map String.ofList ++ [String.ofList tail] = init ++ [last] := by
    rw [← h.pieces, Path.pieces, hsource, List.map_append]
    rfl
  obtain ⟨hinit, hlast⟩ := List.append_inj' hpieces rfl
  have hlast : String.ofList tail = last := List.singleton_inj.1 hlast
  obtain ⟨hidle, hup⟩ := moves_suffixed h.moves name
  refine ⟨?_, hidle, hup⟩
  rw [extractPath, String.append_assoc, Path.pieces, String.toList_append, htarget, List.map_append,
    hinit, List.map_singleton, String.ofList_append, hlast, String.ofList_toList,
    ← String.append_assoc]

theorem locate_extractPath (h : Path.EndsIn source init last) (hname : '/' ∉ name.toList) :
    locate cwd (extractPath source name)
      = init.foldl follow (origin cwd source) ++ [last ++ "." ++ name] := by
  have hends := endsIn_extractPath h hname
  have hsource : source ≠ "" := by
    rintro rfl
    have hempty : Path.pieces "" = [] ++ [""] := rfl
    obtain ⟨-, hlast⟩ := List.append_inj' (hempty.symm.trans h.pieces) rfl
    have hmoves := h.moves
    rw [← List.singleton_inj.1 hlast] at hmoves
    cases hmoves
  have horigin : origin cwd (extractPath source name) = origin cwd source := by
    rw [origin, origin, extractPath, String.append_assoc, Path.isAbsolute_append hsource]
  rw [FileTree.locate_of_pieces hends.pieces hends.moves hends.notUp, horigin]

/-- A path leads to another file of the same directory. -/
structure Beside (cwd : Location) (source path : String) : Prop where
  directory : (locate cwd path).dropLast = (locate cwd source).dropLast
  other : locate cwd path ≠ locate cwd source

theorem beside_extractPath (h : Path.EndsIn source init last) (hname : '/' ∉ name.toList) :
    Beside cwd source (extractPath source name) := by
  have hsource : locate cwd source = init.foldl follow (origin cwd source) ++ [last] :=
    FileTree.locate_of_pieces h.pieces h.moves h.notUp
  constructor
  · rw [locate_extractPath h hname, hsource, List.dropLast_concat, List.dropLast_concat]
  · rw [locate_extractPath h hname, hsource]
    intro hsame
    have hlast := List.singleton_inj.1 (List.append_inj' hsame rfl).2
    have hlength := congrArg (·.toList.length) hlast
    simp at hlength

theorem extractPath_inj : extractPath source name = extractPath source other ↔ name = other := by
  refine ⟨fun h => ?_, fun h => h ▸ rfl⟩
  have hlists := congrArg String.toList h
  rw [extractPath, extractPath, toList_suffixed, toList_suffixed] at hlists
  exact String.toList_injective (List.cons.inj (List.append_cancel_left hlists)).2

theorem locate_extractPath_ne (h : Path.EndsIn source init last) (hname : '/' ∉ name.toList)
    (hother : '/' ∉ other.toList) (hne : name ≠ other) :
    locate cwd (extractPath source name) ≠ locate cwd (extractPath source other) := by
  rw [locate_extractPath h hname, locate_extractPath h hother]
  intro hsame
  exact hne (extractPath_inj.1 (List.singleton_inj.1 (List.append_inj' hsame rfl).2))

/-! ## Writing one object after the other -/

section Writes

variable (device : Nat → Option Breakdown) (cwd : Location) (source : String) (trim : Bool)

/-- All of some objects are written, and lead from some files to others. -/
inductive WritesAll : Nat → FileTree → List Object → FileTree → Prop
  | none {position : Nat} {files : FileTree} : WritesAll position files [] files
  | next {position : Nat} {files between files' : FileTree} {o : Object} {rest : List Object}
      (written : files.writeOn (device position) cwd (extractPath source o.name) (o.shown trim)
        = (between, .ok ()))
      (others : WritesAll (position + 1) between rest files') :
      WritesAll position files (o :: rest) files'

variable {device cwd source trim} {position : Nat} {files files' : FileTree} {o : Object}
  {objects : List Object}

theorem writeObjects_eq_ok_iff {paths : List String} :
    writeObjects device cwd source trim position files objects = (files', .ok paths)
      ↔ WritesAll device cwd source trim position files objects files'
        ∧ paths = objects.map fun o => extractPath source o.name := by
  induction objects generalizing position files paths with
  | nil =>
    constructor
    · rintro ⟨⟩
      exact ⟨.none, rfl⟩
    · rintro ⟨⟨⟩, rfl⟩
      rfl
  | cons o rest ih =>
    rw [writeObjects]
    cases hwrite : files.writeOn (device position) cwd (extractPath source o.name) (o.shown trim) with
    | mk between written =>
      cases written with
      | error fault =>
        refine ⟨nofun, ?_⟩
        rintro ⟨hwrites, -⟩
        cases hwrites with
        | next written others =>
          rw [hwrite] at written
          cases written
      | ok done =>
        cases hrest : writeObjects device cwd source trim (position + 1) between rest with
        | mk after told =>
          dsimp only
          rw [hrest]
          constructor
          · intro h
            obtain ⟨rfl, htold⟩ := Prod.mk.inj h
            cases told with
            | error fault => cases htold
            | ok others =>
              obtain ⟨hothers, rfl⟩ := ih.1 hrest
              exact ⟨.next hwrite hothers, (Except.ok.inj htold).symm⟩
          · rintro ⟨hwrites, rfl⟩
            cases hwrites with
            | next written others =>
              rw [hwrite] at written
              cases written
              rw [ih.2 ⟨others, rfl⟩] at hrest
              cases hrest
              rfl

/-- A failure comes from the first object that cannot be written, after all before it have been. -/
theorem writeObjects_eq_error {fault : Fault}
    (h : writeObjects device cwd source trim position files objects = (files', .error fault)) :
    ∃ done o rest reached, objects = done ++ o :: rest
      ∧ WritesAll device cwd source trim position files done reached
      ∧ reached.writeOn (device (position + done.length)) cwd (extractPath source o.name)
          (o.shown trim) = (files', .error fault) := by
  induction objects generalizing position files with
  | nil => cases h
  | cons o rest ih =>
    rw [writeObjects] at h
    cases hwrite : files.writeOn (device position) cwd (extractPath source o.name) (o.shown trim) with
    | mk between written =>
      rw [hwrite] at h
      cases written with
      | error fault' =>
        cases h
        exact ⟨[], o, rest, files, rfl, .none, hwrite⟩
      | ok done =>
        cases hrest : writeObjects device cwd source trim (position + 1) between rest with
        | mk after told =>
          dsimp only at h
          rw [hrest] at h
          obtain ⟨rfl, htold⟩ := Prod.mk.inj h
          cases told with
          | ok others => cases htold
          | error fault' =>
            cases htold
            obtain ⟨done, o', rest', reached, rfl, hdone, hfailed⟩ := ih hrest
            refine ⟨o :: done, o', rest', reached, rfl, .next hwrite hdone, ?_⟩
            rwa [List.length_cons, Nat.add_comm done.length 1, ← Nat.add_assoc]

/-! ## What is there in the end -/

/-- The last of some objects with a name: the one whose payload stays in the file of that name. -/
def lastNamed (name : String) (objects : List Object) : Option Object :=
  objects.reverse.find? (·.name = name)

theorem lastNamed_cons (name : String) (o : Object) (rest : List Object) :
    lastNamed name (o :: rest)
      = (lastNamed name rest).or (if o.name = name then some o else none) := by
  unfold lastNamed
  rw [List.reverse_cons, List.find?_append]
  by_cases h : o.name = name <;> simp [h]

theorem lastNamed_eq_none_iff : lastNamed name objects = none ↔ ∀ o ∈ objects, o.name ≠ name := by
  simp [lastNamed]

theorem exists_lastNamed (h : o ∈ objects) :
    ∃ last, lastNamed o.name objects = some last ∧ last ∈ objects ∧ last.name = o.name := by
  cases hlast : lastNamed o.name objects with
  | none => exact absurd rfl (lastNamed_eq_none_iff.1 hlast o h)
  | some last =>
    have hmem := List.mem_of_find?_eq_some hlast
    have hname := List.find?_some hlast
    exact ⟨last, rfl, List.mem_reverse.1 hmem, by simpa using hname⟩

/-- Where no two objects have one name, each is the last one of its own. -/
theorem lastNamed_of_nodup (h : (objects.map (·.name)).Nodup) (ho : o ∈ objects) :
    lastNamed o.name objects = some o := by
  induction objects with
  | nil => cases ho
  | cons first rest ih =>
    obtain ⟨hfresh, hrest⟩ := List.nodup_cons.1 h
    rw [lastNamed_cons]
    rcases List.mem_cons.1 ho with rfl | ho
    · have hnone : lastNamed o.name rest = none :=
        lastNamed_eq_none_iff.2 fun x hx hname => hfresh (List.mem_map.2 ⟨x, hx, hname⟩)
      rw [hnone, Option.none_or, if_pos rfl]
    · rw [ih hrest ho, Option.some_or]

/-- Where the files for some objects are written, no link or pipe has a part in it. -/
def PlainTargets (files : FileTree) (cwd : Location) (source : String) (objects : List Object) : Prop :=
  ∀ o ∈ objects, files.IsPlain (locate cwd (extractPath source o.name))

instance (files : FileTree) (cwd : Location) (source : String) (objects : List Object) :
    Decidable (PlainTargets files cwd source objects) :=
  inferInstanceAs (Decidable (∀ o ∈ objects, _))

theorem PlainTargets.of_wrote {path : String} {content : Bytes}
    (h : PlainTargets files cwd source objects)
    (hwrote : FileTree.Wrote files cwd path content files') :
    PlainTargets files' cwd source objects := fun o ho => hwrote.isPlain (h o ho)

/-- Writing files leaves plain what is plain. -/
theorem WritesAll.isPlain (h : WritesAll device cwd source trim position files objects files')
    (hplain : PlainTargets files cwd source objects) (hl : files.IsPlain l) : files'.IsPlain l := by
  induction h with
  | none => exact hl
  | next written others ih =>
    obtain ⟨hfirst, hrest⟩ := List.forall_mem_cons.1 hplain
    have hwrote := FileTree.wrote_of_writeOn hfirst written
    exact ih (PlainTargets.of_wrote hrest hwrote) (hwrote.isPlain hl)

/-- Writing changes nothing but the files for the objects. -/
theorem WritesAll.lookup_elsewhere (h : WritesAll device cwd source trim position files objects files')
    (hplain : PlainTargets files cwd source objects)
    (hl : ∀ o ∈ objects, l ≠ locate cwd (extractPath source o.name)) :
    files'.lookup l = files.lookup l := by
  induction h with
  | none => rfl
  | next written others ih =>
    obtain ⟨hfirst, hrest⟩ := List.forall_mem_cons.1 hl
    obtain ⟨htarget, htargets⟩ := List.forall_mem_cons.1 hplain
    have hwrote := FileTree.wrote_of_writeOn htarget written
    rw [ih (PlainTargets.of_wrote htargets hwrote) hrest, hwrote.lookup_elsewhere hfirst]

theorem WritesAll.exists_of_changed
    (h : WritesAll device cwd source trim position files objects files')
    (hplain : PlainTargets files cwd source objects)
    (hl : files'.lookup l ≠ files.lookup l) :
    ∃ o ∈ objects, l = locate cwd (extractPath source o.name) :=
  Classical.byContradiction fun hnone =>
    hl (h.lookup_elsewhere hplain fun o ho hsame => hnone ⟨o, ho, hsame⟩)

/-- A write that fails may have changed the file of its own object too. -/
theorem WritesAll.exists_of_changed_or_failed {done : List Object} {reached : FileTree}
    {breakdown : Option Breakdown} {fault : Fault}
    (h : WritesAll device cwd source trim position files done reached)
    (hplain : PlainTargets files cwd source (done ++ [o]))
    (hfailed : reached.writeOn breakdown cwd (extractPath source o.name) (o.shown trim)
      = (files', .error fault))
    (hl : files'.lookup l ≠ files.lookup l) :
    ∃ x ∈ done ++ [o], l = locate cwd (extractPath source x.name) := by
  obtain ⟨hdone, hlast⟩ := List.forall_mem_append.1 hplain
  have htarget := h.isPlain hdone (hlast o List.mem_cons_self)
  by_cases hlast : l = locate cwd (extractPath source o.name)
  · exact ⟨o, by simp, hlast⟩
  · rw [FileTree.lookup_of_writeOn_error htarget hfailed hlast] at hl
    obtain ⟨x, hx, hsame⟩ := h.exists_of_changed hdone hl
    exact ⟨x, List.mem_append_left _ hx, hsame⟩

theorem WritesAll.read_elsewhere {path : String} {held : Bytes}
    (h : WritesAll device cwd source trim position files objects files')
    (hplain : PlainTargets files cwd source objects)
    (hpath : ∀ o ∈ objects, locate cwd path ≠ locate cwd (extractPath source o.name)) :
    files'.read cwd path = .ok held ↔ files.read cwd path = .ok held := by
  induction h with
  | none => rfl
  | next written others ih =>
    obtain ⟨hfirst, hrest⟩ := List.forall_mem_cons.1 hpath
    obtain ⟨htarget, htargets⟩ := List.forall_mem_cons.1 hplain
    have hwrote := FileTree.wrote_of_writeOn htarget written
    rw [ih (PlainTargets.of_wrote htargets hwrote) hrest, hwrote.read_elsewhere hfirst]

/-- The file for a name holds the payload of the last object with the name. -/
theorem WritesAll.read_last (h : WritesAll device cwd source trim position files objects files')
    (hplain : PlainTargets files cwd source objects)
    (hsource : Path.EndsIn source init last) (husable : ∀ o ∈ objects, '/' ∉ o.name.toList)
    (hlast : lastNamed name objects = some o) :
    files'.read cwd (extractPath source name) = .ok (o.shown trim) := by
  induction h with
  | none => cases hlast
  | @next _ _ _ _ first rest written others ih =>
    obtain ⟨hfirst, hrest⟩ := List.forall_mem_cons.1 husable
    obtain ⟨htarget, htargets⟩ := List.forall_mem_cons.1 hplain
    have hwrote := FileTree.wrote_of_writeOn htarget written
    have hbehind := PlainTargets.of_wrote htargets hwrote
    rw [lastNamed_cons] at hlast
    cases hlater : lastNamed name rest with
    | some later =>
      rw [hlater] at hlast
      cases hlast
      exact ih hbehind hrest hlater
    | none =>
      -- No later object has the name, so that the file stays as the first object leaves it.
      rw [hlater, Option.none_or] at hlast
      split at hlast
      · rename_i hname
        cases hlast
        subst hname
        have hother := lastNamed_eq_none_iff.1 hlater
        rw [others.read_elsewhere hbehind fun o ho =>
          locate_extractPath_ne hsource hfirst (hrest o ho) (hother o ho).symm]
        exact hwrote.read
      · cases hlast

end Writes

end CaseHarvest.Record
