import CaseHarvest.Proofs.Bytes.Text
import CaseHarvest.Proofs.Record.Extraction
/-!
What an extraction tells and leaves. Main statements: an extraction gives one path for each requested
object, and the file at a path holds the payload of the last object of that name, so that objects are
told apart exactly if their names are (`extract_keeps_last`); whatever the outcome, only files beside
the record change, each of a requested object's name, and names that no object has are listed once and
in order (`extract_beside_record`).
-/
namespace CaseHarvest.Record

open FileTree (locate Breakdown)

variable {r : Record} {names : List String} {name : String}

/-! ## Requested objects -/

theorem mem_requested {o : Object} : o ∈ r.requested names ↔ o ∈ r.objects ∧ o.name ∈ names := by
  simp [requested]

/-- All objects with a requested name are requested. -/
theorem lastNamed_requested (h : name ∈ names) :
    lastNamed name (r.requested names) = lastNamed name r.objects := by
  unfold lastNamed requested
  rw [← List.filter_reverse, List.find?_filter]
  congr 1
  funext o
  by_cases hname : o.name = name
  · simp [hname, h]
  · simp [hname]

/-! ## Missing names -/

/-- In ascending order of their UTF-8 bytes, each once. -/
def Ascending (names : List String) : Prop :=
  names.Pairwise fun a b => Bytes.ofString a < Bytes.ofString b

theorem nameLe_iff {a b : String} : nameLe a b ↔ Bytes.ofString a ≤ Bytes.ofString b :=
  Bytes.le_iff _ _

/-- Sorted names ascend, though one may occur more than once. -/
theorem pairwise_mergeSort_nameLe (names : List String) :
    (names.mergeSort nameLe).Pairwise fun a b => Bytes.ofString a ≤ Bytes.ofString b := by
  have trans (a b c : String) (hab : nameLe a b) (hbc : nameLe b c) : nameLe a c :=
    nameLe_iff.2 (List.le_trans (nameLe_iff.1 hab) (nameLe_iff.1 hbc))
  have total (a b : String) : nameLe a b || nameLe b a := by
    simpa [nameLe_iff] using List.le_total (Bytes.ofString a) (Bytes.ofString b)
  exact (List.pairwise_mergeSort trans total names).imp nameLe_iff.1

theorem mem_dropRepeats : name ∈ dropRepeats names ↔ name ∈ names := by
  fun_induction dropRepeats names with
  | case1 a rest ih => simp [ih]
  | case2 a b rest hne ih => simp [ih]
  | case3 => rfl

theorem ascending_dropRepeats
    (h : names.Pairwise fun a b => Bytes.ofString a ≤ Bytes.ofString b) :
    Ascending (dropRepeats names) := by
  fun_induction dropRepeats names with
  | case1 a rest ih => exact ih (List.pairwise_cons.1 h).2
  | case2 a b rest hne ih =>
    obtain ⟨hfirst, hrest⟩ := List.pairwise_cons.1 h
    have hab : Bytes.ofString a < Bytes.ofString b := by
      rcases List.le_iff_lt_or_eq.1 (hfirst b List.mem_cons_self) with hlt | heq
      · exact hlt
      · exact absurd (Bytes.ofString_injective heq) hne
    refine List.pairwise_cons.2 ⟨fun c hc => ?_, ih hrest⟩
    -- All that follows is at least the next name, which is more than the first one.
    rcases List.mem_cons.1 (mem_dropRepeats.1 hc) with rfl | hc
    · exact hab
    · rcases List.le_iff_lt_or_eq.1 ((List.pairwise_cons.1 hrest).1 c hc) with hbc | hbc
      · exact List.lt_trans hab hbc
      · exact hbc ▸ hab
  | case3 short hshort =>
    rcases short with _ | ⟨a, _ | ⟨b, rest⟩⟩
    · exact List.Pairwise.nil
    · exact List.pairwise_singleton _ _
    · exact absurd rfl (hshort a b rest)

theorem mem_missingNames :
    name ∈ r.missingNames names ↔ name ∈ names ∧ ∀ o ∈ r.objects, o.name ≠ name := by
  simp [missingNames, mem_dropRepeats]

theorem ascending_missingNames (r : Record) (names : List String) :
    Ascending (r.missingNames names) :=
  ascending_dropRepeats (pairwise_mergeSort_nameLe _)

/-! ## Exits -/

section Exits

variable {device : Nat → Option Breakdown} {before files files' : FileTree} {cwd : Location}
  {source : String} {max : Int32} {trim : Bool}

/-- A record that was read from a file tells the file, and its path ends in a name. -/
theorem source_of_load (h : load before cwd source max = .ok r) :
    r.source = some source ∧ ∃ init last, Path.EndsIn source init last := by
  unfold load at h
  split at h
  · cases h
  · rename_i bytes hread
    split at h
    · cases h
    · cases h
      exact ⟨rfl, FileTree.exists_endsIn_of_read hread⟩

theorem extractOn_of_unusable (hsource : r.source = some source) (hname : name ∈ names)
    (hunusable : isUnusableName name) :
    ∃ first ∈ names, isUnusableName first
      ∧ extractOn device files cwd r names trim = (files, .error (.unusableName first)) := by
  cases hfind : names.find? isUnusableName with
  | none => exact absurd hunusable (List.find?_eq_none.1 hfind name hname)
  | some first =>
    refine ⟨first, List.mem_of_find?_eq_some hfind, List.find?_some hfind, ?_⟩
    rw [extractOn, hsource]
    dsimp only
    rw [hfind]

/-- All requested objects are written, and then the missing names are told; or the writing of one of
them fails, and that is told. -/
theorem extractOn_cases (device : Nat → Option Breakdown) (files : FileTree) (cwd : Location)
    (trim : Bool) (hsource : r.source = some source)
    (husable : ∀ name ∈ names, isUnusableName name = false) :
    (∃ files', WritesAll device cwd source trim 0 files (r.requested names) files'
      ∧ extractOn device files cwd r names trim
        = (files', if r.missingNames names = []
            then .ok ((r.requested names).map fun o => extractPath source o.name)
            else .error (.missing (r.missingNames names))))
    ∨ ∃ done o rest reached files' fault, r.requested names = done ++ o :: rest
      ∧ WritesAll device cwd source trim 0 files done reached
      ∧ reached.writeOn (device done.length) cwd (extractPath source o.name) (o.shown trim)
        = (files', .error fault)
      ∧ extractOn device files cwd r names trim = (files', .error (.fault fault)) := by
  have hfind : names.find? isUnusableName = none :=
    List.find?_eq_none.2 fun name hname => by simp [husable name hname]
  cases hwrite : writeObjects device cwd source trim 0 files (r.requested names) with
  | mk files' written =>
    cases written with
    | ok paths =>
      obtain ⟨hall, rfl⟩ := writeObjects_eq_ok_iff.1 hwrite
      refine .inl ⟨files', hall, ?_⟩
      simp only [extractOn, hsource, hfind, hwrite]
    | error fault =>
      obtain ⟨done, o, rest, reached, hsplit, hdone, hfailed⟩ := writeObjects_eq_error hwrite
      rw [Nat.zero_add] at hfailed
      refine .inr ⟨done, o, rest, reached, files', fault, hsplit, hdone, hfailed, ?_⟩
      simp only [extractOn, hsource, hfind, hwrite]

/-- An extraction that succeeds has written all that was asked for. -/
theorem extractOn_eq_ok {paths : List String} (hsource : r.source = some source)
    (h : extractOn device files cwd r names trim = (files', .ok paths)) :
    (∀ name ∈ names, isUnusableName name = false)
      ∧ WritesAll device cwd source trim 0 files (r.requested names) files'
      ∧ paths = (r.requested names).map fun o => extractPath source o.name := by
  have husable (name : String) (hname : name ∈ names) : isUnusableName name = false := by
    rw [← Bool.not_eq_true]
    intro hunusable
    obtain ⟨first, -, -, herror⟩ := extractOn_of_unusable hsource hname hunusable
    rw [herror] at h
    cases h
  refine ⟨husable, ?_⟩
  rcases extractOn_cases device files cwd trim hsource husable with
    ⟨files'', hall, hextract⟩ | ⟨done, o, rest, reached, files'', fault, -, -, -, hextract⟩
  · rw [hextract] at h
    obtain ⟨rfl, htold⟩ := Prod.mk.inj h
    split at htold
    · exact ⟨hall, (Except.ok.inj htold).symm⟩
    · cases htold
  · rw [hextract] at h
    cases h

/-- What has been written of requested objects is what the last one of each name holds. -/
theorem held_of_writesAll {objects : List Object} {o : Object}
    (hall : WritesAll device cwd source trim 0 files objects files')
    (hplain : PlainTargets files cwd source objects)
    (hsource : ∃ init last, Path.EndsIn source init last)
    (husable : ∀ o ∈ objects, isUnusableName o.name = false) (ho : o ∈ objects) :
    ∃ last, lastNamed o.name objects = some last
      ∧ files'.read cwd (extractPath source o.name) = .ok (last.shown trim) := by
  obtain ⟨init, tail, hends⟩ := hsource
  obtain ⟨last, hlast, -, -⟩ := exists_lastNamed ho
  have hslash (o : Object) (ho : o ∈ objects) : '/' ∉ o.name.toList :=
    slash_not_mem_of_usable (husable o ho)
  exact ⟨last, hlast, hall.read_last hplain hends hslash hlast⟩

/-! ## An extraction that succeeds -/

/-- Each of some objects has a path of its own, under which its payload is. -/
structure KeepsApart (files : FileTree) (cwd : Location) (trim : Bool) (objects : List Object)
    (paths : List String) : Prop where
  distinct : paths.Nodup
  held : ∀ (k : Nat) (o : Object) (path : String), objects[k]? = some o → paths[k]? = some path →
    files.read cwd path = .ok (o.shown trim)

/-- **A name is given to the last object that has it.** An extraction that succeeds tells one path for
each requested object, in the order of the record; where no link or pipe has a part in it, under each path
is the payload of the last object with that name. So each object has a path and its payload exactly if no
two of them have one name. -/
theorem extract_keeps_last {paths : List String} (loaded : load before cwd source max = .ok r)
    (ok : extractOn device files cwd r names trim = (files', .ok paths)) :
    paths = ((r.objects.filter (·.name ∈ names)).map fun o => extractPath source o.name)
      ∧ (PlainTargets files cwd source (r.requested names) →
        (∀ o ∈ r.requested names, ∃ last, lastNamed o.name r.objects = some last
          ∧ files'.read cwd (extractPath source o.name) = .ok (last.shown trim))
        ∧ (KeepsApart files' cwd trim (r.requested names) paths
          ↔ ((r.requested names).map (·.name)).Nodup)) := by
  obtain ⟨hsource, hends⟩ := source_of_load loaded
  obtain ⟨husable, hall, rfl⟩ := extractOn_eq_ok hsource ok
  have hnames (o : Object) (ho : o ∈ r.requested names) : isUnusableName o.name = false :=
    husable o.name (mem_requested.1 ho).2
  have hdistinct : ((r.requested names).map fun o => extractPath source o.name).Nodup
      ↔ ((r.requested names).map (·.name)).Nodup := by
    unfold List.Nodup
    rw [List.pairwise_map, List.pairwise_map]
    simp only [ne_eq, extractPath_inj]
  refine ⟨rfl, fun hplain => ?_⟩
  have hheld (o : Object) (ho : o ∈ r.requested names) := held_of_writesAll hall hplain hends hnames ho
  refine ⟨fun o ho => ?_, fun h => hdistinct.1 h.distinct, fun hnodup => ?_⟩
  · rw [← lastNamed_requested (mem_requested.1 ho).2]
    exact hheld o ho
  · refine ⟨hdistinct.2 hnodup, fun k o path ho hpath => ?_⟩
    have hmem := List.mem_of_getElem? ho
    obtain ⟨last, hlast, hread⟩ := hheld o hmem
    rw [lastNamed_of_nodup hnodup hmem] at hlast
    rw [List.getElem?_map, ho] at hpath
    cases hlast
    cases hpath
    exact hread

section Twins

/-- A record in which two objects have one name. -/
def twins : Record :=
  { create 3 [] 0 0 [⟨"x", [1, 0]⟩, ⟨"y", [0]⟩, ⟨"x", [2]⟩] with source := some "t.ktest" }

def twinsFile : FileTree := FileTree.empty.put ["t.ktest"] (.file twins.encode false)

/-- The files when the objects of both names have been written out. -/
def twinsWritten : FileTree := (extract twinsFile [] twins ["y", "x"] true).1

theorem load_twins : load twinsFile [] "t.ktest" 3 = .ok twins := rfl

theorem extract_twins : extractOn (fun _ => none) twinsFile [] twins ["y", "x"] true
    = (twinsWritten, .ok ["t.ktest.x", "t.ktest.y", "t.ktest.x"]) := by
  have hnone : twins.missingNames ["y", "x"] = [] := by
    simp [missingNames, twins, create, dropRepeats]
  exact Prod.ext rfl (if_pos hnone)

theorem plain_twins (names : List String) :
    PlainTargets twinsFile [] "t.ktest" (twins.requested names) := by
  have hall : PlainTargets twinsFile [] "t.ktest" twins.objects := by decide
  exact fun o ho => hall o (mem_requested.1 ho).1

theorem extract_keeps_last_twins :
    load twinsFile [] "t.ktest" 3 = .ok twins
      ∧ PlainTargets twinsFile [] "t.ktest" (twins.requested ["y", "x"])
      ∧ extractOn (fun _ => none) twinsFile [] twins ["y", "x"] true
        = (twinsWritten, .ok ["t.ktest.x", "t.ktest.y", "t.ktest.x"])
      ∧ ∃ last, lastNamed "x" twins.objects = some last
        ∧ twinsWritten.read [] (extractPath "t.ktest" "x") = .ok (last.shown true) :=
  ⟨load_twins, plain_twins _, extract_twins,
    ((extract_keeps_last load_twins extract_twins).2 (plain_twins _)).1 ⟨"x", [1, 0]⟩ (by decide)⟩

/-- Of two objects with one name the first one is lost: its path is told twice, and holds the payload
of the second one. -/
theorem first_twin_lost :
    load twinsFile [] "t.ktest" 3 = .ok twins
      ∧ extractOn (fun _ => none) twinsFile [] twins ["y", "x"] true
        = (twinsWritten, .ok ["t.ktest.x", "t.ktest.y", "t.ktest.x"])
      ∧ ¬ ["t.ktest.x", "t.ktest.y", "t.ktest.x"].Nodup
      ∧ (twins.requested ["y", "x"])[0]?.map (Object.shown true) = some [1]
      ∧ twinsWritten.read [] "t.ktest.x" = .ok [2] :=
  ⟨load_twins, extract_twins, by decide, by decide, rfl⟩

end Twins

/-! ## Any extraction -/

/-- Only files for requested objects change, and these are beside the record. -/
structure StaysBeside (files : FileTree) (cwd : Location) (source : String) (r : Record)
    (names : List String) (files' : FileTree) : Prop where
  changed : ∀ l, files'.lookup l ≠ files.lookup l →
    ∃ name ∈ names, (∃ o ∈ r.objects, o.name = name) ∧ l = locate cwd (extractPath source name)
  beside : ∀ name ∈ names, (∃ o ∈ r.objects, o.name = name) →
    Beside cwd source (extractPath source name)

/-- Names are told that are requested and that no object has: all of them, in order and each once. -/
structure TellsMissing (r : Record) (names : List String) (e : ExtractError) (missing : List String) :
    Prop where
  error : e = .missing missing
  kind : e.kind = "NotFound"
  message : e.message = "could not find " ++ (if missing.length = 1 then "object" else "objects")
    ++ ": " ++ ", ".intercalate missing
  ascending : Ascending missing
  listed : ∀ name, name ∈ missing ↔ name ∈ names ∧ ∀ o ∈ r.objects, o.name ≠ name

/-- All requested objects are in their files; it is an error exactly if a requested name is missing,
and that is told. -/
structure Finishes (cwd : Location) (source : String) (r : Record) (names : List String)
    (trim : Bool) (files' : FileTree) (outcome : Except ExtractError (List String)) : Prop where
  held : ∀ o ∈ r.requested names, ∃ last, lastNamed o.name r.objects = some last
    ∧ files'.read cwd (extractPath source o.name) = .ok (last.shown trim)
  error_iff : (∃ e, outcome = .error e) ↔ ∃ name ∈ names, ∀ o ∈ r.objects, o.name ≠ name
  told : ∀ e, outcome = .error e → ∃ missing, TellsMissing r names e missing

/-- One of the requested objects cannot be written. Those before it have been; of it there is nothing
or some first bytes; and those behind it are left alone. -/
structure BreaksOff (device : Nat → Option Breakdown) (files : FileTree) (cwd : Location)
    (source : String) (trim : Bool) (done : List Object) (o : Object) (rest : List Object)
    (files' : FileTree) (fault : Fault) (reached : FileTree) : Prop where
  before : WritesAll device cwd source trim 0 files done reached
  failed : reached.writeOn (device done.length) cwd (extractPath source o.name) (o.shown trim)
    = (files', .error fault)
  held : ∀ x ∈ done, ∃ last, lastNamed x.name done = some last
    ∧ reached.read cwd (extractPath source x.name) = .ok (last.shown trim)
    ∧ (x.name ≠ o.name → files'.read cwd (extractPath source x.name) = .ok (last.shown trim))
  part : files' = reached
    ∨ ∃ n, files'.read cwd (extractPath source o.name) = .ok ((o.shown trim).take n)
  untouched : ∀ x ∈ rest, (∀ y ∈ done ++ [o], y.name ≠ x.name) →
    files'.lookup (locate cwd (extractPath source x.name))
      = files.lookup (locate cwd (extractPath source x.name))

theorem staysBeside_of_changed (hsource : ∃ init last, Path.EndsIn source init last)
    (husable : ∀ name ∈ names, isUnusableName name = false)
    (hchanged : ∀ l, files'.lookup l ≠ files.lookup l →
      ∃ o ∈ r.requested names, l = locate cwd (extractPath source o.name)) :
    StaysBeside files cwd source r names files' where
  changed l hl := by
    obtain ⟨o, ho, hsame⟩ := hchanged l hl
    obtain ⟨hmem, hname⟩ := mem_requested.1 ho
    exact ⟨o.name, hname, ⟨o, hmem, rfl⟩, hsame⟩
  beside name hname _ := by
    obtain ⟨init, last, hends⟩ := hsource
    exact beside_extractPath hends (slash_not_mem_of_usable (husable name hname))

theorem finishes_of_writesAll (hsource : ∃ init last, Path.EndsIn source init last)
    (husable : ∀ name ∈ names, isUnusableName name = false)
    (hall : WritesAll device cwd source trim 0 files (r.requested names) files')
    (hplain : PlainTargets files cwd source (r.requested names)) (paths : List String) :
    Finishes cwd source r names trim files'
      (if r.missingNames names = [] then .ok paths else .error (.missing (r.missingNames names))) := by
  have hnames (o : Object) (ho : o ∈ r.requested names) : isUnusableName o.name = false :=
    husable o.name (mem_requested.1 ho).2
  have hnone : r.missingNames names = [] ↔ ¬ ∃ name ∈ names, ∀ o ∈ r.objects, o.name ≠ name := by
    rw [List.eq_nil_iff_forall_not_mem]
    simp only [mem_missingNames, not_exists, not_and]
  refine ⟨fun o ho => ?_, ?_, fun e he => ?_⟩
  · rw [← lastNamed_requested (mem_requested.1 ho).2]
    exact held_of_writesAll hall hplain hsource hnames ho
  · by_cases hmissing : r.missingNames names = []
    · rw [if_pos hmissing]
      exact ⟨nofun, fun h => absurd h (hnone.1 hmissing)⟩
    · rw [if_neg hmissing]
      exact ⟨fun _ => Classical.not_not.1 (mt hnone.2 hmissing), fun _ => ⟨_, rfl⟩⟩
  · split at he
    · cases he
    · cases he
      exact ⟨_, rfl, rfl, rfl, ascending_missingNames r names, fun _ => mem_missingNames⟩

theorem breaksOff_of_failed {done rest : List Object} {o : Object} {reached : FileTree} {fault : Fault}
    (hsource : ∃ init last, Path.EndsIn source init last)
    (husable : ∀ x ∈ done ++ o :: rest, isUnusableName x.name = false)
    (hplain : PlainTargets files cwd source (done ++ o :: rest))
    (hdone : WritesAll device cwd source trim 0 files done reached)
    (hfailed : reached.writeOn (device done.length) cwd (extractPath source o.name) (o.shown trim)
      = (files', .error fault)) :
    BreaksOff device files cwd source trim done o rest files' fault reached := by
  obtain ⟨init, tail, hends⟩ := hsource
  have hslash (x : Object) (hx : x ∈ done ++ o :: rest) : '/' ∉ x.name.toList :=
    slash_not_mem_of_usable (husable x hx)
  have ho : o ∈ done ++ o :: rest := by simp
  have hplainDone : PlainTargets files cwd source done := fun x hx => hplain x (List.mem_append_left _ hx)
  have htarget := hdone.isPlain hplainDone (hplain o ho)
  refine ⟨hdone, hfailed, fun x hx => ?_, ?_, fun x hx hother => ?_⟩
  · have hx' : x ∈ done ++ o :: rest := List.mem_append_left _ hx
    obtain ⟨last, hlast, hread⟩ := held_of_writesAll hdone hplainDone ⟨init, tail, hends⟩
      (fun y hy => husable y (List.mem_append_left _ hy)) hx
    refine ⟨last, hlast, hread, fun hne => ?_⟩
    have helsewhere :
        locate cwd (extractPath source x.name) ≠ locate cwd (extractPath source o.name) :=
      locate_extractPath_ne hends (hslash x hx') (hslash o ho) hne
    exact (FileTree.read_of_writeOn_error htarget hfailed helsewhere).2 hread
  · rcases FileTree.left_of_writeOn htarget hfailed with hsame | ⟨n, hpart⟩
    · exact .inl hsame
    · exact .inr ⟨n, hpart.read⟩
  · have hx' : x ∈ done ++ o :: rest := by simp [hx]
    have helsewhere (y : Object) (hy : y ∈ done ++ o :: rest) (hne : y.name ≠ x.name) :
        locate cwd (extractPath source x.name) ≠ locate cwd (extractPath source y.name) :=
      locate_extractPath_ne hends (hslash x hx') (hslash y hy) hne.symm
    rw [FileTree.lookup_of_writeOn_error htarget hfailed (helsewhere o ho (hother o (by simp))),
      hdone.lookup_elsewhere hplainDone fun y hy =>
        helsewhere y (List.mem_append_left _ hy) (hother y (List.mem_append_left _ hy))]

/-- **An extraction stays beside its record.** A name that is no part of a file name is refused and
nothing changes. Otherwise, where no link or pipe has a part in it, only files for requested objects
change, all of them in the directory of the record and none of them the record; and either all requested
objects are written, and names that no object has are told, or the first write that fails is told and ends
it. -/
theorem extract_beside_record (loaded : load before cwd source max = .ok r)
    (device : Nat → Option Breakdown) (files : FileTree) (names : List String) (trim : Bool) :
    ((∃ name ∈ names, '\x00' ∈ name.toList ∨ '/' ∈ name.toList) →
        ∃ e, extractOn device files cwd r names trim = (files, .error e) ∧ e.kind = "InvalidInput")
      ∧ ((∀ name ∈ names, '\x00' ∉ name.toList ∧ '/' ∉ name.toList) →
        PlainTargets files cwd source (r.requested names) →
        StaysBeside files cwd source r names (extractOn device files cwd r names trim).1
        ∧ ((∃ files' outcome, extractOn device files cwd r names trim = (files', outcome)
            ∧ WritesAll device cwd source trim 0 files (r.requested names) files'
            ∧ Finishes cwd source r names trim files' outcome)
          ∨ ∃ done o rest reached files' fault, r.requested names = done ++ o :: rest
            ∧ extractOn device files cwd r names trim = (files', .error (.fault fault))
            ∧ BreaksOff device files cwd source trim done o rest files' fault reached)) := by
  obtain ⟨hsource, hends⟩ := source_of_load loaded
  refine ⟨?_, fun husable hplain => ?_⟩
  · rintro ⟨name, hname, hunusable⟩
    obtain ⟨first, -, -, hrefused⟩ :=
      extractOn_of_unusable hsource hname (isUnusableName_iff.2 hunusable)
    exact ⟨_, hrefused, rfl⟩
  have husable (name : String) (hname : name ∈ names) : isUnusableName name = false := by
    rw [← Bool.not_eq_true, isUnusableName_iff, not_or]
    exact husable name hname
  rcases extractOn_cases device files cwd trim hsource husable with
    ⟨files', hall, hextract⟩
      | ⟨done, o, rest, reached, files', fault, hsplit, hdone, hfailed, hextract⟩
  · have hbeside : StaysBeside files cwd source r names files' :=
      staysBeside_of_changed hends husable fun l hl => hall.exists_of_changed hplain hl
    rw [hextract]
    exact ⟨hbeside, .inl ⟨files', _, rfl, hall, finishes_of_writesAll hends husable hall hplain _⟩⟩
  · have hmem (x : Object) (hx : x ∈ done ++ o :: rest) : x ∈ r.requested names := hsplit ▸ hx
    have hfront (x : Object) (hx : x ∈ done ++ [o]) : x ∈ done ++ o :: rest := by
      rw [List.append_cons]
      exact List.mem_append_left rest hx
    have hbeside : StaysBeside files cwd source r names files' := by
      apply staysBeside_of_changed hends husable
      intro l hl
      obtain ⟨x, hx, hsame⟩ := hdone.exists_of_changed_or_failed
        (fun x hx => hplain x (hmem x (hfront x hx))) hfailed hl
      exact ⟨x, hmem x (hfront x hx), hsame⟩
    have hnames (x : Object) (hx : x ∈ done ++ o :: rest) : isUnusableName x.name = false :=
      husable x.name (mem_requested.1 (hmem x hx)).2
    rw [hextract]
    exact ⟨hbeside, .inr ⟨done, o, rest, reached, files', fault, hsplit, rfl,
      breaksOff_of_failed hends hnames (fun x hx => hplain x (hmem x hx)) hdone hfailed⟩⟩

/-- A device that is full when a second file has been opened. -/
def fullDevice (position : Nat) : Option Breakdown :=
  if position = 1 then some ⟨.broken "full", some 0⟩ else none

theorem extract_beside_record_full :
    load twinsFile [] "t.ktest" 3 = .ok twins
      ∧ (∀ name ∈ ["z", "x"], '\x00' ∉ name.toList ∧ '/' ∉ name.toList)
      ∧ PlainTargets twinsFile [] "t.ktest" (twins.requested ["z", "x"])
      ∧ (extractOn fullDevice twinsFile [] twins ["z", "x"] false).2
        = .error (.fault (.broken "full"))
      ∧ StaysBeside twinsFile [] "t.ktest" twins ["z", "x"]
          (extractOn fullDevice twinsFile [] twins ["z", "x"] false).1 := by
  have husable : ∀ name ∈ ["z", "x"], '\x00' ∉ name.toList ∧ '/' ∉ name.toList := by decide
  exact ⟨load_twins, husable, plain_twins _, rfl,
    ((extract_beside_record load_twins fullDevice twinsFile ["z", "x"] false).2 husable
      (plain_twins _)).1⟩

section Links

/-- A record beside which there are links in the places of its objects: to itself, and to a file of
another directory. -/
def linked : Record := { create 3 [] 0 0 [⟨"x", [1]⟩, ⟨"y", [2]⟩] with source := some "t.ktest" }

def linkedFile : FileTree :=
  ((((FileTree.empty.put ["t.ktest"] (.file linked.encode false)).put ["keep"] .directory).put
    ["keep", "f"] (.file [9] false)).put ["t.ktest.x"] (@Entry.link ["t.ktest"] linked.encode)).put
    ["t.ktest.y"] (@Entry.link ["keep", "f"] [9])

/-- The files when both objects have been written out. -/
def linkedWritten : FileTree := (extract linkedFile [] linked ["x", "y"] false).1

/-- Written through links, one object overwrites the record itself, and the other one a file of another
directory. -/
theorem record_lost_through_links :
    load linkedFile [] "t.ktest" 3 = .ok linked
      ∧ (extract linkedFile [] linked ["x", "y"] false).2 = .ok ["t.ktest.x", "t.ktest.y"]
      ∧ linkedWritten.read [] "t.ktest" = .ok [1]
      ∧ linkedFile.read [] "keep/f" = .ok [9]
      ∧ linkedWritten.read [] "keep/f" = .ok [2]
      ∧ ¬ StaysBeside linkedFile [] "t.ktest" linked ["x", "y"] linkedWritten := by
  have hnone : linked.missingNames ["x", "y"] = [] := by
    simp [missingNames, linked, create, dropRepeats]
  have hwritten : (extract linkedFile [] linked ["x", "y"] false).2 = .ok ["t.ktest.x", "t.ktest.y"] :=
    if_pos hnone
  refine ⟨rfl, hwritten, rfl, rfl, rfl, fun hbeside => ?_⟩
  obtain ⟨name, hname, -, hplace⟩ := hbeside.changed ["keep", "f"] (by decide)
  obtain rfl | rfl : name = "x" ∨ name = "y" := by simpa using hname
  · exact absurd hplace (by decide)
  · exact absurd hplace (by decide)

end Links

end Exits

end CaseHarvest.Record
