import CaseHarvest.CommandLine.Run
import CaseHarvest.Proofs.Record.DumpReading
import CaseHarvest.Proofs.Record.Snapshot
import CaseHarvest.Proofs.Session.Frame
/-!
Tasks that show records. They read files up to the first that holds no record. Main statement: fingerprints
and dumps are printed of the records before it, a document only if there is no such file and all paths are
Unicode, and what comes behind it makes no difference (`tasks_stop_at_first`).
-/
namespace CaseHarvest.CommandLine

open Record (unlines)

/-- Files are read in order, up to the first whose record cannot be decoded. -/
structure ReadsUpTo (files : FileTree) (cwd : Location) (max : Int32) (paths : List String)
    (read : List (String × Record)) (bad : Option (String × DecodeError)) (unread : List String) :
    Prop where
  order : paths = read.map (·.1) ++ (bad.toList.map (·.1) ++ unread)
  decoded : ∀ p ∈ read, Record.load files cwd p.1 max = .ok p.2
  undecoded : ∀ p, bad = some p → Record.load files cwd p.1 max = .error p.2
  complete : bad = none → unread = []

/-- The failure in which a file ends a task. -/
def refusal : Option (String × DecodeError) → List String
  | none => []
  | some (path, e) => ("Failed to decode KTest file " ++ path) :: e.chain

variable {files : FileTree} {cwd : Location} {max : Int32} {paths : List String}
  {read : List (String × Record)} {bad : Option (String × DecodeError)} {unread : List String}

theorem exists_readsUpTo (files : FileTree) (cwd : Location) (max : Int32) (paths : List String) :
    ∃ read bad unread, ReadsUpTo files cwd max paths read bad unread := by
  induction paths with
  | nil => exact ⟨[], none, [], rfl, nofun, nofun, fun _ => rfl⟩
  | cons path paths ih =>
    cases hload : Record.load files cwd path max with
    | error e =>
      refine ⟨[], some (path, e), paths, rfl, nofun, ?_, nofun⟩
      rintro p ⟨⟩
      exact hload
    | ok r =>
      obtain ⟨read, bad, unread, h⟩ := ih
      refine ⟨(path, r) :: read, bad, unread, ?_, ?_, h.undecoded, h.complete⟩
      · rw [h.order, List.map_cons, List.cons_append]
      · exact List.forall_mem_cons.2 ⟨hload, h.decoded⟩

theorem loadRecord_of_decoded {path : String} {r : Record} (h : Record.load files cwd path max = .ok r) :
    loadRecord files cwd max path = .ok r := by
  rw [loadRecord, h]
  rfl

theorem loadRecord_of_undecoded {path : String} {e : DecodeError}
    (h : Record.load files cwd path max = .error e) :
    loadRecord files cwd max path = .error (refusal (some (path, e))) := by
  rw [loadRecord, h]
  rfl

/-! ## Printing as one goes -/

section Print

variable {print : Bool → String → Record → String} {first : Bool}

/-- What is printed of records. -/
def printed (print : Bool → String → Record → String) : Bool → List (String × Record) → String
  | _, [] => ""
  | first, (path, r) :: read => print first path r ++ printed print false read

theorem ReadsUpTo.printEach_eq (h : ReadsUpTo files cwd max paths read bad unread) :
    printEach files cwd max print first paths = (printed print first read, refusal bad) := by
  obtain ⟨rfl, hdecoded, hundecoded, hcomplete⟩ := h
  -- The file that ends the task, if there is one, comes behind all that is read.
  induction read generalizing first with
  | nil =>
    cases bad with
    | none =>
      rw [hcomplete rfl]
      rfl
    | some p =>
      show printEach files cwd max print first (p.1 :: unread) = _
      rw [printEach, loadRecord_of_undecoded (hundecoded p rfl)]
      rfl
  | cons p read ih =>
    rw [List.forall_mem_cons] at hdecoded
    rw [List.map_cons, List.cons_append, printEach, loadRecord_of_decoded hdecoded.1]
    simp only [ih hdecoded.2]
    rfl

/-- Fingerprints are printed as one line each. -/
theorem printed_fingerprintLine (read : List (String × Record)) :
    printed (fun _ path r => fingerprintLine path r) first read
      = unlines (read.map fun (path, r) => r.fingerprint ++ "  " ++ path) := by
  induction read generalizing first with
  | nil => rfl
  | cons p read ih =>
    rw [printed, ih]
    rfl

/-- What is printed behind something else is set off from it. -/
theorem printed_showDump_cons (trim : Bool) (p : String × Record) (read : List (String × Record)) :
    printed (fun first _ r => showDump trim first r) false (p :: read)
      = "\n" ++ printed (fun first _ r => showDump trim first r) true (p :: read) := by
  simp only [printed, showDump, if_true, Bool.false_eq_true, if_false, String.empty_append,
    String.append_assoc]

/-- Dumps are printed with a line feed between them. -/
theorem printed_showDump (trim : Bool) (read : List (String × Record)) :
    printed (fun first _ r => showDump trim first r) true read
      = "\n".intercalate (read.map (·.2.describe trim)) := by
  induction read with
  | nil => rfl
  | cons p read ih =>
    have hfirst : showDump trim true p.2 = p.2.describe trim := String.empty_append
    rw [printed, hfirst]
    cases read with
    | nil =>
      rw [printed, String.append_empty]
      exact String.intercalate_singleton.symm
    | cons q read =>
      rw [printed_showDump_cons, ih, List.map_cons, List.map_cons, List.map_cons,
        String.intercalate_cons_cons, String.append_assoc]

/-- A line feed between texts that consist of lines is an empty line between them. -/
theorem unlines_intercalate (texts : List (List String)) :
    unlines ([""].intercalate texts) = "\n".intercalate (texts.map unlines) := by
  induction texts with
  | nil => rfl
  | cons lines texts ih =>
    cases texts with
    | nil => rw [List.intercalate_singleton, List.map_singleton, String.intercalate_singleton]
    | cons others texts =>
      have hempty : unlines [""] = "\n" := by decide
      rw [List.intercalate_cons_cons, Record.unlines_append, Record.unlines_append, hempty, ih,
        List.map_cons, List.map_cons, List.map_cons, String.intercalate_cons_cons]

end Print

/-! ## Documents -/

/-- The snapshots of the records that have been read. -/
def snapshots (read : List (String × Record)) : List Snapshot :=
  read.map fun (path, r) => Snapshot.ofRecord path r

/-- The document of snapshots. -/
def document (read : List (String × Record)) : String :=
  (Json.array ((snapshots read).map Snapshot.toJson)).pretty ++ "\n"

/-- The step in which a record is read as a member of the document. -/
def snapshotStep (files : FileTree) (cwd : Location) (max : Int32) (path : String) :
    Except (List String) Json := do
  return (Snapshot.ofRecord path (← loadRecord files cwd max path)).toJson

theorem mapM_of_decoded (h : ∀ p ∈ read, Record.load files cwd p.1 max = .ok p.2) :
    (read.map (·.1)).mapM (snapshotStep files cwd max) = .ok ((snapshots read).map Snapshot.toJson) := by
  induction read with
  | nil => rfl
  | cons p read ih =>
    rw [List.forall_mem_cons] at h
    have hstep : snapshotStep files cwd max p.1 = .ok (Snapshot.ofRecord p.1 p.2).toJson := by
      rw [snapshotStep, loadRecord_of_decoded h.1]
      rfl
    rw [List.map_cons, List.mapM_cons, hstep, ih h.2]
    rfl

theorem mapM_of_undecoded {path : String} {e : DecodeError} (h : Record.load files cwd path max = .error e) :
    (path :: unread).mapM (snapshotStep files cwd max) = .error (refusal (some (path, e))) := by
  have hstep : snapshotStep files cwd max path = .error (refusal (some (path, e))) := by
    rw [snapshotStep, loadRecord_of_undecoded h]
    rfl
  rw [List.mapM_cons, hstep]
  rfl

/-- The failure in which the document of some files ends: that of the file that ends the task, or a path
that is not Unicode. -/
def documentFailure (machine : Machine) (paths : List String) : Option (String × DecodeError) → List String
  | some p => refusal (some p)
  | none => if paths.all machine.isUnicode then [] else notUnicode "records"

theorem documentFailure_eq_nil_iff {machine : Machine} :
    documentFailure machine paths bad = [] ↔ bad = none ∧ ∀ path ∈ paths, machine.isUnicode path := by
  cases bad with
  | some p => exact ⟨nofun, fun h => nomatch h.1⟩
  | none =>
    rw [← List.all_eq_true, documentFailure]
    split
    · rename_i hall
      exact ⟨fun _ => ⟨rfl, hall⟩, fun _ => rfl⟩
    · rename_i hbad
      exact ⟨nofun, fun h => absurd h.2 hbad⟩

/-- All or nothing is shown. -/
theorem ReadsUpTo.showJson_eq {machine : Machine}
    (h : ReadsUpTo files machine.workingDir max paths read bad unread) :
    showJson machine files max paths = if documentFailure machine paths bad = [] then .ok (document read)
      else .error (documentFailure machine paths bad) := by
  obtain ⟨hpaths, hdecoded, hundecoded, hcomplete⟩ := h
  have hsteps : showJson machine files max paths
      = (paths.mapM (snapshotStep files machine.workingDir max) >>= fun snapshots =>
        if paths.all machine.isUnicode then .ok ((Json.array snapshots).pretty ++ "\n")
        else .error (notUnicode "records")) := rfl
  cases bad with
  | none =>
    have hread : paths = read.map (·.1) := by
      rw [hpaths, hcomplete rfl, Option.toList_none, List.map_nil, List.append_nil, List.append_nil]
    have hmembers : paths.mapM (snapshotStep files machine.workingDir max)
        = .ok ((snapshots read).map Snapshot.toJson) := by rw [hread, mapM_of_decoded hdecoded]
    rw [hsteps, hmembers, documentFailure]
    show (if paths.all machine.isUnicode then _ else _) = _
    split
    · rfl
    · rfl
  | some p =>
    have hmembers : paths.mapM (snapshotStep files machine.workingDir max) = .error (refusal (some p)) := by
      rw [hpaths, List.mapM_append, mapM_of_decoded hdecoded, Option.toList_some, List.map_singleton,
        List.singleton_append, mapM_of_undecoded (hundecoded p rfl)]
      rfl
    rw [hsteps, hmembers]
    rfl

/-! ## Tasks -/

/-- A task prints a text and ends in a failure, or in none; nothing else changes. -/
structure Leaves (machine : Machine) (settings : Settings) (running : machine.Running)
    (files : FileTree) (task : Task) (printed : String) (failure : List String) : Prop where
  performed : perform machine settings running files task = { files, running, printed, failure }
  obeyed : ∀ env verbose quiet config, settingsOf files machine.workingDir config env = .ok settings →
    obey machine env running files ⟨verbose, quiet, config, task⟩
      = { files, running, exitCode := if failure = [] then 0 else 1, printed, failure }

theorem refusal_eq_nil_iff : refusal bad = [] ↔ bad = none := by
  cases bad with
  | none => exact ⟨fun _ => rfl, fun _ => rfl⟩
  | some p => exact ⟨nofun, nofun⟩

/-- What the tasks on some files tell about the records that are read. -/
structure Tells (machine : Machine) (settings : Settings) (running : machine.Running)
    (files : FileTree) (paths : List String) (read : List (String × Record))
    (bad : Option (String × DecodeError)) : Prop where
  fingerprints : Leaves machine settings running files (.fingerprint paths)
    (unlines (read.map fun (path, r) => r.fingerprint ++ "  " ++ path)) (refusal bad)
  dumps : ∀ trim, Leaves machine settings running files (.show paths trim false)
    ("\n".intercalate (read.map (·.2.describe trim))) (refusal bad)
  /-- Fingerprints and dumps end in a failure exactly if there is a file that holds no record. -/
  fails_iff : refusal bad = [] ↔ bad = none
  /-- As dumps consist of lines, what is between them is one empty line. -/
  dumpLines : ∀ trim, "\n".intercalate (read.map (·.2.describe trim))
    = unlines ([""].intercalate (read.map (·.2.dumpLines trim)))
  documents : ∀ trim, Leaves machine settings running files (.show paths trim true)
    (if documentFailure machine paths bad = [] then document read else "")
    (documentFailure machine paths bad)
  /-- A document needs besides that all paths are Unicode; a file that holds no record is blamed first. -/
  documentFails_iff : documentFailure machine paths bad = []
    ↔ bad = none ∧ ∀ path ∈ paths, machine.isUnicode path
  blamed : bad ≠ none → documentFailure machine paths bad = refusal bad
  documentRead : Snapshot.listOfText? (document read) = some (snapshots read)
  /-- A run that comes upon these files has these records, by the fingerprints and with the inputs that the
  snapshots show; and its test cases are what is left of them when each fingerprint is kept once. -/
  gathered : gatherRecords files machine.workingDir settings.maxVersion (read.map (·.1))
    = (read.map (·.2), [])
  prints : Record.prints (read.map (·.2)) = (snapshots read).map (·.fingerprint)
  inputs : ∀ metadata, (TestSuite.assemble (read.map (·.2)) metadata).testCases.map (·.inputs)
    = (snapshots read).map (·.inputs)
  kept : ∀ metadata,
    (TestSuite.assemble (Record.dedup (read.map (·.2))) metadata).testCases.map (·.inputs)
      = (Snapshot.firsts (snapshots read)).map (·.inputs)

section Tells

variable {machine : Machine} {settings : Settings} {running : machine.Running} {task : Task}
  {printed : String}

theorem leaves_of_performed {failure : List String}
    (h : perform machine settings running files task = ⟨files, running, printed, [], failure⟩) :
    Leaves machine settings running files task printed failure where
  performed := h
  obeyed env verbose quiet config hsettings := by
    unfold obey
    simp only [hsettings, h]
    cases failure <;> rfl

theorem gatherRecords_of_decoded (h : ∀ p ∈ read, Record.load files cwd p.1 max = .ok p.2) :
    gatherRecords files cwd max (read.map (·.1)) = (read.map (·.2), []) := by
  induction read with
  | nil => rfl
  | cons p read ih =>
    rw [List.forall_mem_cons] at h
    rw [List.map_cons, gatherRecords, ih h.2, h.1]
    rfl

theorem ReadsUpTo.tells (h : ReadsUpTo files machine.workingDir settings.maxVersion paths read bad unread) :
    Tells machine settings running files paths read bad where
  fingerprints := by
    apply leaves_of_performed
    simp only [perform, h.printEach_eq, printed_fingerprintLine]
  dumps trim := by
    apply leaves_of_performed
    simp only [perform, h.printEach_eq, printed_showDump, Bool.false_eq_true, if_false]
  dumpLines trim := by
    rw [unlines_intercalate, List.map_map]
    rfl
  fails_iff := refusal_eq_nil_iff
  documents trim := by
    apply leaves_of_performed
    simp only [perform, h.showJson_eq, if_true]
    by_cases hfailure : documentFailure machine paths bad = []
    · rw [if_pos hfailure, if_pos hfailure, hfailure]
    · rw [if_neg hfailure, if_neg hfailure]
  documentFails_iff := documentFailure_eq_nil_iff
  blamed hbad := by
    cases bad with
    | none => exact absurd rfl hbad
    | some p => rfl
  documentRead := Snapshot.listOfText?_pretty _
  gathered := gatherRecords_of_decoded h.decoded
  prints := by
    rw [Record.prints, snapshots, List.map_map, List.map_map]
    rfl
  inputs metadata := by
    rw [Snapshot.inputs_assemble, snapshots, List.map_map, List.map_map]
    rfl
  kept := Snapshot.inputs_assemble_dedup read

/-- Only the files that are read make a difference. -/
theorem ReadsUpTo.of_agree {files' : FileTree} {unread' : List String}
    (h : ReadsUpTo files cwd max paths read bad unread)
    (hagree : ∀ path ∈ read.map (·.1) ++ bad.toList.map (·.1), files'.read cwd path = files.read cwd path)
    (hcomplete : bad = none → unread' = []) :
    ReadsUpTo files' cwd max (read.map (·.1) ++ (bad.toList.map (·.1) ++ unread')) read bad unread' := by
  have hload : ∀ path ∈ read.map (·.1) ++ bad.toList.map (·.1),
      Record.load files' cwd path max = Record.load files cwd path max := by
    intro path hpath
    unfold Record.load
    rw [hagree path hpath]
  constructor
  case order => rfl
  case decoded =>
    intro p hp
    rw [hload p.1 (List.mem_append_left _ (List.mem_map_of_mem hp)), h.decoded p hp]
  case undecoded =>
    rintro p rfl
    rw [hload p.1 (List.mem_append_right _ (List.mem_singleton_self _)), h.undecoded p rfl]
  case complete => exact hcomplete

end Tells

/-- **What shows records stops at the first file that holds none.** Fingerprints and dumps are printed of
the records before it, each fingerprint in its own line and the dumps with an empty line between two of
them; the document of all records is printed only if there is no such file, and if all paths are Unicode. The
failure names that file, which is blamed before any path is, and all is the same whatever the files behind
it are and hold. -/
theorem tasks_stop_at_first (machine : Machine) (settings : Settings) (running : machine.Running)
    (files : FileTree) (paths : List String) :
    (∃ read bad unread, ReadsUpTo files machine.workingDir settings.maxVersion paths read bad unread)
      ∧ ∀ read bad unread,
        ReadsUpTo files machine.workingDir settings.maxVersion paths read bad unread →
        Tells machine settings running files paths read bad
          ∧ ∀ (files' : FileTree) (unread' : List String),
            (∀ path ∈ read.map (·.1) ++ bad.toList.map (·.1),
              files'.read machine.workingDir path = files.read machine.workingDir path) →
            (bad = none → unread' = []) →
            Tells machine settings running files'
              (read.map (·.1) ++ (bad.toList.map (·.1) ++ unread')) read bad := by
  refine ⟨exists_readsUpTo files machine.workingDir settings.maxVersion paths, ?_⟩
  intro read bad unread h
  refine ⟨h.tells, fun files' unread' hagree hcomplete => ?_⟩
  exact (h.of_agree hagree hcomplete).tells

/-- Two files with the same record. -/
def sameRecords : FileTree :=
  let record := Record.encode (Record.create 1 [] 0 0 [])
  (FileTree.empty.put ["a"] (.file record false)).put ["b"] (.file record false)

/-- Tasks on files that all hold a record need not succeed: a document fails if a path is not Unicode, and
a command line has to name a file. -/
theorem records_without_document :
    let machine : Machine := { Machine.scripted (fun _ => none) with isUnicode := fun path => path ≠ "b" }
    let record (path : String) : Record := { Record.create 1 [] 0 0 [] with source := some path }
    let left := obey machine {} () sameRecords ⟨false, false, none, .show ["a", "b"] false true⟩
    ReadsUpTo sameRecords [] 3 ["a", "b"] [("a", record "a"), ("b", record "b")] none []
      ∧ left.exitCode = 1 ∧ left.printed = ""
      ∧ left.failure = ["Failed to serialize records", "path contains invalid UTF-8 characters"]
      ∧ ReadsUpTo sameRecords [] 3 [] [] none []
      ∧ (execute machine {} () sameRecords ["show", "--json"]).exitCode = 2
      ∧ (execute machine {} () sameRecords ["show", "--json"]).printed = "" := by
  intro machine record left
  have hreads : ReadsUpTo sameRecords [] 3 ["a", "b"] [("a", record "a"), ("b", record "b")] none [] :=
    ⟨rfl, by decide +kernel, nofun, fun _ => rfl⟩
  exact ⟨hreads, by decide +kernel, by decide +kernel, by decide +kernel, ⟨rfl, nofun, nofun, fun _ => rfl⟩,
    by decide +kernel, by decide +kernel⟩

/-- Two records and a file that is not there, behind which there is a record or a directory. -/
theorem tasks_stop_at_first_missing :
    let machine := Machine.scripted fun _ => none
    let record (path : String) : Record := { Record.create 1 [] 0 0 [] with source := some path }
    let read := [("a", record "a"), ("b", record "b")]
    let bad := some ("c", DecodeError.io .notFound)
    ReadsUpTo sameRecords [] 3 ["a", "b", "c", "a"] read bad ["a"]
      ∧ "\n".intercalate (read.map (·.2.describe false))
        = "ktest file : 'a'\nargs       : []\nnum objects: 0\n\n"
          ++ "ktest file : 'b'\nargs       : []\nnum objects: 0\n"
      ∧ Tells machine {} () sameRecords ["a", "b", "c", "a"] read bad
      ∧ Tells machine {} () (sameRecords.put ["d"] .directory) ["a", "b", "c", "d"] read bad := by
  intro machine record read bad
  have hreads : ReadsUpTo sameRecords [] 3 ["a", "b", "c", "a"] read bad ["a"] := by
    refine ⟨rfl, by decide +kernel, ?_, nofun⟩
    intro p hp
    cases Option.some.inj hp
    decide +kernel
  have htells := (tasks_stop_at_first machine {} () sameRecords ["a", "b", "c", "a"]).2 read bad ["a"] hreads
  exact ⟨hreads, by decide +kernel, htells.1, htells.2 _ ["d"] (by decide +kernel) nofun⟩

end CaseHarvest.CommandLine
