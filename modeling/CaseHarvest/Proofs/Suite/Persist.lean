import CaseHarvest.Proofs.Suite.Temporary
/-!
Putting a document in place, step by step. Main statements: what the trees after the steps are
(`persistSteps_cases`); a failure leaves all files as they were (`persist_error`), a success changes
the one file (`persist_ok`), and which of the two it is does not depend on the document
(`persist_outcome`).
-/
namespace CaseHarvest.TestSuite

open FileTree

variable {files files' : FileTree} {cwd temporary : Location} {device : Device} {path name : String}
  {body : Bytes}

theorem onDevice_eq_ok_iff {α : Type} {step : PersistStep} {outcome : Except Fault α} {a : α} :
    onDevice device step outcome = .ok a ↔ device.refuses step = none ∧ outcome = .ok a := by
  unfold onDevice
  cases device.refuses step with
  | some fault => exact ⟨nofun, nofun⟩
  | none => exact ⟨fun h => ⟨rfl, h⟩, fun h => h.2⟩

/-- A content is in place at the end of a path, and all other files are as before. -/
structure IsPlaced (files : FileTree) (cwd : Location) (path : String) (content : Bytes)
    (files' : FileTree) : Prop where
  followable : Followable path
  way : ∀ p ∈ way cwd path, files.lookup p = some .directory
  free : files.lookup (locate cwd path) ≠ some .directory
  file : WithFile files (locate cwd path) content files'

theorem IsPlaced.read {content : Bytes} (h : IsPlaced files cwd path content files') :
    files'.read cwd path = .ok content := by
  refine read_eq_ok_iff.2 ⟨h.followable, fun p hp => ?_, ?_⟩
  · exact (h.file.directory_iff h.free p).2 (h.way p hp)
  · rw [h.file, if_pos rfl]
    rfl

/-- The tree in which the temporary file holds a content. -/
def holding (files : FileTree) (temporary : Location) (content : Bytes) : FileTree :=
  files.put temporary (.file content false)

theorem isPlaced_of_move {content : Bytes} (htemporary : IsVacant files temporary)
    (h : (holding files temporary content).move cwd temporary path = .ok files') :
    IsPlaced files cwd path content files' := by
  have hended : WithFile files temporary content (holding files temporary content) :=
    htemporary.withFile content
  have hdirectory := hended.directory_iff (by rw [htemporary.absent]; nofun)
  obtain ⟨target, htarget, h⟩ := bind_eq_ok_iff.1 h
  obtain ⟨hpath, hlocate, hway, hparent, ⟨name, hname, hisName⟩, hfree⟩ :=
    resolveMove_eq_ok htarget
  rw [hended, if_pos rfl, holding, htemporary.erase_put] at h
  cases h
  have hdir : files.lookup target.dropLast = some .directory :=
    (hdirectory _).1 (hway _ hparent)
  have hfree : files.lookup target ≠ some .directory := fun e => hfree ((hdirectory _).2 e)
  have hadmits : files.Admits target (.file content false) := by
    refine ⟨by rw [hname]; simp, fun piece hpiece => ?_, hdir, fun e => absurd e hfree⟩
    rw [hname] at hpiece
    rcases List.mem_append.1 hpiece with hpiece | hpiece
    · exact isName_of_lookup (by rw [hdir]; rfl) piece hpiece
    · rwa [List.mem_singleton.1 hpiece]
  refine ⟨hpath, fun p hp => (hdirectory p).1 (hway p hp), hlocate ▸ hfree, fun l => ?_⟩
  rw [lookup_put hadmits, hlocate]

theorem move_outcome (cwd : Location) (path : String) (htemporary : IsVacant files temporary)
    (content content' : Bytes) :
    ((holding files temporary content).move cwd temporary path).map (fun _ => ())
      = ((holding files temporary content').move cwd temporary path).map (fun _ => ()) := by
  have hended : WithFile files temporary content (holding files temporary content) :=
    htemporary.withFile content
  have hended' : WithFile files temporary content' (holding files temporary content') :=
    htemporary.withFile content'
  unfold FileTree.move
  rw [(hended.sameShape hended').resolveMove, hended, hended', if_pos rfl, if_pos rfl]
  cases (holding files temporary content').resolveMove cwd path <;> rfl

theorem growing_ne_nil (held : Bytes) (portions : List Nat) (bytes : Bytes) :
    growing held portions bytes ≠ [] := by
  cases portions <;> exact List.cons_ne_nil _ _

theorem writing_ne_nil (device : Device) (path : String) (body : Bytes) :
    (writing device path body).1 ≠ [] := by
  unfold writing
  simp only
  split
  · exact growing_ne_nil _ _ _
  · split
    · exact List.append_ne_nil_of_right_ne_nil _ (growing_ne_nil _ _ _)
    · exact List.append_ne_nil_of_right_ne_nil _ (List.cons_ne_nil _ _)

/-- Whether the temporary file is written and kept is up to the device. -/
theorem writing_outcome (device : Device) (path : String) (body body' : Bytes) :
    (writing device path body).2 = (writing device path body').2 := by
  unfold writing
  simp only
  split
  · rfl
  · split <;> rfl

theorem writing_eq_ok_iff :
    (writing device path body).2 = .ok () ↔ device.refuses .writeBody = none
      ∧ device.refuses .writeNewline = none ∧ device.refuses .sync = none := by
  unfold writing
  simp only
  cases device.refuses .writeBody with
  | some fault => exact ⟨nofun, nofun⟩
  | none =>
    cases device.refuses .writeNewline with
    | some fault => exact ⟨nofun, nofun⟩
    | none =>
      unfold onDevice
      cases device.refuses .sync with
      | some fault => exact ⟨nofun, nofun⟩
      | none => exact ⟨fun _ => ⟨rfl, rfl, rfl⟩, fun _ => rfl⟩

/-- A temporary file that is kept holds the body and a line feed. -/
theorem getLastD_writing (h : (writing device path body).2 = .ok ()) (content : Bytes) :
    (writing device path body).1.getLastD content = body ++ [10] := by
  obtain ⟨hbody, hnewline, -⟩ := writing_eq_ok_iff.1 h
  unfold writing
  simp only [hbody, hnewline]
  exact List.getLastD_concat

/-- The temporary file is written over and over in the same tree. -/
theorem rewriting_eq_map (h : IsVacant files temporary) (contents : List Bytes) :
    rewriting temporary files contents = contents.map (holding files temporary) := by
  have rewrites {t : FileTree}
      (ht : ∀ content, t.put temporary (.file content false) = holding files temporary content) :
      rewriting temporary t contents = contents.map (holding files temporary) := by
    induction contents generalizing t with
    | nil => rfl
    | cons content rest ih =>
      have hrest : rewriting temporary (holding files temporary content) rest
          = rest.map (holding files temporary) :=
        ih fun content' => h.put_put content content'
      rw [rewriting, ht, hrest, List.map_cons]
  exact rewrites fun _ => rfl

theorem getLastD_rewriting (h : IsVacant files temporary) {contents : List Bytes}
    (hne : contents ≠ []) :
    (rewriting temporary files contents).getLastD files
      = holding files temporary (contents.getLastD []) := by
  rw [rewriting_eq_map h]
  obtain ⟨init, last, rfl⟩ : ∃ init last, contents = init ++ [last] :=
    ⟨_, _, (List.dropLast_concat_getLast hne).symm⟩
  simp

/-- What the steps come to once there is a temporary file: the first fault, if there is one. -/
theorem persistSteps_outcome_eq (h : IsVacant files temporary)
    (htemporary : onDevice device .createTemporary (temporaryLocation files cwd path name)
      = .ok temporary) (body : Bytes) :
    (persistSteps files cwd device path name body).2 = (do
      (writing device path body).2
      let last := (writing device path body).1.getLastD []
      let placed := (holding files temporary last).move cwd temporary path
      (onDevice device .moveIntoPlace (placed.map fun _ => ())).mapError (.persist path)) := by
  unfold persistSteps
  simp only [htemporary, getLastD_rewriting h (writing_ne_nil device path body)]
  cases (writing device path body).2 with
  | error e => rfl
  | ok u =>
    unfold onDevice
    cases device.refuses .moveIntoPlace with
    | some fault => rfl
    | none =>
      show _ = (Except.map _ (FileTree.move _ cwd temporary path)).mapError _
      cases FileTree.move (holding files temporary _) cwd temporary path <;> rfl

/-- Whether all steps are taken does not depend on the body. -/
theorem persistSteps_outcome (h : IsFree files cwd path name) (device : Device)
    (body body' : Bytes) :
    (persistSteps files cwd device path name body).2
      = (persistSteps files cwd device path name body').2 := by
  cases htemporary : onDevice device .createTemporary (temporaryLocation files cwd path name) with
  | error fault =>
    unfold persistSteps
    rw [htemporary]
  | ok temporary =>
    have hvacant := h.isVacant (onDevice_eq_ok_iff.1 htemporary).2
    rw [persistSteps_outcome_eq hvacant htemporary, persistSteps_outcome_eq hvacant htemporary,
      writing_outcome device path body body']
    simp only [move_outcome cwd path hvacant _ ((writing device path body').1.getLastD [])]

/-- What the steps are: none without a temporary file; with one, the trees in which it is under way,
and then the tree as it was or the content in place. -/
theorem persistSteps_cases (h : IsFree files cwd path name) (device : Device) (body : Bytes) :
    (∃ e, persistSteps files cwd device path name body = ([files], .error e))
    ∨ ∃ temporary during, temporaryLocation files cwd path name = .ok temporary
      ∧ (∀ t ∈ during, ∃ content, WithFile files temporary content t)
      ∧ ((∃ e, persistSteps files cwd device path name body = (during ++ [files], .error e))
        ∨ ∃ placed, IsPlaced files cwd path (body ++ [10]) placed
          ∧ persistSteps files cwd device path name body = (during ++ [placed], .ok ())) := by
  unfold persistSteps
  cases hcreated : onDevice device .createTemporary (temporaryLocation files cwd path name) with
  | error fault => exact .inl ⟨_, rfl⟩
  | ok temporary =>
    obtain ⟨-, htemporary⟩ := onDevice_eq_ok_iff.1 hcreated
    have hvacant := h.isVacant htemporary
    refine .inr ⟨temporary, rewriting temporary files (writing device path body).1, htemporary,
      ?_, ?_⟩
    · rw [rewriting_eq_map hvacant]
      exact List.forall_mem_map.2 fun content _ => ⟨content, hvacant.withFile content⟩
    · simp only [getLastD_rewriting hvacant (writing_ne_nil device path body)]
      have herased (content : Bytes) : (holding files temporary content).erase temporary = files :=
        hvacant.erase_put content
      cases hwritten : (writing device path body).2 with
      | error e => exact .inl ⟨e, by rw [herased]; rfl⟩
      | ok u =>
        rw [getLastD_writing hwritten]
        cases hmoved : onDevice device .moveIntoPlace
            ((holding files temporary (body ++ [10])).move cwd temporary path) with
        | error fault => exact .inl ⟨.persist path fault, by rw [herased]; rfl⟩
        | ok placed =>
          exact .inr ⟨placed, isPlaced_of_move hvacant (onDevice_eq_ok_iff.1 hmoved).2, rfl⟩

variable {suite : TestSuite} {e : SuiteError}

/-- Putting a document in place changes nothing, or it puts the document in place. -/
theorem persistAs_cases (h : IsFree files cwd path name) (device : Device) (suite : TestSuite) :
    (∃ e, persistAs files cwd device path name suite = (files, .error e))
    ∨ ∃ placed, IsPlaced files cwd path (Bytes.ofString suite.document ++ [10]) placed
      ∧ persistAs files cwd device path name suite = (placed, .ok ()) := by
  unfold persistAs
  rcases persistSteps_cases h device (Bytes.ofString suite.document) with
    ⟨e, hsteps⟩ | ⟨-, during, -, -, ⟨e, hsteps⟩ | ⟨placed, hplaced, hsteps⟩⟩
  · exact .inl ⟨e, by rw [hsteps]; rfl⟩
  · exact .inl ⟨e, by simp [hsteps]⟩
  · exact .inr ⟨placed, hplaced, by simp [hsteps]⟩

theorem persist_cases (files : FileTree) (cwd : Location) (device : Device) (path : String)
    (suite : TestSuite) :
    (∃ e, persist files cwd device path suite = (files, .error e))
    ∨ ∃ placed, IsPlaced files cwd path (Bytes.ofString suite.document ++ [10]) placed
      ∧ persist files cwd device path suite = (placed, .ok ()) :=
  persistAs_cases (isFree_temporaryName files cwd path) device suite

/-- A document that cannot be put in place leaves all files as they were. -/
theorem persist_error (h : (persist files cwd device path suite).2 = .error e) (l : Location) :
    (persist files cwd device path suite).1.lookup l = files.lookup l := by
  rcases persist_cases files cwd device path suite with ⟨e, hsteps⟩ | ⟨placed, -, hsteps⟩
  · rw [hsteps]
  · rw [hsteps] at h
    cases h

/-- A document that is put in place stands at the end of the path, with a line feed behind it. -/
theorem persist_ok (h : (persist files cwd device path suite).2 = .ok ()) :
    IsPlaced files cwd path (Bytes.ofString suite.document ++ [10])
      (persist files cwd device path suite).1 := by
  rcases persist_cases files cwd device path suite with ⟨e, hsteps⟩ | ⟨placed, hplaced, hsteps⟩
  · rw [hsteps] at h
    cases h
  · rwa [hsteps]

/-- Putting a document in place makes no directory and removes none. -/
theorem persist_directory_iff (l : Location) :
    (persist files cwd device path suite).1.lookup l = some .directory
      ↔ files.lookup l = some .directory := by
  rcases persist_cases files cwd device path suite with ⟨e, hsteps⟩ | ⟨placed, hplaced, hsteps⟩
  · rw [hsteps]
  · rw [hsteps]
    exact hplaced.file.directory_iff hplaced.free l

/-- Whether a suite can be put in place does not depend on the suite. -/
theorem persist_outcome (suite suite' : TestSuite) :
    (persist files cwd device path suite).2 = (persist files cwd device path suite').2 :=
  persistSteps_outcome (isFree_temporaryName files cwd path) device _ _

end CaseHarvest.TestSuite
