import CaseHarvest.Proofs.Files.Order
import CaseHarvest.Proofs.Suite.Persist
/-!
Putting a document in place where directories deliver in another order. Main statement: the temporary file
is given the same name (`temporaryName_reordered`), and so the document is put in place or refused in both
(`persist_reordered`).
-/
namespace CaseHarvest.TestSuite

open FileTree

variable {files files' : FileTree}

theorem freshName_of_perm {others others' : List String} (h : others.Perm others') :
    freshName others = freshName others' := by
  have hlongest : others.foldl (fun n name => max n name.length) 0
      = others'.foldl (fun n name => max n name.length) 0 :=
    h.foldl_eq' (fun a _ b _ n => Nat.max_right_comm n a.length b.length) 0
  unfold freshName
  simp only [h.mem_iff, hlongest]

theorem takenNames_reordered (h : files.Reordered files') (cwd : Location) (path : String) :
    (takenNames files cwd path).Perm (takenNames files' cwd path) := by
  unfold takenNames
  rw [h.resolve]
  refine List.Perm.append_left _ ?_
  cases files'.resolve cwd (Path.directory path) with
  | error fault => exact .refl _
  | ok dir => exact (h.children dir).map _

theorem temporaryName_reordered (h : files.Reordered files') (cwd : Location) (path : String) :
    temporaryName files cwd path = temporaryName files' cwd path :=
  freshName_of_perm (takenNames_reordered h cwd path)

theorem temporaryLocation_reordered (h : files.Reordered files') (cwd : Location)
    (path name : String) :
    temporaryLocation files cwd path name = temporaryLocation files' cwd path name := by
  unfold temporaryLocation
  rw [h.resolve]
  simp only [h.isDirectory]

/-- The steps come to the same in both. What the temporary file holds is up to the device alone, so that only
the place of it and the move are looked at. -/
theorem persistSteps_reordered (h : files.Reordered files') {cwd : Location} {path name : String}
    (hfree : IsFree files cwd path name) (hfree' : IsFree files' cwd path name) (device : Device)
    (body : Bytes) :
    (persistSteps files cwd device path name body).2
      = (persistSteps files' cwd device path name body).2 := by
  have hlocation := temporaryLocation_reordered h cwd path name
  cases hcreated : onDevice device .createTemporary (temporaryLocation files cwd path name) with
  | error fault =>
    unfold persistSteps
    rw [← hlocation, hcreated]
  | ok temporary =>
    have hcreated' := hcreated
    rw [hlocation] at hcreated'
    have hmove (content : Bytes) :
        SameOutcome Reordered ((holding files temporary content).move cwd temporary path)
          ((holding files' temporary content).move cwd temporary path) :=
      (h.put temporary _).move cwd temporary path
    rw [persistSteps_outcome_eq (hfree.isVacant (onDevice_eq_ok_iff.1 hcreated).2) hcreated,
      persistSteps_outcome_eq (hfree'.isVacant (onDevice_eq_ok_iff.1 hcreated').2) hcreated']
    simp only [(hmove _).map_eq]

/-- A document is put in place in both, or refused for the same reason. -/
theorem persist_reordered (h : files.Reordered files') (cwd : Location) (device : Device)
    (path : String) (suite : TestSuite) :
    (persist files cwd device path suite).1.Reordered (persist files' cwd device path suite).1
      ∧ (persist files cwd device path suite).2 = (persist files' cwd device path suite).2 := by
  have hname := temporaryName_reordered h cwd path
  have houtcome : (persist files cwd device path suite).2 = (persist files' cwd device path suite).2 :=
    (persistSteps_reordered h (isFree_temporaryName files cwd path)
      (hname ▸ isFree_temporaryName files' cwd path) device _).trans (by rw [hname]; rfl)
  refine ⟨reordered_iff.2 fun l => ?_, houtcome⟩
  cases hplaced : (persist files cwd device path suite).2 with
  | error e =>
    rw [persist_error hplaced, persist_error (houtcome.symm.trans hplaced), h.lookup]
  | ok u =>
    rw [(persist_ok hplaced).file, (persist_ok (houtcome.symm.trans hplaced)).file, h.lookup]

end CaseHarvest.TestSuite
