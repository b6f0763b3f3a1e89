import CaseHarvest.Proofs.Record.Dedup
import CaseHarvest.Proofs.Suite.Document
import CaseHarvest.Record.Snapshot
/-!
Snapshots of records. Main statements: snapshots are read back from the document that they are written in
(`listOfText?_pretty`), and of the same records a suite has those test cases that their fingerprints and
inputs make (`inputs_assemble_dedup`).
-/
namespace CaseHarvest

open Json (IsWritable)

theorem int32OfInt?_toInt (n : Int32) : int32OfInt? n.toInt = some n := by
  have hrange : -0x80000000 ≤ n.toInt ∧ n.toInt < 0x80000000 := ⟨n.le_toInt, n.toInt_lt⟩
  rw [int32OfInt?, if_pos hrange, Int32.ofInt_toInt]

theorem Json.toInt32?_ofInt (n : Int32) : toInt32? (.ofInt n.toInt) = some n := by
  show (Numeral.ofInt n.toInt).toInt? >>= int32OfInt? = some n
  rw [Numeral.toInt?_ofInt, Option.bind_eq_bind, Option.bind_some, int32OfInt?_toInt]

namespace Snapshot

theorem isWritable_toJson (s : Snapshot) : IsWritable s.toJson := by
  have hnumber (n : Int) : IsWritable (.ofInt n) := .number (Numeral.isProper_ofInt n)
  refine .members ?_
  simp only [List.forall_mem_cons]
  refine ⟨.text _, hnumber _, .array ?_, hnumber _, hnumber _, .text _, .array ?_, nofun⟩
  · exact List.forall_mem_map.2 fun a _ => .text a
  · exact List.forall_mem_map.2 fun v _ => v.isWritable_toJson

/-- Reads a snapshot, which has all fields. -/
def ofJson? (j : Json) : Option Snapshot := do
  let fields ← j.fields?
    ["file", "version", "args", "sym_argvs", "sym_argv_len", "fingerprint", "inputs"]
  return {
    file := ← requiredField fields "file" Json.toString?
    version := ← requiredField fields "version" Json.toInt32?
    args := ← requiredField fields "args" (Json.toListOf? Json.toString?)
    symArgvs := ← requiredField fields "sym_argvs" Json.toInt32?
    symArgvLen := ← requiredField fields "sym_argv_len" Json.toInt32?
    fingerprint := ← requiredField fields "fingerprint" Json.toString?
    inputs := ← requiredField fields "inputs" (Json.toListOf? InputVar.ofJson?) }

theorem ofJson?_toJson (s : Snapshot) : ofJson? s.toJson = some s := by
  have hargs : Json.toListOf? Json.toString? (.array (s.args.map .text)) = some s.args :=
    Json.toListOf?_map fun a _ => rfl
  have hinputs := Json.toListOf?_map fun v (_ : v ∈ s.inputs) => v.ofJson?_toJson
  unfold ofJson? toJson
  rw [Json.fields?_ofMembers]
  · simp [requiredField, List.lookup_cons, hargs, hinputs, Json.toInt32?_ofInt, Json.text, Json.toString?]
  · rfl
  · decide

/-- Reads snapshots in a text. -/
def listOfText? (text : String) : Option (List Snapshot) := Json.parse? text >>= Json.toListOf? ofJson?

theorem listOfText?_pretty (snapshots : List Snapshot) :
    listOfText? ((Json.array (snapshots.map toJson)).pretty ++ "\n") = some snapshots := by
  have hwritable : IsWritable (.array (snapshots.map toJson)) :=
    .array (List.forall_mem_map.2 fun s _ => s.isWritable_toJson)
  rw [listOfText?, Json.parse?_pretty hwritable TestSuite.isBlank_lineFeed, Option.bind_eq_bind,
    Option.bind_some]
  exact Json.toListOf?_map fun s _ => s.ofJson?_toJson

/-- The snapshots at those positions before which their fingerprint does not occur. -/
def firsts (snapshots : List Snapshot) : List Snapshot :=
  (snapshots.zipIdx.filter fun (s, i) => s.fingerprint ∉ (snapshots.take i).map (·.fingerprint)).map (·.1)

/-- The inputs of a suite's test cases are the objects of its records. -/
theorem inputs_assemble (records : List Record) (metadata : SuiteMetadata) :
    (TestSuite.assemble records metadata).testCases.map (·.inputs)
      = records.map fun r => r.objects.map InputVar.ofObject := by
  unfold TestSuite.assemble
  rw [List.map_map]
  calc _ = (records.zipIdx.map (·.1)).map fun r => r.objects.map InputVar.ofObject := by
        rw [List.map_map]
        rfl
    _ = _ := by rw [List.zipIdx_map_fst]

/-- Where the same records are harvested, the first snapshot of each fingerprint shows the inputs of a test
case, in order. -/
theorem inputs_assemble_dedup (read : List (String × Record)) (metadata : SuiteMetadata) :
    (TestSuite.assemble (Record.dedup (read.map (·.2))) metadata).testCases.map (·.inputs)
      = (firsts (read.map fun (path, r) => ofRecord path r)).map (·.inputs) := by
  rw [inputs_assemble, Record.dedup_eq_firstOccurrences, Record.firstOccurrences, firsts]
  simp only [List.zipIdx_map, List.filter_map, List.map_map, ← List.map_take, Record.prints]
  rfl

end Snapshot

end CaseHarvest
