import CaseHarvest.Proofs.Bytes.Text
import CaseHarvest.Proofs.Json.ReadBack
import CaseHarvest.Suite.Document
/-!
Reading a suite's document. Main statements: a suite that nothing has been filled into since it was
made is read back from its document, with any blanks behind it (`IsFresh.parse?_document`), and so
is every suite that is made of records (`document_assemble_reads_back`).
-/
namespace CaseHarvest

namespace Json

variable {names : List String} {members : List (String × Json)}

theorem knownMembers_named (hknown : ∀ m ∈ members, m.1 ∈ names)
    (hdistinct : (members.map (·.1)).Nodup) : knownMembers names (named members) = some members := by
  induction members with
  | nil => rfl
  | cons member members ih =>
    obtain ⟨key, value⟩ := member
    rw [List.map_cons, List.nodup_cons] at hdistinct
    have hothers := ih (fun m hm => hknown m (List.mem_cons_of_mem _ hm)) hdistinct.2
    have hkey : key ∈ names := hknown _ List.mem_cons_self
    have hnew : members.any (fun m => m.1 = key) = false := by
      rw [List.any_eq_false]
      intro m hm
      rw [decide_eq_true_eq]
      intro hsame
      exact hdistinct.1 (List.mem_map.2 ⟨m, hm, hsame⟩)
    simp [knownMembers, hothers, hkey, hnew]

/-- A structure that is written with all its fields has them all. -/
theorem fields?_ofMembers (hnames : members.map (·.1) = names) (hdistinct : names.Nodup) :
    fields? names (ofMembers members) = some members :=
  knownMembers_named (fun _ hm => hnames ▸ List.mem_map_of_mem hm) (hnames ▸ hdistinct)

theorem toListOf?_map {α : Type} {read : Json → Option α} {write : α → Json} {items : List α}
    (h : ∀ item ∈ items, read (write item) = some item) :
    toListOf? read (.array (items.map write)) = some items := by
  induction items with
  | nil => rfl
  | cons item items ih =>
    have hothers : (items.map write).mapM read = some items :=
      ih fun i hi => h i (List.mem_cons_of_mem _ hi)
    simp [toListOf?, h item List.mem_cons_self, hothers]

end Json

open Json (IsWritable)

theorem ValueKind.ofLabel?_label (k : ValueKind) : ofLabel? k.label = some k := by
  cases k <;> rfl

/-- Zero is written as a proper numeral. -/
theorem Numeral.isProper_zero : (ofBinary64 .zero).IsProper where
  whole := by decide
  leading _ := rfl
  fraction := by
    rintro ds ⟨⟩
    decide

namespace InputVar

theorem isWritable_toJson (v : InputVar) : IsWritable v.toJson := by
  refine .members ?_
  simp only [List.forall_mem_cons]
  exact ⟨.text _, .text _, .text _, nofun⟩

theorem ofJson?_toJson (v : InputVar) : ofJson? v.toJson = some v := by
  unfold ofJson? toJson
  rw [Json.fields?_ofMembers]
  · simp [requiredField, List.lookup_cons, kindOfJson?, Json.text, Json.toString?, ValueKind.ofLabel?_label]
  · rfl
  · decide

end InputVar

namespace TestCase

theorem isWritable_toJson (c : TestCase) : IsWritable c.toJson := by
  refine .members ?_
  simp only [List.forall_mem_cons]
  refine ⟨.array ?_, .members ?_, .text _, .bool _, nofun⟩
  · exact List.forall_mem_map.2 fun v _ => v.isWritable_toJson
  · exact List.forall_mem_map.2 fun _ _ => .text _

theorem ofJson?_toJson {c : TestCase} (h : c.outputs = []) : ofJson? c.toJson = some c := by
  obtain ⟨inputs, outputs, description, reserved⟩ := c
  obtain rfl : outputs = [] := h
  unfold ofJson? toJson
  have hinputs := Json.toListOf?_map fun v (_ : v ∈ inputs) => v.ofJson?_toJson
  rw [Json.fields?_ofMembers]
  · simp [requiredField, List.lookup_cons, optionalField, hinputs, outputsOfJson?, Json.ofMembers, Json.text,
      Json.toString?, Json.toBool?]
  · rfl
  · decide

end TestCase

namespace TestSuite

/-- A suite as it was made: nothing has been covered, and no output filled in. -/
structure IsFresh (s : TestSuite) : Prop where
  coverage : s.coverage = .zero
  outputs : ∀ c ∈ s.testCases, c.outputs = []

theorem isFresh_assemble (records : List Record) (metadata : SuiteMetadata) :
    (assemble records metadata).IsFresh where
  coverage := rfl
  outputs := List.forall_mem_map.2 fun _ _ => rfl

/-- The test cases are the records in their order, each one's inputs its objects in their order. -/
theorem testCases_assemble (records : List Record) (metadata : SuiteMetadata) (i : Nat) :
    (assemble records metadata).testCases[i]? = records[i]?.map (TestCase.ofRecord i) := by
  have hcases : (assemble records metadata).testCases
      = records.zipIdx.map fun p => TestCase.ofRecord p.2 p.1 := rfl
  rw [hcases, List.getElem?_map, List.getElem?_zipIdx, Nat.zero_add, Option.map_map]
  rfl

variable {s s' : TestSuite}

theorem IsFresh.isWritable_toJson (h : s.IsFresh) : IsWritable s.toJson := by
  refine .members ?_
  simp only [List.forall_mem_cons]
  refine ⟨.number ?_, .text _, .bool _, .text _, .text _, .array ?_, nofun⟩
  · rw [h.coverage]
    exact Numeral.isProper_zero
  · exact List.forall_mem_map.2 fun c _ => c.isWritable_toJson

theorem IsFresh.ofJson?_toJson (h : s.IsFresh) : ofJson? s.toJson = some s := by
  have hcoverage : (Numeral.ofBinary64 s.coverage).toBinary64? = some s.coverage := by
    rw [h.coverage]
    decide +kernel
  have hcases := Json.toListOf?_map fun c hc => TestCase.ofJson?_toJson (h.outputs c hc)
  unfold ofJson? toJson
  rw [Json.fields?_ofMembers]
  · simp [requiredField, List.lookup_cons, hcoverage, hcases, Json.text, Json.toString?, Json.toBool?,
      Json.toBinary64?]
  · rfl
  · decide

/-- A fresh suite is read back from its document, with any blanks behind it. -/
theorem IsFresh.parse?_document (h : s.IsFresh) {blanks : String}
    (hblanks : ∀ c ∈ blanks.toList, Json.isBlank c) : parse? (s.document ++ blanks) = some s := by
  rw [parse?, document, Json.parse?_pretty h.isWritable_toJson hblanks]
  exact h.ofJson?_toJson

theorem isBlank_lineFeed : ∀ c ∈ "\n".toList, Json.isBlank c := by
  intro c hc
  obtain rfl : c = '\n' := by simpa using hc
  rfl

/-- The suite whose document a file holds. -/
def ofBytes? (bytes : Bytes) : Option TestSuite := bytes.toString? >>= parse?

/-- A fresh suite is read back from the file that it has been put into. -/
theorem IsFresh.ofBytes?_document (h : s.IsFresh) :
    ofBytes? (Bytes.ofString s.document ++ [10]) = some s := by
  have hfile : Bytes.ofString s.document ++ [10] = Bytes.ofString (s.document ++ "\n") := by
    rw [Bytes.ofString_append]
    rfl
  rw [ofBytes?, hfile, Bytes.toString?_ofString, Option.bind_eq_bind, Option.bind_some]
  exact h.parse?_document isBlank_lineFeed

/-- Fresh suites with the same document are the same. -/
theorem IsFresh.eq_of_document_eq (h : s.IsFresh) (h' : s'.IsFresh)
    (hsame : s.document = s'.document) : s = s' := by
  have hread : parse? (s.document ++ "") = some s := h.parse?_document nofun
  have hread' : parse? (s'.document ++ "") = some s' := h'.parse?_document nofun
  rw [hsame, hread'] at hread
  exact (Option.some.inj hread).symm

/-- **The document is the suite.** What is made of records is read back from its document, without
and with the line feed that a file ends in: not covered, not executed, with its metadata, and with a
test case for each record in order, which holds the record's objects in order by name, rendered
payload and type, has no outputs and is not reserved. Different suites have different documents. -/
theorem document_assemble_reads_back (records : List Record) (metadata : SuiteMetadata) :
    let suite := assemble records metadata
    parse? suite.document = some suite
    ∧ parse? (suite.document ++ "\n") = some suite
    ∧ ofBytes? (Bytes.ofString suite.document ++ [10]) = some suite
    ∧ suite.coverage = .zero ∧ suite.executed = false
    ∧ suite.description = metadata.description ∧ suite.funcName = metadata.funcName
    ∧ suite.srcFile = metadata.srcFile
    ∧ (∀ i : Nat, suite.testCases[i]? = records[i]?.map fun (r : Record) => TestCase.mk
        (r.objects.map fun o =>
          InputVar.mk o.name (Value.interpret o.bytes).render (Value.interpret o.bytes).kind)
        [] ("test case " ++ toString i ++ " generated") false)
    ∧ ∀ records' metadata', assemble records' metadata' ≠ suite →
        (assemble records' metadata').document ≠ suite.document := by
  intro suite
  have hfresh : suite.IsFresh := isFresh_assemble records metadata
  have hread : parse? suite.document = some suite := by
    rw [← String.append_empty (s := suite.document)]
    exact hfresh.parse?_document nofun
  refine ⟨hread, hfresh.parse?_document isBlank_lineFeed, hfresh.ofBytes?_document, rfl, rfl, rfl,
    rfl, rfl, testCases_assemble records metadata, fun records' metadata' hdiffers hsame => ?_⟩
  exact hdiffers ((isFresh_assemble records' metadata').eq_of_document_eq hfresh hsame)

end TestSuite

end CaseHarvest
