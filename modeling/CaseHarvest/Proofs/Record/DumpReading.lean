import CaseHarvest.Proofs.Bytes.Payload
import CaseHarvest.Proofs.Record.DumpLines
/-!
What a dump tells about the payloads. Main statement: a payload can be read back from its literal,
and the dumps of two records that differ in nothing else are equal exactly if all of their payloads
are, even if trailing zeros are not shown (`describe_tells_payloads`).
-/
namespace CaseHarvest

/-- A line is told from what follows its end. -/
theorem IsLine.append_inj {s t x y : String} (first : IsLine s) (second : IsLine t)
    (text : s ++ ("\n" ++ x) = t ++ ("\n" ++ y)) : s = t ∧ x = y := by
  rw [← String.append_assoc, ← String.append_assoc] at text
  have pieces := congrArg (piecesBetween '\n' ·.toList) text
  simp only [first.pieces, second.pieces, List.cons.injEq] at pieces
  obtain rfl : s = t := String.toList_inj.1 pieces.1
  exact ⟨rfl, (String.append_right_inj _).1 text⟩

namespace Record

theorem unlines_append (a b : List String) : unlines (a ++ b) = unlines a ++ unlines b := by
  induction a with
  | nil => exact String.empty_append.symm
  | cons line rest ih =>
    rw [List.cons_append, unlines, unlines, ih]
    simp only [String.append_assoc]

/-- The size and the bytes that are shown tell the payload. -/
theorem eq_of_shown {trim : Bool} {o p : Object} (size : o.bytes.length = p.bytes.length)
    (shown : o.shown trim = p.shown trim) : o.bytes = p.bytes := by
  cases trim with
  | false => exact shown
  | true => exact (Bytes.trimZeros_eq_iff.1 shown).eq_of_length size

section Blocks

variable {trim : Bool} {width index : Nat}

/-- What the lines about objects begin with, behind a label that is the same for all of an index. -/
theorem exists_objectLines (trim : Bool) (width index : Nat) : ∃ label : String, ∀ o, ∃ more,
    objectLines trim width index o = (label ++ ("name: '" ++ o.name ++ "'"))
      :: (label ++ ("size: " ++ toString o.bytes.length))
      :: (label ++ ("data: " ++ String.ofList (bytesLiteral (o.shown trim)))) :: more :=
  ⟨_, fun _ => ⟨_, rfl⟩⟩

/-- The lines about an object tell its payload, whatever follows them: its size up to the end of the
line, then the bytes of its literal. -/
theorem bytes_of_objectLines {o p : Object} (name : o.name = p.name) {x y : String}
    (text : unlines (objectLines trim width index o) ++ x
      = unlines (objectLines trim width index p) ++ y) : o.bytes = p.bytes := by
  obtain ⟨label, begins⟩ := exists_objectLines trim width index
  obtain ⟨more, lines⟩ := begins o
  obtain ⟨more', lines'⟩ := begins p
  rw [lines, lines', name] at text
  -- The names may hold anything, but they are the same, so that the sizes are what comes next.
  simp only [unlines, String.append_assoc, String.append_right_inj] at text
  obtain ⟨digits, behind⟩ := IsLine.append_inj (.ofNat _) (.ofNat _) text
  have digits : toString (o.bytes.length : Int) = toString (p.bytes.length : Int) := digits
  have size : (o.bytes.length : Int) = p.bytes.length := Numeral.eq_of_toString_eq digits
  simp only [String.append_right_inj] at behind
  exact eq_of_shown (Int.ofNat.inj size) (eq_of_bytesLiteral_append behind)

/-- By induction on the objects: the lines about the first one are told from those about the others. -/
theorem bytes_of_blocks {a b : List Object} (names : a.map (·.name) = b.map (·.name))
    (text : unlines ((a.zipIdx index).flatMap fun (o, i) => objectLines trim width i o)
      = unlines ((b.zipIdx index).flatMap fun (o, i) => objectLines trim width i o)) :
    a.map (·.bytes) = b.map (·.bytes) := by
  induction a generalizing b index with
  | nil =>
    rw [List.map_eq_nil_iff.1 names.symm]
  | cons o a ih =>
    cases b with
    | nil => cases names
    | cons p b =>
      rw [List.map_cons, List.map_cons, List.cons.injEq] at names
      rw [List.zipIdx_cons, List.zipIdx_cons, List.flatMap_cons, List.flatMap_cons, unlines_append,
        unlines_append] at text
      have first : o.bytes = p.bytes := bytes_of_objectLines names.1 text
      obtain rfl : o = p := by
        cases o
        cases p
        exact congrArg₂ Object.mk names.1 first
      rw [List.map_cons, List.map_cons, ih names.2 ((String.append_right_inj _).1 text)]

end Blocks

theorem zipWith_name_bytes (objects : List Object) :
    List.zipWith Object.mk (objects.map (·.name)) (objects.map (·.bytes)) = objects := by
  rw [List.zipWith_map, List.zipWith_self]
  exact List.map_id objects

/-- A literal has visible characters only, and the payload can be read from it up to its last one.
So a dump tells all payloads of a record, given what else it shows. -/
theorem describe_tells_payloads :
    (∀ bytes, (∀ c ∈ bytesLiteral bytes, IsPrintable c)
      ∧ readLiteral? (bytesLiteral bytes) = some (bytes, []))
    ∧ ∀ r s : Record, r.source = s.source → r.args = s.args
      → r.objects.map (·.name) = s.objects.map (·.name) → ∀ trim,
        (r.describe trim = s.describe trim ↔ r.objects.map (·.bytes) = s.objects.map (·.bytes)) := by
  constructor
  · intro bytes
    exact ⟨fun _ => isPrintable_bytesLiteral, readLiteral?_whole bytes⟩
  · intro r s source args names trim
    have count : r.objects.length = s.objects.length := by
      rw [← List.length_map (·.name), names, List.length_map]
    have header : r.headerLines = s.headerLines := by
      rw [headerLines, headerLines, source, args, count]
    have width : r.indexWidth = s.indexWidth := by rw [indexWidth, indexWidth, count]
    rw [describe, describe, dumpLines, dumpLines, unlines_append, unlines_append, header, width,
      String.append_right_inj]
    constructor
    · exact bytes_of_blocks names
    · intro payloads
      have objects := zipWith_name_bytes r.objects
      rw [names, payloads, zipWith_name_bytes] at objects
      rw [objects]

/-- One object, with a name that looks like a line about its size. -/
def misleading (bytes : Bytes) : Record := create 3 [] 0 0 [⟨"n'\nobject 0: size: 2", bytes⟩]

/-- A zero that is not shown is told. -/
theorem describe_tells_zeros :
    (misleading [1]).describe true ≠ (misleading [1, 0]).describe true := by
  intro dump
  have same := describe_tells_payloads.2 (misleading [1]) (misleading [1, 0]) rfl rfl rfl true
  exact absurd (same.1 dump) (by decide)

end Record

end CaseHarvest
