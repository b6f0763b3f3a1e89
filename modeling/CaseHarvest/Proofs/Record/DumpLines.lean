import CaseHarvest.Proofs.Bytes.Literal
import CaseHarvest.Proofs.Bytes.Signed
import CaseHarvest.Proofs.Files.Path
import CaseHarvest.Proofs.Json.Numeral
/-!
The lines of a dump. Main statement: if no text of a record has a line end in it, then its dump has
three lines about the record, and for each object seven or five, which start with the same label
(`describe_lines`).
-/
namespace CaseHarvest

/-! ## Lines -/

/-- A text without a line end. -/
def IsLine (s : String) : Prop := '\n' ∉ s.toList

instance (s : String) : Decidable (IsLine s) := inferInstanceAs (Decidable (¬ _))

namespace IsLine

variable {s t : String}

theorem append (first : IsLine s) (second : IsLine t) : IsLine (s ++ t) := by
  unfold IsLine
  rw [String.toList_append, List.mem_append]
  exact not_or.2 ⟨first, second⟩

theorem intercalate {texts : List String} (separator : IsLine s) (h : ∀ t ∈ texts, IsLine t) :
    IsLine (s.intercalate texts) := by
  induction texts with
  | nil =>
    rw [String.intercalate_nil]
    decide
  | cons t rest ih =>
    have first := h t List.mem_cons_self
    have others := ih fun u hu => h u (List.mem_cons_of_mem t hu)
    cases rest with
    | nil => exact first
    | cons u rest =>
      rw [String.intercalate_cons_cons]
      exact (first.append separator).append others

theorem ofPrintable (h : ∀ c ∈ s.toList, IsPrintable c) : IsLine s := by
  intro lineEnd
  exact absurd (h _ lineEnd) (by decide)

theorem ofNat (n : Nat) : IsLine (toString n) := not_mem_toString rfl n

theorem ofInt (n : Int) : IsLine (toString n) := by
  unfold IsLine
  rw [Numeral.toList_toString, ← Nat.toList_repr, List.mem_append]
  apply not_or.2
  constructor
  · split <;> decide
  · exact not_mem_toString rfl n.natAbs

/-- A line is the first piece of a text that begins with it and its end. -/
theorem pieces (h : IsLine s) (rest : String) : piecesBetween '\n' (s ++ "\n" ++ rest).toList
    = s.toList :: piecesBetween '\n' rest.toList := by
  have lineEnd : "\n".toList = ['\n'] := rfl
  rw [String.toList_append, String.toList_append, lineEnd, List.append_assoc, List.singleton_append,
    piecesBetween_append_separator, piecesBetween_of_not_mem h, List.singleton_append]

end IsLine

/-- The lines of a text that ends each of them: nothing is left behind the last one. -/
def HasLines (text : String) (lines : List String) : Prop :=
  piecesBetween '\n' text.toList = (lines ++ [""]).map String.toList

namespace Record

theorem hasLines_unlines {lines : List String} (h : ∀ line ∈ lines, IsLine line) :
    HasLines (unlines lines) lines := by
  induction lines with
  | nil => rfl
  | cons line rest ih =>
    have first := h line List.mem_cons_self
    have others := ih fun l hl => h l (List.mem_cons_of_mem line hl)
    unfold HasLines at others ⊢
    rw [unlines, first.pieces, others, List.cons_append, List.map_cons]

/-! ## Labels -/

/-- The label of the lines about an object: its index behind blanks, as many characters as the label
of the last object takes without blanks. -/
structure IsLabel (r : Record) (index : Nat) (label : String) : Prop where
  written : ∃ blanks : List Char, (∀ c ∈ blanks, c = ' ')
    ∧ label = "object " ++ (String.ofList blanks ++ toString index) ++ ": "
  length : label.length = ("object " ++ toString (r.objects.length - 1) ++ ": ").length

/-- A higher number does not take fewer digits. -/
theorem length_toString_le {m n : Nat} (h : m ≤ n) : (toString m).length ≤ (toString n).length := by
  rw [Nat.toString_eq_repr, Nat.toString_eq_repr, ← String.length_toList, ← String.length_toList,
    Nat.toList_repr, Nat.toList_repr]
  -- A number has at most so many digits exactly if it is less than that power of ten.
  have digits : 0 < (Nat.toDigits 10 n).length := List.length_pos_iff.2 Nat.toDigits_ne_nil
  have bound := (Nat.length_toDigits_le_iff (by decide) digits).1 (Nat.le_refl _)
  exact (Nat.length_toDigits_le_iff (by decide) digits).2 (Nat.lt_of_le_of_lt h bound)

theorem length_padLeft {width : Nat} {text : String} (h : text.length ≤ width) :
    (padLeft width text).length = width := by
  rw [padLeft, String.length_append, String.length_ofList, List.length_replicate]
  omega

/-- One object or none takes the width of one digit, as an index of zero does. -/
theorem indexWidth_eq (r : Record) : r.indexWidth = (toString (r.objects.length - 1)).length := by
  unfold indexWidth
  cases h : r.objects.length - 1 with
  | zero => rfl
  | succ n => rw [Nat.max_eq_left (Nat.le_add_left 1 n)]

theorem isLabel_padLeft {r : Record} {index : Nat} (h : index < r.objects.length) :
    IsLabel r index ("object " ++ padLeft r.indexWidth (toString index) ++ ": ") := by
  have narrow : (toString index).length ≤ r.indexWidth := by
    rw [indexWidth_eq]
    exact length_toString_le (by omega)
  refine ⟨⟨_, fun c hc => List.eq_of_mem_replicate hc, rfl⟩, ?_⟩
  rw [String.length_append, String.length_append, length_padLeft narrow, indexWidth_eq,
    ← String.length_append, ← String.length_append]

theorem IsLabel.isLine {r : Record} {index : Nat} {label : String} (h : IsLabel r index label) :
    IsLine label := by
  obtain ⟨blanks, blank, rfl⟩ := h.written
  have printable : ∀ c ∈ (String.ofList blanks).toList, IsPrintable c := by
    intro c hc
    rw [String.toList_ofList] at hc
    rw [blank c hc]
    decide
  have index := (IsLine.ofPrintable printable).append (.ofNat index)
  exact (IsLine.append (by decide) index).append (by decide)

/-! ## Facts -/

/-- The digits of bytes: two lower-case ones for each, and the bytes can be read from them. -/
structure IsHexOf (bytes : Bytes) (digits : String) : Prop where
  length : digits.length = 2 * bytes.length
  lower : ∀ c ∈ digits.toList, Bytes.IsHexDigit c
  read : Bytes.ofHex? digits.toList = some bytes

/-- One visible character or blank for each byte, which is the byte's own if it has one. -/
structure IsTextOf (bytes : Bytes) (text : String) : Prop where
  length : text.length = bytes.length
  printable : ∀ c ∈ text.toList, IsPrintable c
  own : ∀ (i : Nat) (b : UInt8), bytes[i]? = some b → 32 ≤ b ∧ b ≤ 126 →
    text.toList[i]? = some (Char.ofNat b.toNat)

/-- The two's-complement and the unsigned number that are written as these bytes. -/
structure AreNumbersOf (bytes : Bytes) (int : Int) (uint : Nat) : Prop where
  signed : Bytes.Denotes bytes int
  unsigned : uint < 256 ^ bytes.length ∧ Bytes.littleEndian bytes.length uint = bytes
  congruent : int % (256 ^ bytes.length : Nat) = uint % (256 ^ bytes.length : Nat)

/-- The widths of machine integers, in bytes. -/
def machineWidths : List Nat := [1, 2, 4, 8]

/-- What the lines about an object tell behind their label: literal, digits and text are those of the
bytes that are shown, the size and the numbers those of the whole payload. -/
structure Tells (trim : Bool) (o : Object) (facts : List String) : Prop where
  count : facts.length = if o.bytes.length ∈ machineWidths then 7 else 5
  start : facts.take 2 = ["name: '" ++ o.name ++ "'", "size: " ++ toString o.bytes.length]
  data : ∃ literal, facts[2]? = some ("data: " ++ literal)
    ∧ readLiteral? literal.toList = some (o.shown trim, [])
  hex : ∃ digits, facts[3]? = some ("hex : 0x" ++ digits) ∧ IsHexOf (o.shown trim) digits
  numbers : o.bytes.length ∈ machineWidths → ∃ int uint, facts[4]? = some ("int : " ++ toString int)
    ∧ facts[5]? = some ("uint: " ++ toString uint) ∧ AreNumbersOf o.bytes int uint
  text : ∃ text, facts.getLast? = some ("text: " ++ text) ∧ IsTextOf (o.shown trim) text

theorem isHexOf_toHex (bytes : Bytes) : IsHexOf bytes bytes.toHex where
  length := Bytes.length_toHex bytes
  lower _ := Bytes.isHexDigit_of_mem_toHex
  read := by
    rw [Bytes.toHex, String.toList_ofList]
    exact Bytes.ofHex?_flatMap_hexPair bytes

theorem isTextOf_visible (bytes : Bytes) : IsTextOf bytes (String.ofList (bytes.map visible)) where
  length := by rw [String.length_ofList, List.length_map]
  printable c hc := by
    rw [String.toList_ofList] at hc
    obtain ⟨b, -, rfl⟩ := List.mem_map.1 hc
    exact isPrintable_visible b
  own i b hb hvisible := by
    have char : visible b = Char.ofNat b.toNat := if_pos hvisible
    rw [String.toList_ofList, List.getElem?_map, hb, Option.map_some, char]

theorem areNumbersOf_signed (bytes : Bytes) :
    AreNumbersOf bytes bytes.signed bytes.unsigned where
  signed := Bytes.denotes_signed bytes
  unsigned := ⟨Bytes.unsigned_lt bytes, Bytes.littleEndian_unsigned bytes⟩
  congruent := by
    rw [← Bytes.signed_emod bytes, Int.emod_emod_of_dvd _ (Int.dvd_refl _)]

theorem tells_objectFacts (trim : Bool) (o : Object) : Tells trim o (objectFacts trim o) := by
  have literal : readLiteral? (String.ofList (bytesLiteral (o.shown trim))).toList
      = some (o.shown trim, []) := by
    rw [String.toList_ofList]
    exact readLiteral?_whole (o.shown trim)
  have digits := isHexOf_toHex (o.shown trim)
  have text := isTextOf_visible (o.shown trim)
  by_cases h : o.bytes.length ∈ machineWidths
  · have views : integerViews o.bytes = some (o.bytes.signed, o.bytes.unsigned) := if_pos h
    have numbers := areNumbersOf_signed o.bytes
    rw [objectFacts, views]
    exact ⟨(if_pos h).symm, rfl, ⟨_, rfl, literal⟩, ⟨_, rfl, digits⟩,
      fun _ => ⟨_, _, rfl, rfl, numbers⟩, ⟨_, rfl, text⟩⟩
  · have views : integerViews o.bytes = none := if_neg h
    rw [objectFacts, views]
    exact ⟨(if_neg h).symm, rfl, ⟨_, rfl, literal⟩, ⟨_, rfl, digits⟩,
      fun width => absurd width h, ⟨_, rfl, text⟩⟩

theorem isLine_of_mem_objectFacts {trim : Bool} {o : Object} (name : IsLine o.name) {fact : String}
    (h : fact ∈ objectFacts trim o) : IsLine fact := by
  have literal : IsLine (String.ofList (bytesLiteral (o.shown trim))) := by
    apply IsLine.ofPrintable
    intro c hc
    rw [String.toList_ofList] at hc
    exact isPrintable_bytesLiteral hc
  have digits : IsLine (o.shown trim).toHex :=
    .ofPrintable fun _ hc => isPrintable_of_isHexDigit (Bytes.isHexDigit_of_mem_toHex hc)
  have text := IsLine.ofPrintable (isTextOf_visible (o.shown trim)).printable
  have numbers (int : Int) (uint : Nat) :
      ∀ fact ∈ ["int : " ++ toString int, "uint: " ++ toString uint], IsLine fact := by
    simp only [List.forall_mem_cons, List.not_mem_nil, false_implies, implies_true, and_true]
    exact ⟨.append (by decide) (.ofInt int), .append (by decide) (.ofNat uint)⟩
  unfold objectFacts at h
  rw [List.mem_append, List.mem_append, List.mem_singleton] at h
  rcases h with (first | number) | rfl
  · simp only [List.mem_cons, List.not_mem_nil, or_false] at first
    rcases first with rfl | rfl | rfl | rfl
    · exact (IsLine.append (by decide) name).append (by decide)
    · exact .append (by decide) (.ofNat o.bytes.length)
    · exact .append (by decide) literal
    · exact .append (by decide) digits
  · split at number
    · exact numbers _ _ fact number
    · cases number
  · exact .append (by decide) text

/-! ## The dump -/

/-- None of the texts of a record has a line end in it. -/
structure HasPlainTexts (r : Record) : Prop where
  source : ∀ path ∈ r.source, IsLine path
  args : ∀ arg ∈ r.args, IsLine arg
  names : ∀ o ∈ r.objects, IsLine o.name

theorem isLine_of_mem_headerLines {r : Record} (plain : r.HasPlainTexts) {line : String}
    (h : line ∈ r.headerLines) : IsLine line := by
  have source : IsLine (r.source.getD "") := by
    cases hsource : r.source with
    | none => decide
    | some path => exact plain.source path hsource
  have args : IsLine (", ".intercalate (r.args.map fun arg => "'" ++ arg ++ "'")) := by
    apply IsLine.intercalate (by decide)
    intro quoted hquoted
    obtain ⟨arg, harg, rfl⟩ := List.mem_map.1 hquoted
    exact (IsLine.append (by decide) (plain.args arg harg)).append (by decide)
  simp only [headerLines, List.mem_cons, List.not_mem_nil, or_false] at h
  rcases h with rfl | rfl | rfl
  · exact (IsLine.append (by decide) source).append (by decide)
  · exact (IsLine.append (by decide) args).append (by decide)
  · exact .append (by decide) (.ofNat r.objects.length)

/-- The lines about each object, in the order of the objects. -/
def blocks (trim : Bool) (r : Record) : List (List String) :=
  r.objects.zipIdx.map fun (o, i) => objectLines trim r.indexWidth i o

theorem dumpLines_eq (trim : Bool) (r : Record) :
    r.dumpLines trim = r.headerLines ++ (r.blocks trim).flatten := rfl

theorem isLine_of_mem_dumpLines {r : Record} (plain : r.HasPlainTexts) {trim : Bool} {line : String}
    (h : line ∈ r.dumpLines trim) : IsLine line := by
  rw [dumpLines, List.mem_append] at h
  rcases h with header | object
  · exact isLine_of_mem_headerLines plain header
  · obtain ⟨⟨o, i⟩, hobject, hline⟩ := List.mem_flatMap.1 object
    obtain ⟨fact, hfact, rfl⟩ := List.mem_map.1 hline
    have here : r.objects[i]? = some o := List.mem_zipIdx_iff_getElem?.1 hobject
    obtain ⟨bound, -⟩ := List.getElem?_eq_some_iff.1 here
    have name := plain.names o (List.mem_of_getElem? here)
    exact (isLabel_padLeft bound).isLine.append (isLine_of_mem_objectFacts name hfact)

/-- The lines of a dump: three about the record, then the facts about each object, every one behind
the object's label. -/
theorem describe_lines {r : Record} (plain : r.HasPlainTexts) (trim : Bool) :
    ∃ blocks : List (List String),
      HasLines (r.describe trim) (r.headerLines ++ blocks.flatten)
        ∧ r.headerLines.length = 3
        ∧ blocks.length = r.objects.length
        ∧ ∀ i o, r.objects[i]? = some o → ∃ label facts, blocks[i]? = some (facts.map (label ++ ·))
            ∧ IsLabel r i label ∧ Tells trim o facts := by
  refine ⟨r.blocks trim, ?_, rfl, ?_, ?_⟩
  · rw [← dumpLines_eq]
    exact hasLines_unlines fun _ => isLine_of_mem_dumpLines plain
  · rw [blocks, List.length_map, List.length_zipIdx]
  · intro i o here
    obtain ⟨bound, -⟩ := List.getElem?_eq_some_iff.1 here
    refine ⟨_, objectFacts trim o, ?_, isLabel_padLeft bound, tells_objectFacts trim o⟩
    rw [blocks, List.getElem?_map, List.getElem?_zipIdx, here, Nat.zero_add]
    rfl

/-- More objects than one digit counts. -/
def eleven : Record where
  version := 3
  args := ["a.bc", "'"]
  symArgvs := 0
  symArgvLen := 0
  objects := ⟨"n", [254, 255]⟩ :: List.replicate 10 ⟨"", [10, 0, 0]⟩
  source := "t.ktest"

theorem describe_lines_eleven : eleven.HasPlainTexts ∧ ∃ blocks : List (List String),
    HasLines (eleven.describe true) (eleven.headerLines ++ blocks.flatten) ∧ blocks.length = 11
      ∧ ∃ label facts, blocks[9]? = some (facts.map (label ++ ·)) ∧ IsLabel eleven 9 label
        ∧ Tells true ⟨"", [10, 0, 0]⟩ facts := by
  have plain : eleven.HasPlainTexts := by
    refine ⟨?_, by decide, by decide⟩
    rintro path ⟨⟩
    decide
  obtain ⟨blocks, lines, -, count, block⟩ := describe_lines plain true
  exact ⟨plain, blocks, lines, count, block 9 _ rfl⟩

end Record

end CaseHarvest
