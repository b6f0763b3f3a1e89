import CaseHarvest.Proofs.Bytes.Payload
import CaseHarvest.Proofs.Bytes.Text
import CaseHarvest.Record.Dump
import CaseHarvest.Value
/-!
What payloads mean. Main statement: the rules by precedence give each payload the one value that it
stands for, said case by case and without the rules (`interpret_iff_meaning`).
-/
namespace CaseHarvest.Value

open Bytes

/-- What a payload stands for. -/
inductive Meaning : Bytes → Value → Prop
  /-- A byte alone is the character with its code point. -/
  | char {byte : UInt8} {c : Char} (code : c.toNat = byte.toNat) : Meaning [byte] (.char c)
  /-- Four bytes are their number. -/
  | int {bytes : Bytes} {n : Int} (four : bytes.length = 4) (number : Denotes bytes n) :
      Meaning bytes (.int n)
  /-- ASCII bytes that do not fill their words are a text, one character for each byte up to the last
  one that is not zero. -/
  | string {bytes kept : Bytes} {s : String} (notOne : bytes.length ≠ 1) (uneven : ¬ 4 ∣ bytes.length)
      (ascii : ∀ b ∈ bytes, b < 128) (trimmed : IsTrimmed bytes kept)
      (codes : s.toList.map Char.toNat = kept.map UInt8.toNat) : Meaning bytes (.string s)
  /-- All other bytes are the numbers of their words, each at the width that it has. -/
  | intArray {bytes : Bytes} {items : List Int} (notOne : bytes.length ≠ 1)
      (notFour : bytes.length ≠ 4) (other : (∃ b ∈ bytes, 128 ≤ b) ∨ 4 ∣ bytes.length)
      (count : items.length = (bytes.length + 3) / 4)
      (numbers : ∀ k n, items[k]? = some n → Denotes ((bytes.drop (4 * k)).take 4) n) :
      Meaning bytes (.intArray items)

variable {bytes : Bytes} {v : Value}

/-! ## The rule for a payload -/

theorem ruleFor_of_one (one : bytes.length = 1) : ruleFor bytes = charRule := by
  simp [ruleFor, rules, charRule, one]

theorem ruleFor_of_four (four : bytes.length = 4) : ruleFor bytes = intRule := by
  simp [ruleFor, rules, charRule, intRule, four]

theorem ruleFor_of_ascii (notOne : bytes.length ≠ 1) (ascii : bytes.isAscii)
    (uneven : ¬ 4 ∣ bytes.length) : ruleFor bytes = stringRule := by
  have notFour : bytes.length ≠ 4 := fun four => uneven ⟨1, four⟩
  have left : bytes.length % 4 ≠ 0 := fun none => uneven (Nat.dvd_of_mod_eq_zero none)
  simp [ruleFor, rules, charRule, intRule, stringRule, notOne, notFour, ascii, left]

theorem ruleFor_of_other (notOne : bytes.length ≠ 1) (notFour : bytes.length ≠ 4)
    (other : bytes.isAscii = false ∨ 4 ∣ bytes.length) : ruleFor bytes = intArrayRule := by
  have notString : stringRule.applies bytes = false := by
    rcases other with foreign | full
    · simp [stringRule, foreign]
    · simp [stringRule, Nat.mod_eq_zero_of_dvd full]
  simp [ruleFor, rules, charRule, intRule, notOne, notFour, notString]

/-- Which rule a payload is read by. -/
theorem ruleFor_cases (bytes : Bytes) :
    (bytes.length = 1 ∧ ruleFor bytes = charRule)
      ∨ (bytes.length = 4 ∧ ruleFor bytes = intRule)
      ∨ (bytes.length ≠ 1 ∧ bytes.isAscii ∧ ¬ 4 ∣ bytes.length ∧ ruleFor bytes = stringRule)
      ∨ (bytes.length ≠ 1 ∧ bytes.length ≠ 4 ∧ (bytes.isAscii = false ∨ 4 ∣ bytes.length)
        ∧ ruleFor bytes = intArrayRule) := by
  by_cases one : bytes.length = 1
  · exact .inl ⟨one, ruleFor_of_one one⟩
  by_cases four : bytes.length = 4
  · exact .inr (.inl ⟨four, ruleFor_of_four four⟩)
  by_cases text : bytes.isAscii ∧ ¬ 4 ∣ bytes.length
  · exact .inr (.inr (.inl ⟨one, text.1, text.2, ruleFor_of_ascii one text.1 text.2⟩))
  · have other : bytes.isAscii = false ∨ 4 ∣ bytes.length := by
      rcases Classical.not_and_iff_not_or_not.1 text with foreign | full
      · exact .inl (Bool.eq_false_iff.2 foreign)
      · exact .inr (Classical.not_not.1 full)
    exact .inr (.inr (.inr ⟨one, four, other, ruleFor_of_other one four other⟩))

/-- The rule of a kind. -/
def ruleOf : ValueKind → Rule
  | .char => charRule
  | .int => intRule
  | .string => stringRule
  | .intArray => intArrayRule

theorem ruleFor_eq_ruleOf (bytes : Bytes) : ruleFor bytes = ruleOf (classify bytes) := by
  unfold classify
  rcases ruleFor_cases bytes with ⟨-, rule⟩ | ⟨-, rule⟩ | ⟨-, -, -, rule⟩ | ⟨-, -, -, rule⟩ <;>
    rw [rule] <;> rfl

theorem interpret_of_classify {kind : ValueKind} (h : classify bytes = kind) :
    interpret bytes = (ruleOf kind).read bytes := by
  rw [interpret, ruleFor_eq_ruleOf, h]

/-- Each rule gives values of its kind. -/
theorem kind_interpret (bytes : Bytes) : (interpret bytes).kind = classify bytes := by
  cases h : classify bytes <;> rw [interpret_of_classify h] <;> rfl

/-- A payload is read by a rule that applies to it. -/
theorem applies_of_classify {kind : ValueKind} (h : classify bytes = kind) :
    (ruleOf kind).applies bytes := by
  rw [← h, ← ruleFor_eq_ruleOf, ruleFor]
  cases found : rules.find? (·.applies bytes) with
  | none => rfl
  | some rule =>
    have applies : rule.applies bytes := by simpa using List.find?_some found
    exact applies

theorem length_of_char (h : classify bytes = .char) : bytes.length = 1 := by
  simpa [ruleOf, charRule] using applies_of_classify h

theorem length_of_int (h : classify bytes = .int) : bytes.length = 4 := by
  simpa [ruleOf, intRule] using applies_of_classify h

/-! ## The value of a payload -/

theorem notAscii_iff : bytes.isAscii = false ↔ ∃ b ∈ bytes, 128 ≤ b := by
  simp [isAscii]

theorem meaning_interpret (bytes : Bytes) : Meaning bytes (interpret bytes) := by
  unfold interpret
  rcases ruleFor_cases bytes with ⟨one, rule⟩ | ⟨four, rule⟩ | ⟨notOne, ascii, uneven, rule⟩
    | ⟨notOne, notFour, other, rule⟩ <;> rw [rule]
  · obtain ⟨byte, rfl⟩ := List.length_eq_one_iff.1 one
    exact .char (toNat_ofNat_byte byte)
  · exact .int four (denotes_signed bytes)
  · refine .string notOne uneven ?_ (isTrimmed_trimZeros bytes) (codes_toLatin1 _)
    simpa [isAscii] using ascii
  · refine .intArray notOne notFour (other.imp_left notAscii_iff.1) ?_ ?_
    · rw [List.length_map, length_words, wordCount]
    · intro k n hn
      rw [List.getElem?_map, getElem?_words] at hn
      split at hn
      · exact denotes_iff.2 (Option.some.inj hn)
      · cases hn

theorem interpret_of_meaning (h : Meaning bytes v) : interpret bytes = v := by
  unfold interpret
  cases h with
  | @char byte c code =>
    rw [ruleFor_of_one rfl]
    have same : Char.ofNat byte.toNat = c := by rw [← code, Char.ofNat_toNat]
    exact congrArg Value.char same
  | int four number =>
    rw [ruleFor_of_four four]
    exact congrArg Value.int (denotes_iff.1 number)
  | @string _ kept s notOne uneven ascii trimmed codes =>
    rw [ruleFor_of_ascii notOne (by simpa [isAscii] using ascii) uneven]
    have text : bytes.trimZeros.toLatin1 = s := by
      apply eq_of_codes
      rw [codes_toLatin1, isTrimmed_iff.1 trimmed, codes]
    exact congrArg Value.string text
  | @intArray _ items notOne notFour other count numbers =>
    rw [ruleFor_of_other notOne notFour (other.imp_left notAscii_iff.2)]
    have same : bytes.words.map signed = items := by
      apply List.ext_getElem?
      intro k
      rw [List.getElem?_map, getElem?_words]
      split
      · rename_i here
        have hk : k < items.length := by rwa [count]
        have item := List.getElem?_eq_getElem hk
        rw [item, ← denotes_iff.1 (numbers k _ item)]
        rfl
      · rename_i beyond
        have hk : items.length ≤ k := by
          rw [count]
          exact Nat.le_of_not_lt beyond
        rw [List.getElem?_eq_none hk]
        rfl
    exact congrArg Value.intArray same

theorem interpret_eq_iff_meaning : interpret bytes = v ↔ Meaning bytes v := by
  constructor
  · rintro rfl
    exact meaning_interpret bytes
  · exact interpret_of_meaning

/-! ## Numbers -/

theorem classify_of_four (four : bytes.length = 4) : classify bytes = .int := by
  rw [classify, ruleFor_of_four four]
  rfl

theorem items_of_interpret {items : List Int} (h : interpret bytes = .intArray items) :
    items = bytes.words.map signed := by
  have kind : classify bytes = .intArray := by
    rw [← kind_interpret, h]
    rfl
  rw [interpret_of_classify kind] at h
  exact (Value.intArray.inj h).symm

/-- The number of four bytes is the one that a dump shows. -/
theorem int_mem_objectFacts (four : bytes.length = 4) (name : String) (trim : Bool) :
    "int : " ++ (interpret bytes).render ∈ Record.objectFacts trim ⟨name, bytes⟩ := by
  have views : integerViews bytes = some (signed bytes, unsigned bytes) := by
    rw [integerViews, if_pos (by simp [four])]
  have number : interpret bytes = .int (signed bytes) := interpret_of_classify (classify_of_four four)
  simp [Record.objectFacts, views, number, render]

/-- **What a payload is taken for is what it stands for.** Its kind is told by the same rule; no rule
looks for a byte where there is none; the number of four bytes is the one in a dump; and the numbers
of words are those of the words filled up with their sign, from which the bytes can be had back. -/
theorem interpret_iff_meaning (bytes : Bytes) :
    (∀ v, interpret bytes = v ↔ Meaning bytes v)
      ∧ (interpret bytes).kind = classify bytes
      ∧ (classify bytes = .char → bytes.length = 1)
      ∧ (classify bytes = .int → bytes.length = 4)
      ∧ (∀ word ∈ bytes.words, 0 < word.length ∧ word.length ≤ 4)
      ∧ (bytes.length = 4 → ∀ name trim,
          "int : " ++ (interpret bytes).render ∈ Record.objectFacts trim ⟨name, bytes⟩)
      ∧ ∀ items, interpret bytes = .intArray items →
          items = bytes.words.map (fun word => (word.signExtend 4).signed)
            ∧ writeWords bytes.length items = bytes := by
  refine ⟨fun _ => interpret_eq_iff_meaning, kind_interpret bytes, length_of_char, length_of_int,
    fun _ => length_of_mem_words, int_mem_objectFacts, ?_⟩
  intro items h
  obtain rfl := items_of_interpret h
  refine ⟨?_, writeWords_words bytes⟩
  exact List.map_congr_left fun word _ => (signed_signExtend 4 word).symm

/-- A short last word is read at its own width, and ASCII makes no difference to four bytes. -/
theorem interpret_iff_meaning_short_word :
    (interpret [128, 0, 0, 0, 254, 255] = .intArray [128, -2]
        ∧ writeWords 6 [128, -2] = [128, 0, 0, 0, 254, 255])
      ∧ List.length [97, 98, 99, 100] = 4
      ∧ "int : " ++ (interpret [97, 98, 99, 100]).render
          ∈ Record.objectFacts true ⟨"x", [97, 98, 99, 100]⟩ := by
  have read : interpret [128, 0, 0, 0, 254, 255] = .intArray [128, -2] := by decide
  obtain ⟨-, -, -, -, -, -, words⟩ := interpret_iff_meaning [128, 0, 0, 0, 254, 255]
  obtain ⟨-, -, -, -, -, dump, -⟩ := interpret_iff_meaning [97, 98, 99, 100]
  exact ⟨⟨read, (words _ read).2⟩, rfl, dump rfl "x" true⟩

end CaseHarvest.Value
