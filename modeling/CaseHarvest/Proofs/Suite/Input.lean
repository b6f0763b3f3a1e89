import CaseHarvest.Proofs.Json.Numeral
import CaseHarvest.Proofs.Value.Meaning
import CaseHarvest.Suite.Basic
/-!
What an input of a test case tells about the payload that it was made of. Main statement: kind and data
tell all of a payload but its length, and what they leave open with it are trailing zeros of a text
and the width of the last word of a list (`inputVar_alike_iff`).
-/
namespace CaseHarvest

open Bytes

namespace Value

/-! ## The texts of values -/

/-- The text of a number can stand in a list. -/
theorem isItem_toString (n : Int) : (toString n).toList ≠ [] ∧ ',' ∉ (toString n).toList := by
  rw [Numeral.toList_toString]
  refine ⟨List.append_ne_nil_of_right_ne_nil _ Nat.toDigits_ne_nil, ?_⟩
  intro comma
  rcases List.mem_append.1 comma with sign | digit
  · split at sign
    · exact absurd sign (by decide)
    · cases sign
  · exact absurd (Nat.isDigit_of_mem_toDigits (by decide) (by decide) digit) (by decide)

/-- A blank behind each comma is one in front of each item but the first. -/
theorem intercalate_pair {α : Type} (comma blank : α) (first : List α) (items : List (List α)) :
    [comma, blank].intercalate (first :: items)
      = [comma].intercalate (first :: items.map (blank :: ·)) := by
  induction items generalizing first with
  | nil => rfl
  | cons item items ih =>
    rw [List.map_cons, List.intercalate_cons_cons, List.intercalate_cons_cons, ih]
    cases items <;> simp [List.intercalate_cons_cons]

/-- Items without commas, none of them empty, are told by the text that they make. -/
theorem intercalate_injective {xs ys : List (List Char)} (hx : ∀ x ∈ xs, x ≠ [] ∧ ',' ∉ x)
    (hy : ∀ y ∈ ys, y ≠ [] ∧ ',' ∉ y)
    (text : [',', ' '].intercalate xs = [',', ' '].intercalate ys) : xs = ys := by
  have split {first : List Char} {items : List (List Char)}
      (h : ∀ item ∈ first :: items, item ≠ [] ∧ ',' ∉ item) :
      ([',', ' '].intercalate (first :: items)).splitOn ','
        = first :: items.map (' ' :: ·) := by
    rw [intercalate_pair, List.splitOn_intercalate ',' _ (List.cons_ne_nil _ _)]
    intro item hitem
    rcases List.mem_cons.1 hitem with rfl | hitem
    · exact (h _ List.mem_cons_self).2
    · obtain ⟨item, hmem, rfl⟩ := List.mem_map.1 hitem
      rw [List.mem_cons]
      rintro (blank | comma)
      · exact absurd blank (by decide)
      · exact (h item (List.mem_cons_of_mem _ hmem)).2 comma
  have nonempty {first : List Char} {items : List (List Char)} (h : first ≠ []) :
      [',', ' '].intercalate (first :: items) ≠ [] := by
    cases items with
    | nil => simpa using h
    | cons item items => simp [List.intercalate_cons_cons]
  cases xs with
  | nil =>
    cases ys with
    | nil => rfl
    | cons y ys => exact absurd text.symm (nonempty (hy y List.mem_cons_self).1)
  | cons x xs =>
    cases ys with
    | nil => exact absurd text (nonempty (hx x List.mem_cons_self).1)
    | cons y ys =>
      have items := congrArg (List.splitOn ',') text
      rw [split hx, split hy, List.cons.injEq] at items
      obtain ⟨rfl, items⟩ := items
      rw [(List.map_inj_right fun _ _ h => (List.cons.inj h).2).1 items]

/-- The text of a list tells its numbers. -/
theorem renderItems_injective {xs ys : List Int}
    (text : render (.intArray xs) = render (.intArray ys)) : xs = ys := by
  have chars := congrArg String.toList text
  simp only [render, String.toList_append, String.toList_intercalate, List.map_map] at chars
  have inner := List.append_cancel_left (List.append_cancel_right chars)
  have items (zs : List Int) : ∀ item ∈ zs.map (String.toList ∘ toString), item ≠ [] ∧ ',' ∉ item := by
    intro item hitem
    obtain ⟨n, -, rfl⟩ := List.mem_map.1 hitem
    exact isItem_toString n
  have texts := intercalate_injective (items xs) (items ys) inner
  exact (List.map_inj_right fun _ _ h => Numeral.eq_of_toString_eq (String.toList_inj.1 h)).1 texts

/-- Values of one kind are told by their texts. -/
theorem render_injective {v w : Value} (kind : v.kind = w.kind) (text : v.render = w.render) :
    v = w := by
  cases v with
  | char c =>
    cases w with
    | char d => exact congrArg char (String.singleton_inj.1 text)
    | _ => cases kind
  | int m =>
    cases w with
    | int n => exact congrArg int (Numeral.eq_of_toString_eq text)
    | _ => cases kind
  | string s =>
    cases w with
    | string t => exact congrArg string text
    | _ => cases kind
  | intArray xs =>
    cases w with
    | intArray ys => exact congrArg intArray (renderItems_injective text)
    | _ => cases kind

/-! ## Payloads of one value -/

variable {a b : Bytes}

theorem interpret_eq_iff : interpret a = interpret b ↔ a = b
    ∨ (classify a = .string ∧ classify b = .string ∧ SameButZeros a b)
    ∨ (classify a = .intArray ∧ classify b = .intArray ∧ SameWords a b) := by
  constructor
  · intro same
    have kind : classify b = classify a := by rw [← kind_interpret, ← same, kind_interpret]
    cases ha : classify a with
    | char =>
      have hb := kind.trans ha
      obtain ⟨x, rfl⟩ := List.length_eq_one_iff.1 (length_of_char ha)
      obtain ⟨y, rfl⟩ := List.length_eq_one_iff.1 (length_of_char hb)
      rw [interpret_of_classify ha, interpret_of_classify hb] at same
      have code := congrArg Char.toNat (Value.char.inj same)
      rw [List.headD_cons, List.headD_cons, toNat_ofNat_byte, toNat_ofNat_byte] at code
      exact .inl (by rw [UInt8.toNat_inj.1 code])
    | int =>
      have hb := kind.trans ha
      rw [interpret_of_classify ha, interpret_of_classify hb] at same
      have width := (length_of_int ha).trans (length_of_int hb).symm
      exact .inl (signed_injective width (Value.int.inj same))
    | string =>
      have hb := kind.trans ha
      rw [interpret_of_classify ha, interpret_of_classify hb] at same
      have kept := toLatin1_injective (Value.string.inj same)
      exact .inr (.inl ⟨rfl, hb, trimZeros_eq_iff.1 kept⟩)
    | intArray =>
      have hb := kind.trans ha
      rw [interpret_of_classify ha, interpret_of_classify hb] at same
      exact .inr (.inr ⟨rfl, hb, signed_words_eq_iff.1 (Value.intArray.inj same)⟩)
  · rintro (rfl | ⟨ha, hb, zeros⟩ | ⟨ha, hb, words⟩)
    · rfl
    · rw [interpret_of_classify ha, interpret_of_classify hb]
      exact congrArg (fun kept => Value.string kept.toLatin1) (trimZeros_eq_iff.2 zeros)
    · rw [interpret_of_classify ha, interpret_of_classify hb]
      exact congrArg Value.intArray (signed_words_eq_iff.2 words)

end Value

/-- Two inputs agree in kind and data, whatever their names are. -/
structure InputVar.Alike (i j : InputVar) : Prop where
  kind : i.kind = j.kind
  data : i.data = j.data

theorem InputVar.alike_iff {o p : Object} :
    Alike (ofObject o) (ofObject p) ↔ Value.interpret o.bytes = Value.interpret p.bytes := by
  constructor
  · rintro ⟨kind, data⟩
    exact Value.render_injective kind data
  · intro same
    exact ⟨congrArg Value.kind same, congrArg Value.render same⟩

open Value (classify)

/-- **An input loses nothing of a payload but its length.** Payloads of one length that make inputs of
the same kind and data are the same. Payloads of different lengths make such inputs exactly if they
are texts that differ in how many zeros they end in, or lists that differ in the width of the last
word. -/
theorem inputVar_alike_iff (o p : Object) :
    (InputVar.ofObject o).kind = classify o.bytes
      ∧ (InputVar.Alike (.ofObject o) (.ofObject p) ∧ o.bytes.length = p.bytes.length
          ↔ o.bytes = p.bytes)
      ∧ (InputVar.Alike (.ofObject o) (.ofObject p) ∧ o.bytes.length ≠ p.bytes.length
          ↔ o.bytes.length ≠ p.bytes.length
            ∧ ((classify o.bytes = .string ∧ classify p.bytes = .string
                  ∧ SameButZeros o.bytes p.bytes)
              ∨ (classify o.bytes = .intArray ∧ classify p.bytes = .intArray
                  ∧ SameWords o.bytes p.bytes))) := by
  rw [InputVar.alike_iff, Value.interpret_eq_iff]
  refine ⟨Value.kind_interpret o.bytes, ?_, ?_⟩
  · constructor
    · rintro ⟨same | ⟨-, -, zeros⟩ | ⟨-, -, words⟩, length⟩
      · exact same
      · exact zeros.eq_of_length length
      · exact words.eq_of_length length
    · intro same
      exact ⟨.inl same, congrArg List.length same⟩
  · constructor
    · rintro ⟨same | loss, length⟩
      · exact absurd (congrArg List.length same) length
      · exact ⟨length, loss⟩
    · rintro ⟨length, loss⟩
      exact ⟨.inr loss, length⟩

end CaseHarvest
