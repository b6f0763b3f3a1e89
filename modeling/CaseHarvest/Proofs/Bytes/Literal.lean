import CaseHarvest.Proofs.Bytes.Hex
import CaseHarvest.Proofs.Bytes.Text
import CaseHarvest.Record.Dump
/-!
Payloads as literals. Main statements: a literal has visible characters and blanks only
(`isPrintable_bytesLiteral`), and the payload can be read back from it, whatever follows
(`readLiteral?_bytesLiteral`).
-/
namespace CaseHarvest

open Bytes

/-- A visible ASCII character or a blank. -/
def IsPrintable (c : Char) : Prop := 32 ≤ c.toNat ∧ c.toNat ≤ 126

instance (c : Char) : Decidable (IsPrintable c) := inferInstanceAs (Decidable (_ ∧ _))

/-- What a character stands for behind a backslash. -/
def escapeValue? (c : Char) : Option UInt8 :=
  if c = '\\' then some 92
  else if c = '\'' then some 39
  else if c = 't' then some 9
  else if c = 'n' then some 10
  else if c = 'r' then some 13
  else none

/-- The bytes up to the first quote that is not escaped, and what follows the quote. -/
def readEscapes : List Char → Option (Bytes × List Char)
  | '\'' :: rest => some ([], rest)
  | '\\' :: 'x' :: high :: low :: rest => do
    let byte ← ofHex? [high, low]
    let (bytes, behind) ← readEscapes rest
    return (byte ++ bytes, behind)
  | '\\' :: c :: rest => do
    let byte ← escapeValue? c
    let (bytes, behind) ← readEscapes rest
    return (byte :: bytes, behind)
  | c :: rest => do
    let (bytes, behind) ← readEscapes rest
    return (UInt8.ofNat c.toNat :: bytes, behind)
  | [] => none

/-- The payload that a literal is of, and what follows the literal. -/
def readLiteral? : List Char → Option (Bytes × List Char)
  | 'b' :: '\'' :: rest => readEscapes rest
  | _ => none

/-- The characters that have a meaning of their own behind a backslash. -/
def shortEscapes : List Char := ['\\', '\'', 't', 'n', 'r']

/-- A byte is written behind a backslash with a short name, as itself, or by its digits. -/
theorem escapeByte_cases (b : UInt8) :
    (∃ c ∈ shortEscapes, escapeByte b = ['\\', c] ∧ escapeValue? c = some b)
      ∨ (escapeByte b = [Char.ofNat b.toNat] ∧ (32 ≤ b ∧ b ≤ 126) ∧ b ≠ 39 ∧ b ≠ 92)
      ∨ escapeByte b = '\\' :: 'x' :: hexPair b := by
  by_cases hslash : b = 92
  · exact .inl ⟨'\\', by decide, by rw [hslash]; rfl, by rw [hslash]; rfl⟩
  by_cases hquote : b = 39
  · exact .inl ⟨'\'', by decide, by rw [hquote]; rfl, by rw [hquote]; rfl⟩
  by_cases htab : b = 9
  · exact .inl ⟨'t', by decide, by rw [htab]; rfl, by rw [htab]; rfl⟩
  by_cases hfeed : b = 10
  · exact .inl ⟨'n', by decide, by rw [hfeed]; rfl, by rw [hfeed]; rfl⟩
  by_cases hreturn : b = 13
  · exact .inl ⟨'r', by decide, by rw [hreturn]; rfl, by rw [hreturn]; rfl⟩
  unfold escapeByte
  rw [if_neg hslash, if_neg hquote, if_neg htab, if_neg hfeed, if_neg hreturn]
  split
  · rename_i hvisible
    exact .inr (.inl ⟨rfl, hvisible, hquote, hslash⟩)
  · exact .inr (.inr rfl)

/-! ## Reading back -/

section ReadBack

variable {bytes : Bytes} {rest behind : List Char}

theorem readEscapes_plain {c : Char} (hquote : c ≠ '\'') (hslash : c ≠ '\\')
    (h : readEscapes rest = some (bytes, behind)) :
    readEscapes (c :: rest) = some (UInt8.ofNat c.toNat :: bytes, behind) := by
  rw [readEscapes, h]
  · rfl
  · exact hquote
  · exact fun _ _ _ hc _ => hslash hc
  · exact fun _ _ hc _ => hslash hc

theorem readEscapes_short {c : Char} {b : UInt8} (hc : c ∈ shortEscapes)
    (hvalue : escapeValue? c = some b) (h : readEscapes rest = some (bytes, behind)) :
    readEscapes ('\\' :: c :: rest) = some (b :: bytes, behind) := by
  have hx : c ≠ 'x' := by
    rintro rfl
    exact absurd hc (by decide)
  rw [readEscapes, hvalue, h]
  · rfl
  · exact fun _ _ _ hsame _ => hx hsame

theorem readEscapes_hexPair (b : UInt8) (h : readEscapes rest = some (bytes, behind)) :
    readEscapes ('\\' :: 'x' :: hexPair b ++ rest) = some (b :: bytes, behind) := by
  have hbyte : ofHex? (hexPair b) = some [b] := by
    have hread := ofHex?_flatMap_hexPair [b]
    rwa [List.flatMap_singleton] at hread
  rw [hexPair] at hbyte ⊢
  rw [List.cons_append, List.cons_append, List.cons_append, List.cons_append, List.nil_append,
    readEscapes, hbyte, h]
  rfl

/-- An escaped byte is read as this byte. -/
theorem readEscapes_escapeByte (b : UInt8) (h : readEscapes rest = some (bytes, behind)) :
    readEscapes (escapeByte b ++ rest) = some (b :: bytes, behind) := by
  rcases escapeByte_cases b with ⟨c, hc, hshort, hvalue⟩ | ⟨hplain, -, hquote, hslash⟩ | hhex
  · rw [hshort]
    exact readEscapes_short hc hvalue h
  · have hcode := toNat_ofNat_byte b
    have hne (d : UInt8) (hd : b ≠ d) : Char.ofNat b.toNat ≠ Char.ofNat d.toNat := by
      intro hsame
      have hcodes := congrArg Char.toNat hsame
      rw [hcode, toNat_ofNat_byte] at hcodes
      exact hd (UInt8.toNat_inj.1 hcodes)
    have hread := readEscapes_plain (hne 39 hquote) (hne 92 hslash) h
    rwa [hcode, UInt8.ofNat_toNat, ← List.singleton_append, ← hplain] at hread
  · rw [hhex]
    exact readEscapes_hexPair b h

/-- A payload is read back from its literal up to the closing quote. -/
theorem readEscapes_flatMap_escapeByte (bytes : Bytes) (behind : List Char) :
    readEscapes (bytes.flatMap escapeByte ++ '\'' :: behind) = some (bytes, behind) := by
  induction bytes with
  | nil => rfl
  | cons b bytes ih =>
    rw [List.flatMap_cons, List.append_assoc]
    exact readEscapes_escapeByte b ih

theorem readLiteral?_bytesLiteral (bytes : Bytes) (behind : List Char) :
    readLiteral? (bytesLiteral bytes ++ behind) = some (bytes, behind) := by
  rw [bytesLiteral, List.append_assoc, List.singleton_append]
  exact readEscapes_flatMap_escapeByte bytes behind

/-- The first quote that is not escaped is the last character. -/
theorem readLiteral?_whole (bytes : Bytes) : readLiteral? (bytesLiteral bytes) = some (bytes, []) := by
  have read := readLiteral?_bytesLiteral bytes []
  rwa [List.append_nil] at read

/-- A literal tells its payload, whatever follows it. -/
theorem eq_of_bytesLiteral_append {a b : Bytes} {x y : String}
    (text : String.ofList (bytesLiteral a) ++ x = String.ofList (bytesLiteral b) ++ y) : a = b := by
  have chars := congrArg String.toList text
  rw [String.toList_append, String.toList_append, String.toList_ofList, String.toList_ofList] at chars
  have read := readLiteral?_bytesLiteral a x.toList
  rw [chars, readLiteral?_bytesLiteral, Option.some.injEq, Prod.mk.injEq] at read
  exact read.1.symm

end ReadBack

/-! ## Visible characters -/

theorem isPrintable_byte {b : UInt8} (h : 32 ≤ b ∧ b ≤ 126) : IsPrintable (Char.ofNat b.toNat) := by
  unfold IsPrintable
  rw [toNat_ofNat_byte]
  exact ⟨UInt8.le_iff_toNat_le.1 h.1, UInt8.le_iff_toNat_le.1 h.2⟩

theorem isPrintable_visible (b : UInt8) : IsPrintable (visible b) := by
  unfold visible
  split
  · rename_i h
    exact isPrintable_byte h
  · decide

theorem isPrintable_of_isHexDigit {c : Char} (h : IsHexDigit c) : IsPrintable c := by
  have digits : "0123456789abcdef".toList.all (IsPrintable ·) := by decide
  exact of_decide_eq_true (List.all_eq_true.1 digits c h)

theorem isPrintable_escapeByte {b : UInt8} {c : Char} (h : c ∈ escapeByte b) : IsPrintable c := by
  have short : shortEscapes.all (IsPrintable ·) := by decide
  have slash : IsPrintable '\\' := by decide
  rcases escapeByte_cases b with ⟨d, hd, hshort, -⟩ | ⟨hplain, hvisible, -⟩ | hhex
  · rw [hshort, List.mem_cons, List.mem_singleton] at h
    rcases h with rfl | rfl
    · exact slash
    · exact of_decide_eq_true (List.all_eq_true.1 short c hd)
  · rw [hplain, List.mem_singleton] at h
    exact h ▸ isPrintable_byte hvisible
  · rw [hhex, List.mem_cons, List.mem_cons] at h
    rcases h with rfl | rfl | h
    · exact slash
    · decide
    · exact isPrintable_of_isHexDigit (isHexDigit_of_mem_hexPair h)

theorem isPrintable_bytesLiteral {bytes : Bytes} {c : Char} (h : c ∈ bytesLiteral bytes) :
    IsPrintable c := by
  rw [bytesLiteral, List.cons_append, List.cons_append, List.mem_cons, List.mem_cons,
    List.mem_append, List.mem_singleton] at h
  rcases h with rfl | rfl | h | rfl
  · decide
  · decide
  · obtain ⟨b, -, hb⟩ := List.mem_flatMap.1 h
    exact isPrintable_escapeByte hb
  · decide

end CaseHarvest
