import Mathlib.Data.List.Basic
import CaseHarvest.Json.Parser
import CaseHarvest.Json.Pretty
/-!
Numerals. Main statement: a numeral is read back from the way it is written, if nothing that could
belong to it follows (`numeral?_render`). That of a whole number is one that can be written, and means it.
-/
namespace CaseHarvest

def digitChar (d : Nat) : Char := Char.ofNat ('0'.toNat + d)

theorem digitValue?_digitChar {d : Nat} (h : d < 10) : digitValue? (digitChar d) = some d := by
  have digits : ∀ d : Fin 10, digitValue? (digitChar d) = some d.val := by decide
  exact digits ⟨d, h⟩

theorem digitValue?_of_isDigit {c : Char} (h : c.isDigit) :
    digitValue? c = some (c.toNat - '0'.toNat) := by
  simp only [Char.isDigit, ge_iff_le, Bool.and_eq_true, decide_eq_true_eq] at h
  exact if_pos h

/-- No digit comes first. -/
def EndsDigits (rest : List Char) : Prop := ∀ c ∈ rest.head?, digitValue? c = none

theorem takeDigits_append {cs rest : List Char} {ds : List Nat}
    (h : cs.map digitValue? = ds.map some) (hrest : EndsDigits rest) :
    takeDigits (cs ++ rest) = (ds, rest) := by
  induction cs generalizing ds with
  | nil =>
    obtain rfl : ds = [] := List.map_eq_nil_iff.1 h.symm
    cases rest with
    | nil => rfl
    | cons c rest => simp [takeDigits, hrest c rfl]
  | cons c cs ih =>
    cases ds with
    | nil => cases h
    | cons d ds =>
      rw [List.map_cons, List.map_cons, List.cons.injEq] at h
      simp [takeDigits, h.1, ih h.2]

theorem digitValues_digitChars {ds : List Nat} (h : ∀ d ∈ ds, d < 10) :
    (ds.map digitChar).map digitValue? = ds.map some := by
  rw [List.map_map]
  exact List.map_congr_left fun d hd => digitValue?_digitChar (h d hd)

namespace Numeral

theorem digitValues_toDigits (n : Nat) :
    (Nat.toDigits 10 n).map digitValue? = (digitsOf n).map some := by
  rw [digitsOf, List.map_map]
  exact List.map_congr_left fun c hc =>
    digitValue?_of_isDigit (Nat.isDigit_of_mem_toDigits (by decide) (by decide) hc)

theorem ofDigits_digitsOf (n : Nat) : ofDigits (digitsOf n) = n := by
  have h : Nat.ofDigitChars 10 (Nat.toDigits 10 n) 0 = n := Nat.ofDigitChars_ten_toDigits
  rw [Nat.ofDigitChars_eq_foldl] at h
  rw [ofDigits, digitsOf, List.foldl_map]
  exact h

/-- A numeral as JSON has them: digits on both sides of a point, and no zero that could be left out
in front. -/
structure IsProper (n : Numeral) : Prop where
  whole : n.whole ≠ [] ∧ ∀ d ∈ n.whole, d < 10
  leading : n.whole.head? = some 0 → n.whole = [0]
  fraction : ∀ ds, n.fraction = some ds → ds ≠ [] ∧ ∀ d ∈ ds, d < 10

def fractionText : Option (List Nat) → List Char
  | some ds => '.' :: ds.map digitChar
  | none => []

def exponentText : Option Int → List Char
  | some e => 'e' :: (toString e).toList
  | none => []

theorem render_eq (n : Numeral) :
    n.render = (if n.negative then ['-'] else []) ++ n.whole.map digitChar
      ++ fractionText n.fraction ++ exponentText n.exponent := rfl

/-- Nothing that could belong to a numeral comes first. -/
def Ends (rest : List Char) : Prop :=
  ∀ c ∈ rest.head?, digitValue? c = none ∧ c ≠ '.' ∧ c ≠ 'e' ∧ c ≠ 'E'

variable {n : Numeral} {rest : List Char}

theorem Ends.digits (h : Ends rest) : EndsDigits rest := fun c hc => (h c hc).1

theorem endsDigits_exponentText (e : Option Int) (h : Ends rest) :
    EndsDigits (exponentText e ++ rest) := by
  cases e with
  | none => exact h.digits
  | some e =>
    rintro c ⟨⟩
    decide

theorem endsDigits_fractionText (f : Option (List Nat)) (e : Option Int) (h : Ends rest) :
    EndsDigits (fractionText f ++ (exponentText e ++ rest)) := by
  cases f with
  | none => exact endsDigits_exponentText e h
  | some ds =>
    rintro c ⟨⟩
    decide

/-- A number is written as its sign and the digits of its size. -/
theorem toList_toString (e : Int) : (toString e).toList
    = (if e < 0 then ['-'] else []) ++ Nat.toDigits 10 e.natAbs := by
  cases e with
  | ofNat n => exact Nat.toList_repr
  | negSucc n =>
    show ("-" ++ Nat.repr (n + 1)).toList = _
    rw [String.toList_append, Nat.toList_repr, if_pos (Int.negSucc_lt_zero n)]
    rfl

theorem takeSign_toString (e : Int) (rest : List Char) :
    takeSign ((toString e).toList ++ rest) = (decide (e < 0), Nat.toDigits 10 e.natAbs ++ rest) := by
  rw [toList_toString]
  by_cases negative : e < 0
  · simp [negative, takeSign]
  · rw [if_neg negative, List.nil_append]
    cases hdigits : Nat.toDigits 10 e.natAbs with
    | nil => exact absurd hdigits Nat.toDigits_ne_nil
    | cons c cs =>
      have hc : c.isDigit :=
        Nat.isDigit_of_mem_toDigits (by decide) (by decide) (hdigits ▸ List.mem_cons_self)
      have hsign : c ≠ '-' ∧ c ≠ '+' := by
        constructor <;> rintro rfl <;> cases hc
      rw [List.cons_append, takeSign]
      · simp [negative]
      · simp [hsign]
      · simp [hsign]

/-- The text of a number tells its sign and its digits. -/
theorem eq_of_toString_eq {m n : Int} (text : toString m = toString n) : m = n := by
  have parts := takeSign_toString m []
  rw [text, takeSign_toString, Prod.mk.injEq, List.append_nil, List.append_nil] at parts
  obtain ⟨sign, digits⟩ := parts
  have size := congrArg (Nat.ofDigitChars 10 · 0) digits
  simp only [Nat.ofDigitChars_ten_toDigits] at size
  have sign : n < 0 ↔ m < 0 := decide_eq_decide.1 sign
  omega

theorem wholeDigits?_append (h : n.IsProper) (hrest : EndsDigits rest) :
    Json.wholeDigits? (n.whole.map digitChar ++ rest) = some (n.whole, rest) := by
  rw [Json.wholeDigits?, takeDigits_append (digitValues_digitChars h.whole.2) hrest]
  split
  · rename_i hnone
    exact absurd (congrArg Prod.fst hnone) h.whole.1
  · rename_i hzero
    have hwhole := congrArg Prod.fst hzero
    have hlead := h.leading (congrArg List.head? hwhole)
    exact absurd (hwhole.symm.trans hlead) (by simp)
  · rfl

theorem fraction?_append (h : n.IsProper) (hrest : EndsDigits rest)
    (hpoint : ∀ c ∈ rest.head?, c ≠ '.') :
    Json.fraction? (fractionText n.fraction ++ rest) = some (n.fraction, rest) := by
  cases hf : n.fraction with
  | none =>
    rw [fractionText, List.nil_append, Json.fraction?]
    rintro cs rfl
    exact hpoint _ rfl rfl
  | some ds =>
    obtain ⟨hne, hds⟩ := h.fraction ds hf
    rw [fractionText, List.cons_append, Json.fraction?,
      takeDigits_append (digitValues_digitChars hds) hrest]
    cases ds with
    | nil => exact absurd rfl hne
    | cons d ds => rfl

theorem exponent?_append (e : Option Int) (hrest : Ends rest) :
    Json.exponent? (exponentText e ++ rest) = some (e, rest) := by
  cases e with
  | none =>
    cases rest with
    | nil => rfl
    | cons c rest =>
      obtain ⟨-, -, hc, hc'⟩ := hrest c rfl
      simp [exponentText, Json.exponent?, hc, hc']
  | some e =>
    rw [exponentText, List.cons_append, Json.exponent?, if_pos (.inl rfl), takeSign_toString]
    simp only [takeDigits_append (digitValues_toDigits e.natAbs) hrest.digits]
    have hne : digitsOf e.natAbs ≠ [] := by
      rw [digitsOf, Ne, List.map_eq_nil_iff]
      exact Nat.toDigits_ne_nil
    cases hdigits : digitsOf e.natAbs with
    | nil => exact absurd hdigits hne
    | cons d ds =>
      rw [← hdigits]
      simp only [ofDigits_digitsOf]
      congr 3
      by_cases hneg : e < 0
      · rw [if_pos (decide_eq_true hneg)]
        omega
      · rw [if_neg (by rwa [decide_eq_true_eq])]
        omega

theorem point_notMem_exponentText (e : Option Int) (h : Ends rest) :
    ∀ c ∈ (exponentText e ++ rest).head?, c ≠ '.' := by
  cases e with
  | none => exact fun c hc => (h c hc).2.1
  | some e =>
    rintro c ⟨⟩
    decide

/-- A whole part does not begin with a sign. -/
theorem minus_ne_whole (h : n.IsProper) (cs : List Char) :
    n.whole.map digitChar ++ rest ≠ '-' :: cs := by
  obtain ⟨hne, hds⟩ := h.whole
  cases hwhole : n.whole with
  | nil => exact absurd hwhole hne
  | cons d ds =>
    rw [hwhole] at hds
    intro heq
    have hd := digitValue?_digitChar (hds d List.mem_cons_self)
    rw [(List.cons.inj heq).1] at hd
    cases hd

/-- A proper numeral is read as it was written. -/
theorem numeral?_render (h : n.IsProper) (hrest : Ends rest) :
    Json.numeral? (n.render ++ rest) = some (n, rest) := by
  have hwhole := wholeDigits?_append h (endsDigits_fractionText n.fraction n.exponent hrest)
  have hfraction := fraction?_append h (endsDigits_exponentText n.exponent hrest)
    (point_notMem_exponentText n.exponent hrest)
  have hexponent := exponent?_append n.exponent hrest
  obtain ⟨negative, whole, fraction, exponent⟩ := n
  simp only [render_eq, List.append_assoc]
  cases negative with
  | false =>
    rw [if_neg Bool.false_ne_true, List.nil_append, Json.numeral?]
    · simp [hwhole, hfraction, hexponent]
    · exact minus_ne_whole h
  | true =>
    rw [if_pos rfl, List.cons_append, Json.numeral?]
    simp [hwhole, hfraction, hexponent]

/-! ## Whole numbers -/

theorem toNat_digitChar {d : Nat} (h : d < 10) : (Nat.digitChar d).toNat - '0'.toNat = d := by
  have digits : ∀ d : Fin 10, (Nat.digitChar d).toNat - '0'.toNat = d := by decide
  exact digits ⟨d, h⟩

theorem digitsOf_of_lt {n : Nat} (h : n < 10) : digitsOf n = [n] := by
  rw [digitsOf, Nat.toDigits_of_lt_base h, List.map_singleton, toNat_digitChar h]

theorem digitsOf_of_le {n : Nat} (h : 10 ≤ n) : digitsOf n = digitsOf (n / 10) ++ [n % 10] := by
  rw [digitsOf, Nat.toDigits_of_base_le (by decide) h, List.map_append, List.map_singleton,
    toNat_digitChar (Nat.mod_lt n (by decide))]
  rfl

/-- The digits of a number begin with one that is not zero, unless the number is. -/
theorem exists_digitsOf {n : Nat} (h : 0 < n) : ∃ d ds, digitsOf n = d :: ds ∧ d ≠ 0 := by
  induction n using Nat.strongRecOn with
  | ind n ih =>
    by_cases hsmall : n < 10
    · exact ⟨n, [], digitsOf_of_lt hsmall, Nat.ne_of_gt h⟩
    · have hlarge := Nat.le_of_not_lt hsmall
      obtain ⟨d, ds, hdigits, hd⟩ := ih (n / 10) (by omega) (by omega)
      exact ⟨d, ds ++ [n % 10], by rw [digitsOf_of_le hlarge, hdigits, List.cons_append], hd⟩

theorem lt_of_mem_digitsOf {n d : Nat} (h : d ∈ digitsOf n) : d < 10 := by
  obtain ⟨c, hc, rfl⟩ := List.mem_map.1 h
  have hdigit := Nat.isDigit_of_mem_toDigits (by decide) (by decide) hc
  simp only [Char.isDigit, ge_iff_le, Bool.and_eq_true, decide_eq_true_eq] at hdigit
  have hnine : c.toNat ≤ '9'.toNat := hdigit.2
  exact Nat.lt_succ_of_le (Nat.sub_le_sub_right hnine _)

/-- Whole numbers are written as proper numerals. -/
theorem isProper_ofInt (n : Int) : (ofInt n).IsProper where
  whole := by
    refine ⟨?_, fun d => lt_of_mem_digitsOf⟩
    exact fun hnil => Nat.toDigits_ne_nil (List.map_eq_nil_iff.1 hnil)
  leading := by
    intro hzero
    by_cases hn : n.natAbs = 0
    · exact congrArg digitsOf hn
    · obtain ⟨d, ds, hdigits, hd⟩ := exists_digitsOf (Nat.pos_of_ne_zero hn)
      have hwhole : (ofInt n).whole = d :: ds := hdigits
      rw [hwhole] at hzero
      exact absurd (Option.some.inj hzero) hd
  fraction := nofun

/-- A whole number is what its numeral means. -/
theorem toInt?_ofInt (n : Int) : (ofInt n).toInt? = some n := by
  have hvalue : ofDigits (ofInt n).whole = n.natAbs := ofDigits_digitsOf n.natAbs
  have hinteger : (ofInt n).isInteger := rfl
  unfold toInt?
  simp only [hvalue, hinteger]
  by_cases hneg : n < 0
  · have hsign : (ofInt n).negative = true := decide_eq_true hneg
    have hne : n.natAbs ≠ 0 := by omega
    simp only [hsign, hne, Bool.not_true, Bool.false_eq_true, if_true, if_false]
    congr 1
    omega
  · have hsign : (ofInt n).negative = false := decide_eq_false hneg
    simp only [hsign, Bool.not_true, Bool.false_eq_true, if_false]
    congr 1
    omega

end Numeral

end CaseHarvest
