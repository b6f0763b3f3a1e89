import Mathlib.Algebra.Order.Field.Rat
import Mathlib.Tactic.FieldSimp
import Mathlib.Tactic.Linarith
import CaseHarvest.Proofs.Binary64.Rounding
/-!
The exact numbers that values stand for. Main statements: which values stand for positive numbers
(`value_pos_iff`), and how far a quotient is from what it is rounded to (`abs_roundHalfEven_sub`).
-/
namespace CaseHarvest

/-- A quotient lies at most a half away from what it is rounded to, and exactly a half only from an
even number. -/
theorem abs_roundHalfEven_sub (num : Nat) {den : Nat} (hden : 0 < den) :
    |(roundHalfEven num den : ℚ) - num / den| ≤ 1 / 2
      ∧ (|(roundHalfEven num den : ℚ) - num / den| = 1 / 2 → roundHalfEven num den % 2 = 0) := by
  obtain ⟨hhigh, hlow, heven⟩ := roundHalfEven_spec num hden
  generalize roundHalfEven num den = n at *
  have hpos : (0 : ℚ) < den := Nat.cast_pos.2 hden
  have hscaled : ((n : ℚ) - num / den) * (2 * den) = 2 * (n * den) - 2 * num := by
    field_simp
  have hhigh' : (2 * num : ℚ) ≤ 2 * (n * den) + den := by exact_mod_cast hhigh
  have hlow' : (2 * (n * den) : ℚ) ≤ 2 * num + den := by exact_mod_cast hlow
  constructor
  · rw [abs_le]
    constructor
    · by_contra hlt
      nlinarith
    · by_contra hlt
      nlinarith
  · intro htie
    apply heven
    rcases (abs_eq (by norm_num : (0 : ℚ) ≤ 1 / 2)).1 htie with h | h
    · rw [h] at hscaled
      right
      have : (2 * (n * den) : ℚ) = 2 * num + den := by linarith
      exact_mod_cast this
    · rw [h] at hscaled
      left
      have : (2 * num : ℚ) = 2 * (n * den) + den := by linarith
      exact_mod_cast this

/-- The exact number that a finite value stands for. -/
def Binary64.value (x : Binary64) : ℚ := (if x.negative then -1 else 1) * (x.units / Binary64.unit)

namespace Binary64

variable {x : Binary64}

theorem isFinite_of_units_lt (h : x.units < unitsOf infiniteMagnitude) : x.isFinite := by
  have hmagnitude : x.magnitude < infiniteMagnitude := by
    apply Nat.lt_of_not_ge
    intro hlarge
    exact Nat.not_lt_of_ge (unitsOf_mono hlarge) h
  exact decide_eq_true hmagnitude

theorem units_pos_iff : 0 < x.units ↔ 0 < x.magnitude := by
  unfold units
  rcases magnitude_cases x.magnitude with hm | ⟨k, f, hf, hm⟩
  · rw [unitsOf_of_lt hm]
  · rw [hm, unitsOf_step_add k hf]
    have hstep : 0 < exponentStep := by decide
    constructor
    · intro _
      have := Nat.mul_le_mul_right exponentStep (Nat.le_add_left 1 k)
      omega
    · intro _
      exact Nat.mul_pos (by omega) (Nat.pow_pos (by decide))

theorem value_of_not_negative (h : x.negative = false) : x.value = x.units / unit := by
  rw [value, h, if_neg Bool.false_ne_true, one_mul]

theorem value_pos_iff : 0 < x.value ↔ x.negative = false ∧ 0 < x.magnitude := by
  have hunit : (0 : ℚ) < unit := Nat.cast_pos.2 unit_pos
  rw [← units_pos_iff]
  cases hneg : x.negative with
  | false =>
    rw [value_of_not_negative hneg, lt_div_iff₀ hunit, zero_mul, Nat.cast_pos]
    simp
  | true =>
    have hle : x.value ≤ 0 := by
      have : (0 : ℚ) ≤ x.units / unit := div_nonneg (Nat.cast_nonneg _) hunit.le
      rw [value, hneg, if_pos rfl]
      linarith
    constructor
    · intro hpos
      exact absurd hpos (not_lt.2 hle)
    · rintro ⟨h, -⟩
      cases h

end Binary64

end CaseHarvest
