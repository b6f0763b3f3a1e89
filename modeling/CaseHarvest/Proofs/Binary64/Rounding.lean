import Mathlib.Algebra.Group.Nat.Defs
import CaseHarvest.Binary64.Basic
/-!
Rounding. Main statements: a quotient is rounded to a nearest whole number, of two equally near ones to
the even (`roundHalfEven_spec`), and rounding to a binary64 value never passes a power of two
(`pow_le_units_ofRatio`, `units_ofRatio_le_pow`).
-/
namespace CaseHarvest

section Whole

variable {num den k : Nat}

/-- A quotient lies at most a half away from what it is rounded to, and exactly a half only from an
even number. -/
theorem roundHalfEven_spec (num : Nat) (hden : 0 < den) :
    2 * num ≤ 2 * (roundHalfEven num den * den) + den
      ∧ 2 * (roundHalfEven num den * den) ≤ 2 * num + den
      ∧ (2 * num = 2 * (roundHalfEven num den * den) + den
          ∨ 2 * (roundHalfEven num den * den) = 2 * num + den →
        roundHalfEven num den % 2 = 0) := by
  have hdivided := Nat.div_add_mod num den
  have hrest := Nat.mod_lt num hden
  have hproduct : num / den * den = den * (num / den) := Nat.mul_comm _ _
  unfold roundHalfEven
  simp only
  split
  · rw [hproduct]
    omega
  · rename_i hup
    rw [Nat.add_mul, Nat.one_mul, hproduct]
    omega

theorem le_roundHalfEven (hden : 0 < den) (h : k * den ≤ num) : k ≤ roundHalfEven num den := by
  have hquotient := (Nat.le_div_iff_mul_le hden).2 h
  unfold roundHalfEven
  simp only
  split
  · exact hquotient
  · omega

theorem roundHalfEven_le (hden : 0 < den) (h : num ≤ k * den) : roundHalfEven num den ≤ k := by
  have hquotient : num / den ≤ k := Nat.div_le_of_le_mul (Nat.mul_comm k den ▸ h)
  unfold roundHalfEven
  simp only
  split
  · exact hquotient
  · rename_i hup
    -- A number that is rounded up is not a multiple, so that it is less than the bound.
    have hdivided := Nat.div_add_mod num den
    have hne : num / den ≠ k := by
      intro heq
      rw [heq, Nat.mul_comm] at hdivided
      omega
    omega

/-- Nothing is left exactly of what is at most a half. -/
theorem roundHalfEven_pos_iff (hden : 0 < den) : 0 < roundHalfEven num den ↔ den < 2 * num := by
  obtain ⟨hhigh, hlow, heven⟩ := roundHalfEven_spec num hden
  constructor
  · intro hpos
    apply Nat.lt_of_not_ge
    intro hsmall
    have hone : 1 * den ≤ roundHalfEven num den * den := Nat.mul_le_mul_right den hpos
    have htie : 2 * (roundHalfEven num den * den) = 2 * num + den := by omega
    have hround : roundHalfEven num den * den = 1 * den := by omega
    have : roundHalfEven num den = 1 := Nat.eq_of_mul_eq_mul_right hden hround
    have := heven (.inr htie)
    omega
  · intro hlarge
    refine Nat.pos_of_ne_zero fun hzero => ?_
    rw [hzero, Nat.zero_mul] at hhigh
    omega

end Whole

namespace Binary64

theorem unit_eq (low high : Nat) (h : low + high = 1074) : unit = 2 ^ low * 2 ^ high := by
  unfold unit
  rw [← h]
  exact Nat.pow_add 2 low high

theorem unit_pos : 0 < unit := by
  obtain ⟨low, high, h⟩ : ∃ low high, low + high = 1074 := ⟨0, 1074, rfl⟩
  rw [unit_eq low high h]
  exact Nat.mul_pos (Nat.pow_pos (by decide)) (Nat.pow_pos (by decide))

theorem exponentStep_eq : exponentStep = 2 ^ 52 := rfl

/-! ## Magnitudes and their units -/

/-- Below a step of the exponent a magnitude is its own number of units. -/
theorem unitsOf_of_lt {m : Nat} (h : m < exponentStep) : unitsOf m = m := by
  unfold unitsOf
  rw [Nat.div_eq_of_lt h]
  rfl

theorem unitsOf_step_add {fraction : Nat} (k : Nat) (h : fraction < exponentStep) :
    unitsOf ((k + 1) * exponentStep + fraction) = (exponentStep + fraction) * 2 ^ k := by
  have hquotient : ((k + 1) * exponentStep + fraction) / exponentStep = k + 1 := by
    rw [Nat.add_comm, Nat.add_mul_div_right _ _ (by decide), Nat.div_eq_of_lt h, Nat.zero_add]
  have hrest : ((k + 1) * exponentStep + fraction) % exponentStep = fraction := by
    rw [Nat.add_comm, Nat.add_mul_mod_self_right, Nat.mod_eq_of_lt h]
  unfold unitsOf
  simp only [hquotient, hrest]
  rfl

/-- A magnitude is less than a step, or so many steps and a fraction of one. -/
theorem magnitude_cases (m : Nat) :
    m < exponentStep ∨ ∃ k fraction, fraction < exponentStep
      ∧ m = (k + 1) * exponentStep + fraction := by
  by_cases h : m < exponentStep
  · exact .inl h
  · have hdivided := Nat.div_add_mod m exponentStep
    have hpos : 0 < m / exponentStep := Nat.div_pos (Nat.le_of_not_lt h) (by decide)
    refine .inr ⟨m / exponentStep - 1, m % exponentStep, Nat.mod_lt _ (by decide), ?_⟩
    rw [Nat.sub_add_cancel hpos, Nat.mul_comm]
    exact hdivided.symm

/-- A step of the exponent is a power of two. -/
theorem unitsOf_steps (k : Nat) : unitsOf ((k + 1) * exponentStep) = 2 ^ (52 + k) := by
  rw [← Nat.add_zero ((k + 1) * exponentStep), unitsOf_step_add k (by decide), Nat.add_zero,
    exponentStep_eq, ← Nat.pow_add]

theorem unitsOf_mono {m n : Nat} (h : m ≤ n) : unitsOf m ≤ unitsOf n := by
  rcases magnitude_cases m with hm | ⟨k, f, hf, rfl⟩
  · rw [unitsOf_of_lt hm]
    rcases magnitude_cases n with hn | ⟨l, g, hg, rfl⟩
    · rwa [unitsOf_of_lt hn]
    · rw [unitsOf_step_add l hg]
      have hpow : (exponentStep + g) * 1 ≤ (exponentStep + g) * 2 ^ l :=
        Nat.mul_le_mul_left _ (Nat.pow_pos (by decide))
      omega
  · rcases magnitude_cases n with hn | ⟨l, g, hg, rfl⟩
    · have : 1 * exponentStep ≤ (k + 1) * exponentStep := Nat.mul_le_mul_right _ (by omega)
      omega
    · rw [unitsOf_step_add k hf, unitsOf_step_add l hg]
      have hkl : k < l + 1 := by
        apply Nat.lt_of_not_ge
        intro hlt
        have : (l + 1 + 1) * exponentStep ≤ (k + 1) * exponentStep :=
          Nat.mul_le_mul_right _ (by omega)
        rw [Nat.add_mul (l + 1), Nat.one_mul] at this
        omega
      by_cases hk : k = l
      · subst hk
        exact Nat.mul_le_mul_right _ (by omega)
      · -- A fraction does not reach the next step.
        calc (exponentStep + f) * 2 ^ k ≤ (exponentStep * 2) * 2 ^ k :=
              Nat.mul_le_mul_right _ (by omega)
          _ = exponentStep * 2 ^ (k + 1) := by rw [Nat.pow_succ', Nat.mul_assoc]
          _ ≤ exponentStep * 2 ^ l :=
              Nat.mul_le_mul_left _ (Nat.pow_le_pow_right (by decide) (by omega))
          _ ≤ (exponentStep + g) * 2 ^ l := Nat.mul_le_mul_right _ (by omega)

/-- Units below a power of two that is far enough from the least ones stay some way below it: the
values there are as far apart. -/
theorem unitsOf_add_le_pow {m e : Nat} (h : unitsOf m < 2 ^ (53 + e)) :
    unitsOf m + 2 ^ e ≤ 2 ^ (53 + e) := by
  have hsplit : 2 ^ (53 + e) = (2 * exponentStep) * 2 ^ e := Nat.pow_add 2 53 e
  have hpow : 1 ≤ 2 ^ e := Nat.pow_pos (by decide)
  rcases magnitude_cases m with hm | ⟨k, f, hf, rfl⟩
  · rw [unitsOf_of_lt hm]
    calc m + 2 ^ e ≤ m * 2 ^ e + 1 * 2 ^ e := by
          have := Nat.mul_le_mul_left m hpow
          omega
      _ = (m + 1) * 2 ^ e := (Nat.add_mul _ _ _).symm
      _ ≤ (2 * exponentStep) * 2 ^ e := Nat.mul_le_mul_right _ (by omega)
      _ = 2 ^ (53 + e) := hsplit.symm
  · rw [unitsOf_step_add k hf] at h ⊢
    have hke : k ≤ e := by
      apply Nat.le_of_not_gt
      intro hlt
      have hlower : exponentStep * 2 ^ (e + 1) ≤ (exponentStep + f) * 2 ^ k :=
        Nat.mul_le_mul (by omega) (Nat.pow_le_pow_right (by decide) (by omega))
      rw [Nat.pow_succ', ← Nat.mul_assoc, Nat.mul_comm exponentStep, ← hsplit] at hlower
      omega
    calc (exponentStep + f) * 2 ^ k + 2 ^ e ≤ (exponentStep + f) * 2 ^ e + 1 * 2 ^ e := by
          have := Nat.mul_le_mul_left (exponentStep + f) (Nat.pow_le_pow_right (by decide : 0 < 2) hke)
          omega
      _ = (exponentStep + f + 1) * 2 ^ e := (Nat.add_mul _ _ _).symm
      _ ≤ (2 * exponentStep) * 2 ^ e := Nat.mul_le_mul_right _ (by omega)
      _ = 2 ^ (53 + e) := hsplit.symm

/-! ## Rounding to a value -/

section OfRatio

variable {num den e : Nat}

/-- The magnitude nearest to a quotient that is given in units. -/
theorem nearestMagnitude_eq : nearestMagnitude num den
    = min ((Nat.log2 (num * unit / den) - 52) * exponentStep
        + roundHalfEven (num * unit) (den * 2 ^ (Nat.log2 (num * unit / den) - 52)))
      infiniteMagnitude := rfl

theorem units_ofRatio : (ofRatio num den).units = unitsOf (nearestMagnitude num den) := rfl

theorem pow_le_unitsOf_infiniteMagnitude (h : e ≤ 2098) : 2 ^ e ≤ unitsOf infiniteMagnitude := by
  obtain ⟨k, hk⟩ : ∃ k, k = 2046 := ⟨_, rfl⟩
  have hsteps : infiniteMagnitude = (k + 1) * exponentStep := by
    rw [hk]
    rfl
  rw [hsteps, unitsOf_steps]
  exact Nat.pow_le_pow_right (by decide) (by omega)

/-- What is at least a power of two is rounded to no less, unless that is beyond all values. -/
theorem pow_le_units_ofRatio (hden : 0 < den) (hlow : 52 ≤ e)
    (hhigh : 2 ^ e ≤ unitsOf infiniteMagnitude) (h : 2 ^ e * den ≤ num * unit) :
    2 ^ e ≤ (ofRatio num den).units := by
  rw [units_ofRatio, nearestMagnitude_eq]
  generalize num * unit = inUnits at h ⊢
  have hquotient : 2 ^ e ≤ inUnits / den := (Nat.le_div_iff_mul_le hden).2 h
  have hne : inUnits / den ≠ 0 :=
    Nat.ne_of_gt (Nat.lt_of_lt_of_le (Nat.pow_pos (by decide)) hquotient)
  have hlog : e ≤ Nat.log2 (inUnits / den) := (Nat.le_log2 hne).2 hquotient
  obtain ⟨shift, hshift⟩ : ∃ shift, Nat.log2 (inUnits / den) = 52 + shift :=
    ⟨_, (Nat.add_sub_cancel' (Nat.le_trans hlow hlog)).symm⟩
  rw [hshift, Nat.add_sub_cancel_left]
  -- The quotient has 53 binary digits or more, of which 53 are kept.
  have hkept : exponentStep ≤ roundHalfEven inUnits (den * 2 ^ shift) := by
    apply le_roundHalfEven (Nat.mul_pos hden (Nat.pow_pos (by decide)))
    have hdigits : 2 ^ (52 + shift) ≤ inUnits / den := hshift ▸ Nat.log2_self_le hne
    have hmul := (Nat.le_div_iff_mul_le hden).1 hdigits
    rwa [Nat.pow_add, Nat.mul_assoc, Nat.mul_comm (2 ^ shift)] at hmul
  have hmagnitude : (shift + 1) * exponentStep
      ≤ shift * exponentStep + roundHalfEven inUnits (den * 2 ^ shift) := by
    rw [Nat.add_mul, Nat.one_mul]
    exact Nat.add_le_add_left hkept _
  rcases Nat.le_total infiniteMagnitude
      (shift * exponentStep + roundHalfEven inUnits (den * 2 ^ shift)) with hlarge | hsmall
  · rw [Nat.min_eq_right hlarge]
    exact hhigh
  · rw [Nat.min_eq_left hsmall]
    calc 2 ^ e ≤ 2 ^ (52 + shift) := Nat.pow_le_pow_right (by decide) (by omega)
      _ = unitsOf ((shift + 1) * exponentStep) := (unitsOf_steps shift).symm
      _ ≤ _ := unitsOf_mono hmagnitude

/-- What is at most a power of two is rounded to no more. -/
theorem units_ofRatio_le_pow (hden : 0 < den) (hlow : 52 ≤ e) (h : num * unit ≤ 2 ^ e * den) :
    (ofRatio num den).units ≤ 2 ^ e := by
  obtain ⟨top, rfl⟩ : ∃ top, e = 52 + top := ⟨_, (Nat.add_sub_cancel' hlow).symm⟩
  rw [units_ofRatio, nearestMagnitude_eq, ← unitsOf_steps]
  generalize num * unit = inUnits at h ⊢
  generalize hshift : Nat.log2 (inUnits / den) - 52 = shift
  apply unitsOf_mono
  apply Nat.le_trans (Nat.min_le_left _ _)
  have hpow : 0 < den * 2 ^ shift := Nat.mul_pos hden (Nat.pow_pos (by decide))
  -- The quotient has at most 53 binary digits above those that are cut off.
  have hdigits : inUnits / den < 2 ^ (53 + shift) := by
    by_cases hzero : inUnits / den = 0
    · rw [hzero]
      exact Nat.pow_pos (by decide)
    · exact (Nat.log2_lt hzero).1 (by omega)
  have hle : shift ≤ top := by
    by_cases hzero : inUnits / den = 0
    · have hnone : Nat.log2 0 = 0 := rfl
      rw [hzero, hnone] at hshift
      omega
    · have hquotient : inUnits / den < 2 ^ (52 + top + 1) := by
        apply Nat.lt_of_le_of_lt _ (Nat.pow_lt_pow_succ (by decide))
        exact Nat.div_le_of_le_mul (Nat.mul_comm den _ ▸ h)
      have := (Nat.log2_lt hzero).2 hquotient
      omega
  by_cases htop : shift = top
  · subst htop
    have hround : roundHalfEven inUnits (den * 2 ^ shift) ≤ exponentStep := by
      apply roundHalfEven_le hpow
      rwa [Nat.pow_add, Nat.mul_assoc, Nat.mul_comm (2 ^ shift)] at h
    rw [Nat.add_mul, Nat.one_mul]
    exact Nat.add_le_add_left hround _
  · have hround : roundHalfEven inUnits (den * 2 ^ shift) ≤ 2 * exponentStep := by
      apply roundHalfEven_le hpow
      have hmul := Nat.le_of_lt ((Nat.div_lt_iff_lt_mul hden).1 hdigits)
      rwa [Nat.pow_add, Nat.mul_assoc, Nat.mul_comm (2 ^ shift)] at hmul
    calc shift * exponentStep + roundHalfEven inUnits (den * 2 ^ shift)
        ≤ shift * exponentStep + 2 * exponentStep := Nat.add_le_add_left hround _
      _ = (shift + 2) * exponentStep := (Nat.add_mul _ _ _).symm
      _ ≤ (top + 1) * exponentStep := Nat.mul_le_mul_right _ (by omega)

end OfRatio

end Binary64

end CaseHarvest
