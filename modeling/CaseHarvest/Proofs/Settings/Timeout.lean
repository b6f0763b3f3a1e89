import CaseHarvest.Proofs.Binary64.Value
import CaseHarvest.Session
/-!
What a time limit comes to. A limit is checked as a number of seconds and kept as a whole number of
nanoseconds. Main statements: a limit that passes the check is the nearest span, which is something
exactly if the number is more than half a nanosecond, and a span that a limit is made of passes the check
and stays something (`validated_timeout`). What is less passes the check and comes to nothing
(`accepted_without_time`).
-/
namespace CaseHarvest

namespace Duration

/-- A span is the whole number of nanoseconds nearest to a number of seconds, of two equally near ones
the even. -/
structure IsNearest (d : Duration) (seconds : ℚ) : Prop where
  near : |(d.toNanos : ℚ) - seconds * 1000000000| ≤ 1 / 2
  even : |(d.toNanos : ℚ) - seconds * 1000000000| = 1 / 2 → d.toNanos % 2 = 0

/-- Under a limit no engine run that takes any time comes to its end. -/
def CutsShort (limit : Duration) : Prop :=
  ∀ (machine : Machine) (running : machine.Running) (files : FileTree) (dir : String)
    (command : Command),
    (∀ cleared activity, machine.launch running cleared command = .ok activity →
      ∀ time status, activity.ending = some (time, status) → 0 < time) →
    ∀ exitCode, (Session.attempt machine limit running files dir command).status
      ≠ .completed exitCode

/-- What a number of seconds comes to as a limit. -/
structure IsLimitOf (limit : Duration) (seconds : ℚ) : Prop where
  fits : limit.toNanos ≤ max.toNanos
  nearest : seconds < 2 ^ 64 → limit.IsNearest seconds
  longest : 2 ^ 64 ≤ seconds → limit = max
  positive : 0 < limit.toNanos ↔ 1 / 2000000000 < seconds
  cutsShort : limit.CutsShort ↔ seconds ≤ 1 / 2000000000

@[simp] theorem toNanos_ofNanos (n : Nat) : (ofNanos n).toNanos = n := by
  unfold ofNanos toNanos
  rw [Nat.mul_comm]
  exact Nat.div_add_mod n nanosPerSec

theorem toNanos_max : max.toNanos = 0x10000000000000000 * nanosPerSec - 1 := rfl

/-! ## Limits that cut runs short -/

section CutsShort

variable {limit : Duration}

/-- At a limit of nothing only what ends at once is seen to end. -/
theorem await_status_of_nothing {Running : Type} {a : Activity Running}
    (hlimit : limit.toNanos = 0)
    (hlasts : ∀ time status, a.ending = some (time, status) → 0 < time) (status : ExitStatus) :
    (a.await limit).status ≠ .ok (some status) := by
  unfold Activity.await
  split
  · split
    · intro h
      cases h
    · intro h
      cases h
  · rename_i time status' _ hending
    have hpos := hlasts time status' hending
    rw [if_neg (by omega)]
    intro h
    cases h
  · intro h
    cases h

/-- A machine on which whatever is started ends in a nanosecond. -/
def promptMachine : Machine where
  Running := Unit
  idle := ()
  workingDir := []
  searchPath := []
  launch _ files _ := .ok { ending := some (1, .exited 0), files := fun _ => files
                            running := fun _ => (), spared := fun _ => () }

theorem attempt_promptMachine (h : 0 < limit.toNanos) :
    (Session.attempt promptMachine limit () FileTree.empty "" ⟨"", []⟩).status
      = .completed (some 0) := by
  have hclear : Session.clear FileTree.empty [] "" = .ok FileTree.empty := by decide
  have hended : (⟨some (1, .exited 0), none, fun _ => FileTree.empty, fun _ => (),
      fun _ => ()⟩ : Activity Unit).await limit
    = ⟨.ok (some (.exited 0)), 1, FileTree.empty, ()⟩ := by
    unfold Activity.await
    exact if_pos h
  unfold Session.attempt promptMachine
  simp only [hclear, hended, ExitStatus.code?]

theorem cutsShort_iff : limit.CutsShort ↔ limit.toNanos = 0 := by
  constructor
  · intro hshort
    apply Nat.eq_zero_of_not_pos
    intro hpos
    apply hshort promptMachine () FileTree.empty "" ⟨"", []⟩ _ _ (attempt_promptMachine hpos)
    intro cleared activity hlaunch time status hending
    cases hlaunch
    cases hending
    exact Nat.one_pos
  · intro hlimit machine running files dir command hlasts exitCode
    unfold Session.attempt
    split
    · intro h
      cases h
    · split
      · intro h
        cases h
      · rename_i cleared _ _ activity hlaunch
        simp only
        split
        · rename_i status hended
          exact absurd hended
            (await_status_of_nothing hlimit (hlasts cleared activity hlaunch) status)
        · intro h
          cases h
        · intro h
          cases h

end CutsShort

/-! ## From seconds to a span -/

section OfSeconds

variable {x : Binary64}

theorem ofSeconds_of_usable (hfinite : x.isFinite) (hneg : x.negative = false) :
    ofSeconds x = if x.units < 0x10000000000000000 * Binary64.unit then
        ofNanos (roundHalfEven (x.units * nanosPerSec) Binary64.unit)
      else max := by
  have hnumber : x.isNaN = false := by
    have hmagnitude : x.magnitude < Binary64.infiniteMagnitude := of_decide_eq_true hfinite
    exact decide_eq_false (Nat.not_lt_of_lt hmagnitude)
  unfold ofSeconds
  rw [hnumber, hneg, hfinite]
  simp only [Bool.or_false, Bool.false_eq_true, if_false, Bool.true_and, decide_eq_true_eq]

/-- The units of a value that does not reach the end of what is counted stay more than one below it, as
the values there are far apart. -/
theorem units_add_unit_le (h : x.units < 0x10000000000000000 * Binary64.unit) :
    x.units + Binary64.unit ≤ 0x10000000000000000 * Binary64.unit := by
  obtain ⟨e, he⟩ : ∃ e, e = 1074 := ⟨_, rfl⟩
  have hunit : Binary64.unit = 2 ^ e := by
    have hsplit := Binary64.unit_eq e 0 he
    rwa [Nat.pow_zero, Nat.mul_one] at hsplit
  have hend : 0x10000000000000000 * 2 ^ e = 2 ^ (53 + (11 + e)) := by
    rw [← Nat.add_assoc, Nat.pow_add]
  rw [hunit, hend] at h ⊢
  calc x.units + 2 ^ e ≤ x.units + 2 ^ (11 + e) :=
        Nat.add_le_add_left (Nat.pow_le_pow_right (by decide) (Nat.le_add_left e 11)) _
    _ ≤ 2 ^ (53 + (11 + e)) := Binary64.unitsOf_add_le_pow h

/-- A number of nanoseconds is counted, and it is something exactly if the units that it is rounded from
are more than half a nanosecond. -/
theorem isLimitOf_of_small {units unit : Nat} (hunit : 0 < unit)
    (hgap : units + unit ≤ 0x10000000000000000 * unit) :
    (ofNanos (roundHalfEven (units * nanosPerSec) unit)).IsLimitOf (units / unit) := by
  have hpos : (0 : ℚ) < unit := Nat.cast_pos.2 hunit
  have hsmall : (units / unit : ℚ) < 2 ^ 64 := by
    rw [div_lt_iff₀ hpos]
    have hlt : units < 2 ^ 64 * unit := by omega
    exact_mod_cast hlt
  have hpositive : 0 < (ofNanos (roundHalfEven (units * nanosPerSec) unit)).toNanos
      ↔ 1 / 2000000000 < (units / unit : ℚ) := by
    rw [toNanos_ofNanos, roundHalfEven_pos_iff hunit, lt_div_iff₀ hpos, div_mul_eq_mul_div, one_mul,
      div_lt_iff₀ (by norm_num)]
    have hnanos : 2 * (units * nanosPerSec) = units * 2000000000 := by
      unfold nanosPerSec
      omega
    rw [hnanos]
    exact_mod_cast Iff.rfl
  have hscaled : (units / unit : ℚ) * 1000000000 = ((units * nanosPerSec : Nat) : ℚ) / unit := by
    rw [Nat.cast_mul, div_mul_eq_mul_div]
    norm_num [nanosPerSec]
  obtain ⟨hnear, heven⟩ := abs_roundHalfEven_sub (units * nanosPerSec) hunit
  constructor
  case fits =>
    rw [toNanos_ofNanos, toNanos_max]
    apply roundHalfEven_le hunit
    have hnanos := Nat.mul_le_mul_right nanosPerSec hgap
    have hmore : unit ≤ unit * nanosPerSec := Nat.le_mul_of_pos_right _ (by decide)
    rw [Nat.add_mul] at hnanos
    rw [Nat.sub_mul, Nat.one_mul, Nat.mul_right_comm]
    exact Nat.le_sub_of_add_le (Nat.le_trans (Nat.add_le_add_left hmore _) hnanos)
  case nearest =>
    intro _
    constructor
    · rw [toNanos_ofNanos, hscaled]
      exact hnear
    · rw [toNanos_ofNanos, hscaled]
      exact heven
  case longest =>
    intro hlarge
    exact absurd hlarge (not_le.2 hsmall)
  case positive => exact hpositive
  case cutsShort =>
    rw [cutsShort_iff, ← not_lt, ← hpositive]
    omega

theorem isLimitOf_max {seconds : ℚ} (hlarge : 2 ^ 64 ≤ seconds) : max.IsLimitOf seconds := by
  have hsecond : 1 / 2000000000 < seconds := lt_of_lt_of_le (by norm_num) hlarge
  have hmax : 0 < max.toNanos := by decide
  constructor
  case fits => exact Nat.le_refl _
  case nearest =>
    intro hsmall
    exact absurd hlarge (not_le.2 hsmall)
  case longest =>
    intro _
    rfl
  case positive => exact iff_of_true hmax hsecond
  case cutsShort =>
    rw [cutsShort_iff]
    exact iff_of_false (Nat.ne_of_gt hmax) (not_le.2 hsecond)

theorem isLimitOf_ofSeconds (hfinite : x.isFinite) (hneg : x.negative = false) :
    (ofSeconds x).IsLimitOf x.value := by
  rw [ofSeconds_of_usable hfinite hneg, Binary64.value_of_not_negative hneg]
  by_cases hsmall : x.units < 0x10000000000000000 * Binary64.unit
  · rw [if_pos hsmall]
    exact isLimitOf_of_small Binary64.unit_pos (units_add_unit_le hsmall)
  · rw [if_neg hsmall]
    apply isLimitOf_max
    have hunit := Binary64.unit_pos
    generalize Binary64.unit = unit at hsmall hunit ⊢
    rw [le_div_iff₀ (Nat.cast_pos.2 hunit)]
    exact_mod_cast Nat.le_of_not_lt hsmall

end OfSeconds

/-! ## From a span to seconds -/

section ToSeconds

variable {e : Nat} (hunit : Binary64.unit = 2 ^ e * 2 ^ 30) (hlow : 52 ≤ e) (hhigh : e ≤ 1044)

include hunit hlow hhigh

theorem pow_le_units_ofNat {n k : Nat} (hk : k ≤ 64) (h : 2 ^ k ≤ n) :
    2 ^ (k + (e + 30)) ≤ (Binary64.ofNat n).units := by
  apply Binary64.pow_le_units_ofRatio Nat.one_pos (by omega)
    (Binary64.pow_le_unitsOf_infiniteMagnitude (by omega))
  rw [hunit, ← Nat.pow_add, Nat.pow_add 2 k, Nat.mul_one]
  exact Nat.mul_le_mul_right _ h

theorem units_ofNat_le_pow {n k : Nat} (h : n ≤ 2 ^ k) :
    (Binary64.ofNat n).units ≤ 2 ^ (k + (e + 30)) := by
  apply Binary64.units_ofRatio_le_pow Nat.one_pos (by omega)
  rw [hunit, ← Nat.pow_add, Nat.pow_add 2 k, Nat.mul_one]
  exact Nat.mul_le_mul_right _ h

/-- The fraction of a second that nanoseconds make. -/
theorem units_fraction {nanos : Nat} (hnanos : nanos < nanosPerSec) :
    (0 < nanos → 2 ^ e ≤ ((Binary64.ofNat nanos).div (Binary64.ofNat nanosPerSec)).units)
      ∧ ((Binary64.ofNat nanos).div (Binary64.ofNat nanosPerSec)).units ≤ 2 ^ (e + 31) := by
  have hsecondLow : 2 ^ (29 + (e + 30)) ≤ (Binary64.ofNat nanosPerSec).units :=
    pow_le_units_ofNat hunit hlow hhigh (by decide) (by decide)
  have hsecondHigh : (Binary64.ofNat nanosPerSec).units ≤ 2 ^ (30 + (e + 30)) :=
    units_ofNat_le_pow hunit hlow hhigh (by decide)
  have hsecond : 0 < (Binary64.ofNat nanosPerSec).units :=
    Nat.lt_of_lt_of_le (Nat.pow_pos (by decide)) hsecondLow
  constructor
  · intro hpos
    have hnanosLow : 2 ^ (0 + (e + 30)) ≤ (Binary64.ofNat nanos).units :=
      pow_le_units_ofNat hunit hlow hhigh (by decide) hpos
    apply Binary64.pow_le_units_ofRatio hsecond hlow
      (Binary64.pow_le_unitsOf_infiniteMagnitude (by omega))
    have hexponents : e + (30 + (e + 30)) = 0 + (e + 30) + (e + 30) := by omega
    rw [hunit, ← Nat.pow_add]
    calc 2 ^ e * (Binary64.ofNat nanosPerSec).units ≤ 2 ^ e * 2 ^ (30 + (e + 30)) :=
          Nat.mul_le_mul_left _ hsecondHigh
      _ = 2 ^ (0 + (e + 30)) * 2 ^ (e + 30) := by rw [← Nat.pow_add, hexponents, Nat.pow_add]
      _ ≤ (Binary64.ofNat nanos).units * 2 ^ (e + 30) := Nat.mul_le_mul_right _ hnanosLow
  · have hnanosHigh : (Binary64.ofNat nanos).units ≤ 2 ^ (30 + (e + 30)) := by
      apply units_ofNat_le_pow hunit hlow hhigh
      unfold nanosPerSec at hnanos
      omega
    apply Binary64.units_ofRatio_le_pow hsecond (by omega)
    have hexponents : 30 + (e + 30) + (e + 30) = e + 31 + (29 + (e + 30)) := by omega
    rw [hunit, ← Nat.pow_add]
    calc (Binary64.ofNat nanos).units * 2 ^ (e + 30) ≤ 2 ^ (30 + (e + 30)) * 2 ^ (e + 30) :=
          Nat.mul_le_mul_right _ hnanosHigh
      _ = 2 ^ (e + 31) * 2 ^ (29 + (e + 30)) := by rw [← Nat.pow_add, hexponents, Nat.pow_add]
      _ ≤ 2 ^ (e + 31) * (Binary64.ofNat nanosPerSec).units := Nat.mul_le_mul_left _ hsecondLow

/-- A span that is something and is counted is more than half a nanosecond as a number of seconds, and
far from the end of the values. -/
theorem units_toSeconds {d : Duration} (hpos : 0 < d.toNanos) (hfits : d.toNanos ≤ max.toNanos) :
    2 ^ e ≤ d.toSeconds.units ∧ d.toSeconds.units ≤ 2 ^ (e + 95) := by
  have hsecs : d.secs ≤ 2 ^ 64 := by
    have hend : max.toNanos = 18446744073709551615999999999 := rfl
    rw [hend] at hfits
    unfold toNanos nanosPerSec at hfits
    omega
  obtain ⟨hfractionLow, hfractionHigh⟩ := units_fraction hunit hlow hhigh d.nanos_lt
  have hwholeHigh : (Binary64.ofNat d.secs).units ≤ 2 ^ (64 + (e + 30)) :=
    units_ofNat_le_pow hunit hlow hhigh hsecs
  constructor
  · apply Binary64.pow_le_units_ofRatio Binary64.unit_pos hlow
      (Binary64.pow_le_unitsOf_infiniteMagnitude (by omega))
    apply Nat.mul_le_mul_right
    by_cases hnanos : 0 < d.nanos
    · exact Nat.le_trans (hfractionLow hnanos) (Nat.le_add_left _ _)
    · have hwhole : 2 ^ 0 ≤ d.secs := by
        unfold toNanos at hpos
        apply Nat.pos_of_ne_zero
        intro hzero
        rw [hzero] at hpos
        omega
      calc 2 ^ e ≤ 2 ^ (0 + (e + 30)) := Nat.pow_le_pow_right (by decide) (by omega)
        _ ≤ (Binary64.ofNat d.secs).units := pow_le_units_ofNat hunit hlow hhigh (by decide) hwhole
        _ ≤ _ := Nat.le_add_right _ _
  · apply Binary64.units_ofRatio_le_pow Binary64.unit_pos (by omega)
    apply Nat.mul_le_mul_right
    calc _ ≤ 2 ^ (64 + (e + 30)) + 2 ^ (e + 31) := Nat.add_le_add hwholeHigh hfractionHigh
      _ ≤ 2 ^ (e + 94) + 2 ^ (e + 94) := by
          apply Nat.add_le_add
          · exact Nat.pow_le_pow_right (by decide) (by omega)
          · exact Nat.pow_le_pow_right (by decide) (by omega)
      _ = 2 ^ (e + 95) := by
          rw [Nat.pow_succ 2 (e + 94)]
          omega

end ToSeconds

theorem toSeconds_usable {d : Duration} (hpos : 0 < d.toNanos) (hfits : d.toNanos ≤ max.toNanos) :
    d.toSeconds.isFinite ∧ d.toSeconds.negative = false ∧ 1 / 2000000000 < d.toSeconds.value := by
  obtain ⟨e, he⟩ : ∃ e, e = 1044 := ⟨_, rfl⟩
  have hunit := Binary64.unit_eq e 30 (by omega)
  obtain ⟨hlower, hupper⟩ := units_toSeconds hunit (by omega) (by omega) hpos hfits
  have hneg : d.toSeconds.negative = false := rfl
  refine ⟨Binary64.isFinite_of_units_lt ?_, hneg, ?_⟩
  · calc d.toSeconds.units ≤ 2 ^ (e + 95) := hupper
      _ < 2 ^ (e + 96) := Nat.pow_lt_pow_succ (by decide)
      _ ≤ Binary64.unitsOf Binary64.infiniteMagnitude :=
          Binary64.pow_le_unitsOf_infiniteMagnitude (by omega)
  · rw [Binary64.value_of_not_negative hneg]
    have hpow : 0 < 2 ^ e := Nat.pow_pos (by decide)
    generalize Binary64.unit = unit at hunit ⊢
    have hunitPos : 0 < unit := by omega
    rw [lt_div_iff₀ (Nat.cast_pos.2 hunitPos), div_mul_eq_mul_div, one_mul,
      div_lt_iff₀ (by norm_num)]
    have hlt : unit < d.toSeconds.units * 2000000000 := by omega
    exact_mod_cast hlt

end Duration

namespace Settings

variable {s : Settings}

/-- What is checked of a limit, said of its exact value. -/
theorem isUsableTimeout_iff {x : Binary64} : isUsableTimeout x ↔ x.isFinite ∧ 0 < x.value := by
  rw [Binary64.value_pos_iff, isUsableTimeout, Binary64.isPositive]
  simp only [Bool.and_eq_true, Bool.not_eq_true', decide_eq_true_eq]
  constructor
  · rintro ⟨hfinite, ⟨hneg, hpos⟩, -⟩
    exact ⟨hfinite, hneg, hpos⟩
  · rintro ⟨hfinite, hneg, hpos⟩
    exact ⟨hfinite, ⟨hneg, hpos⟩, Nat.le_of_lt (of_decide_eq_true hfinite)⟩

theorem validate_eq_ok_iff :
    s.validate = .ok () ↔ s.timeoutSecs.isFinite ∧ 0 < s.timeoutSecs.value := by
  rw [← isUsableTimeout_iff]
  unfold validate
  split
  · rename_i h
    exact iff_of_true rfl h
  · rename_i h
    exact ⟨nofun, fun e => absurd e h⟩

/-- A limit passes the check exactly if it is a positive number; it is kept as the nearest span that is
counted, which is something exactly if the number is more than half a nanosecond, and cuts all runs short
exactly if it is not. A limit that is made of a span of some length passes the check and is kept as a
span of some length. -/
theorem validated_timeout (s : Settings) (d : Duration) :
    (s.validate = .ok () ↔ s.timeoutSecs.isFinite ∧ 0 < s.timeoutSecs.value)
      ∧ (s.validate = .ok () → s.timeout.IsLimitOf s.timeoutSecs.value)
      ∧ (0 < d.toNanos → d.toNanos ≤ Duration.max.toNanos →
          (s.withTimeout d).validate = .ok () ∧ 0 < (s.withTimeout d).timeout.toNanos) := by
  refine ⟨validate_eq_ok_iff, ?_, ?_⟩
  · intro hvalid
    obtain ⟨hfinite, hpos⟩ := validate_eq_ok_iff.1 hvalid
    exact Duration.isLimitOf_ofSeconds hfinite (Binary64.value_pos_iff.1 hpos).1
  · intro hpos hfits
    obtain ⟨hfinite, hneg, hmore⟩ := Duration.toSeconds_usable hpos hfits
    have hlimit : (s.withTimeout d).timeout.IsLimitOf d.toSeconds.value :=
      Duration.isLimitOf_ofSeconds hfinite hneg
    refine ⟨validate_eq_ok_iff.2 ⟨hfinite, ?_⟩, hlimit.positive.2 hmore⟩
    exact lt_trans (by norm_num) hmore

/-- The settings with a limit of a quotient of numbers in seconds. -/
def ofLimit (num den : Nat) : Settings := { timeoutSecs := .ofRatio num den }

/-- A limit of a nanosecond, and the longest one. -/
theorem validated_timeout_nanosecond :
    (ofLimit 1 1000000000).validate = .ok ()
      ∧ (ofLimit 1 1000000000).timeout.IsLimitOf (ofLimit 1 1000000000).timeoutSecs.value
      ∧ (0 < Duration.max.toNanos ∧ Duration.max.toNanos ≤ Duration.max.toNanos)
      ∧ ((ofLimit 1 1000000000).withTimeout Duration.max).validate = .ok ()
      ∧ 0 < ((ofLimit 1 1000000000).withTimeout Duration.max).timeout.toNanos := by
  have hvalid : (ofLimit 1 1000000000).validate = .ok () := by decide +kernel
  have hpos : 0 < Duration.max.toNanos := by decide
  have h := validated_timeout (ofLimit 1 1000000000) Duration.max
  exact ⟨hvalid, h.2.1 hvalid, ⟨hpos, Nat.le_refl _⟩, h.2.2 hpos (Nat.le_refl _)⟩

/-- A tenth of a nanosecond passes the check and comes to nothing, so that no engine run that takes any
time comes to its end. -/
theorem accepted_without_time :
    (ofLimit 1 10000000000).validate = .ok () ∧ (ofLimit 1 10000000000).timeout.toNanos = 0
      ∧ (ofLimit 1 10000000000).timeout.CutsShort := by
  have hnothing : (ofLimit 1 10000000000).timeout.toNanos = 0 := by decide +kernel
  exact ⟨by decide +kernel, hnothing, Duration.cutsShort_iff.2 hnothing⟩

end Settings

end CaseHarvest
