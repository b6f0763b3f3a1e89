import Mathlib.Algebra.Group.Nat.Defs
import CaseHarvest.Bytes.Word
/-!
Numbers of any width, least significant byte first. Main statements: the number that is read from
bytes is the one number in the range of their width that is written as them (`denotes_iff`), and it
does not change when the bytes are filled up with the sign (`signed_signExtend`).
-/
namespace CaseHarvest.Bytes

/-- A number at a width, least significant byte first, in two's complement. -/
def littleEndian : (width : Nat) → Int → Bytes
  | 0, _ => []
  | width + 1, n => UInt8.ofNat (n % 256).toNat :: littleEndian width (n / 256)

/-- The two's-complement number of bytes: it is in the range of their width, and they are how it is
written. -/
structure Denotes (bytes : Bytes) (n : Int) : Prop where
  low : -(256 ^ bytes.length : Nat) ≤ 2 * n
  high : 2 * n < (256 ^ bytes.length : Nat)
  written : littleEndian bytes.length n = bytes

variable {a b bytes : Bytes} {m n : Int} {width : Nat}

@[simp] theorem length_littleEndian (width : Nat) (n : Int) :
    (littleEndian width n).length = width := by
  induction width generalizing n with
  | zero => rfl
  | succ width ih => simp [littleEndian, ih]

/-- Numbers are written alike at a width exactly if they are some periods of the width apart. -/
theorem littleEndian_eq_iff :
    littleEndian width m = littleEndian width n ↔ ∃ k : Int, m = n + (256 ^ width : Nat) * k := by
  induction width generalizing m n with
  | zero => exact ⟨fun _ => ⟨m - n, by omega⟩, fun _ => rfl⟩
  | succ width ih =>
    have period (k : Int) : (256 ^ (width + 1) : Nat) * k = 256 * ((256 ^ width : Nat) * k) := by
      rw [Nat.pow_succ, Nat.mul_comm, Int.natCast_mul, Int.mul_assoc]
      rfl
    have byte : UInt8.ofNat (m % 256).toNat = UInt8.ofNat (n % 256).toNat ↔ m % 256 = n % 256 := by
      rw [← UInt8.toNat_inj, UInt8.toNat_ofNat', UInt8.toNat_ofNat']
      omega
    rw [littleEndian, littleEndian, List.cons.injEq, byte, ih]
    constructor
    · rintro ⟨last, k, rest⟩
      refine ⟨k, ?_⟩
      rw [period]
      omega
    · rintro ⟨k, rfl⟩
      rw [period]
      exact ⟨by omega, k, by omega⟩

/-! ## Reading -/

theorem unsigned_lt (bytes : Bytes) : unsigned bytes < 256 ^ bytes.length := by
  induction bytes with
  | nil => decide
  | cons b bytes ih =>
    have bound := b.toNat_lt
    simp only [unsigned, List.length_cons, Nat.pow_succ]
    omega

theorem unsigned_append (a b : Bytes) :
    unsigned (a ++ b) = unsigned a + 256 ^ a.length * unsigned b := by
  induction a with
  | nil => simp [unsigned]
  | cons x a ih =>
    have shift : 256 ^ (a.length + 1) * unsigned b = 256 * (256 ^ a.length * unsigned b) := by
      rw [Nat.pow_succ, Nat.mul_comm (256 ^ a.length), Nat.mul_assoc]
    simp only [List.cons_append, unsigned, ih, List.length_cons]
    omega

theorem littleEndian_unsigned (bytes : Bytes) :
    littleEndian bytes.length (unsigned bytes) = bytes := by
  induction bytes with
  | nil => rfl
  | cons b bytes ih =>
    have bound := b.toNat_lt
    have byte : ((unsigned (b :: bytes) : Int) % 256).toNat = b.toNat := by
      simp only [unsigned]
      omega
    have rest : (unsigned (b :: bytes) : Int) / 256 = unsigned bytes := by
      simp only [unsigned]
      omega
    rw [List.length_cons, littleEndian, byte, rest, ih, UInt8.ofNat_toNat]

/-- The signed number is the unsigned one, or it lies one period below. -/
theorem signed_cases (bytes : Bytes) :
    2 * unsigned bytes < 256 ^ bytes.length ∧ signed bytes = unsigned bytes
      ∨ 256 ^ bytes.length ≤ 2 * unsigned bytes
        ∧ signed bytes = unsigned bytes - (256 ^ bytes.length : Nat) := by
  by_cases low : 2 * unsigned bytes < 256 ^ bytes.length
  · exact .inl ⟨low, if_pos low⟩
  · exact .inr ⟨Nat.le_of_not_lt low, if_neg low⟩

/-- The signed and the unsigned number are alike up to periods of the width. -/
theorem signed_emod (bytes : Bytes) : signed bytes % (256 ^ bytes.length : Nat) = unsigned bytes := by
  have bound := unsigned_lt bytes
  have small : (unsigned bytes : Int) % (256 ^ bytes.length : Nat) = unsigned bytes :=
    Int.emod_eq_of_lt (by omega) (by omega)
  rcases signed_cases bytes with ⟨-, number⟩ | ⟨-, number⟩
  · rw [number, small]
  · rw [number, Int.sub_emod_right, small]

theorem denotes_signed (bytes : Bytes) : Denotes bytes (signed bytes) := by
  have bound := unsigned_lt bytes
  have apart : ∃ k : Int, signed bytes = unsigned bytes + (256 ^ bytes.length : Nat) * k := by
    rcases signed_cases bytes with ⟨-, number⟩ | ⟨-, number⟩
    · exact ⟨0, by omega⟩
    · exact ⟨-1, by omega⟩
  have written := (littleEndian_eq_iff.2 apart).trans (littleEndian_unsigned bytes)
  rcases signed_cases bytes with ⟨low, number⟩ | ⟨high, number⟩
  · exact ⟨by omega, by omega, written⟩
  · exact ⟨by omega, by omega, written⟩

theorem Denotes.unique (hm : Denotes bytes m) (hn : Denotes bytes n) : m = n := by
  obtain ⟨k, apart⟩ := littleEndian_eq_iff.1 (hm.written.trans hn.written.symm)
  have periods : ((256 ^ bytes.length : Nat) : Int) ∣ m - n := ⟨k, by omega⟩
  have near : (m - n).natAbs < ((256 ^ bytes.length : Nat) : Int).natAbs := by
    have low := hm.low
    have high := hm.high
    have low' := hn.low
    have high' := hn.high
    omega
  have zero := Int.eq_zero_of_dvd_of_natAbs_lt_natAbs periods near
  omega

/-- What is read is the number that bytes stand for. -/
theorem denotes_iff : Denotes bytes n ↔ signed bytes = n := by
  constructor
  · exact (denotes_signed bytes).unique
  · rintro rfl
    exact denotes_signed bytes

/-- Bytes of one width are told apart by their numbers. -/
theorem signed_injective (width : a.length = b.length) (number : signed a = signed b) : a = b := by
  rw [← (denotes_signed a).written, ← (denotes_signed b).written, width, number]

/-! ## Filling up -/

/-- The highest bit is set. -/
def IsNegative (bytes : Bytes) : Prop := ∃ last ∈ bytes.getLast?, 128 ≤ last

instance (bytes : Bytes) : Decidable (IsNegative bytes) :=
  inferInstanceAs (Decidable (∃ last ∈ bytes.getLast?, 128 ≤ last))

/-- Bytes filled up to a width with their sign: with ones if they are negative, else with zeros. -/
def signExtend (width : Nat) (bytes : Bytes) : Bytes :=
  bytes ++ List.replicate (width - bytes.length) (if IsNegative bytes then 255 else 0)

theorem isNegative_iff : IsNegative bytes ↔ 256 ^ bytes.length ≤ 2 * unsigned bytes := by
  rcases List.eq_nil_or_concat bytes with rfl | ⟨lower, last, rfl⟩
  · simp [IsNegative, unsigned]
  · have bound := unsigned_lt lower
    have number : unsigned (lower ++ [last]) = unsigned lower + 256 ^ lower.length * last.toNat := by
      rw [unsigned_append]
      rfl
    have sign : IsNegative (lower ++ [last]) ↔ 128 ≤ last.toNat := by
      simp [IsNegative, UInt8.le_iff_toNat_le]
    rw [List.concat_eq_append, sign, number, List.length_append, List.length_singleton, Nat.pow_succ]
    constructor
    · intro high
      have scaled := Nat.mul_le_mul_left (256 ^ lower.length) high
      omega
    · intro high
      apply Nat.le_of_not_lt
      intro small
      have scaled := Nat.mul_le_mul_left (256 ^ lower.length) (Nat.le_of_lt_succ small)
      omega

theorem littleEndian_zero (width : Nat) : littleEndian width 0 = List.replicate width 0 := by
  induction width with
  | zero => rfl
  | succ width ih => rw [List.replicate_succ, ← ih]; rfl

theorem littleEndian_neg_one (width : Nat) : littleEndian width (-1) = List.replicate width 255 := by
  induction width with
  | zero => rfl
  | succ width ih => rw [List.replicate_succ, ← ih]; rfl

/-- The bytes behind the first ones are those of the number without its lowest digits. -/
theorem littleEndian_add (more : Nat) : littleEndian (width + more) n
    = littleEndian width n ++ littleEndian more (n / (256 ^ width : Nat)) := by
  induction width generalizing n with
  | zero => simp [littleEndian]
  | succ width ih =>
    have digits : n / 256 / (256 ^ width : Nat) = n / (256 ^ (width + 1) : Nat) := by
      rw [Int.ediv_ediv_of_nonneg (by decide), Nat.pow_succ, Nat.mul_comm]
      rfl
    rw [Nat.succ_add, littleEndian, littleEndian, ih, digits, List.cons_append]

theorem signExtend_eq (width : Nat) (bytes : Bytes) : signExtend width bytes
    = littleEndian (bytes.length + (width - bytes.length)) (signed bytes) := by
  have bound := unsigned_lt bytes
  have positive : (0 : Int) < (256 ^ bytes.length : Nat) := by omega
  rw [littleEndian_add, (denotes_signed bytes).written, signExtend]
  rcases signed_cases bytes with ⟨low, number⟩ | ⟨high, number⟩
  · have digits : signed bytes / (256 ^ bytes.length : Nat) = 0 :=
      Int.ediv_eq_zero_of_lt (by omega) (by omega)
    rw [digits, littleEndian_zero, if_neg (by rw [isNegative_iff]; omega)]
  · have digits : signed bytes / (256 ^ bytes.length : Nat) = -1 := by
      rw [Int.ediv_eq_iff_of_pos positive]
      omega
    rw [digits, littleEndian_neg_one, if_pos (isNegative_iff.2 high)]

/-- Filling up with the sign does not change the number. -/
theorem signed_signExtend (width : Nat) (bytes : Bytes) :
    signed (signExtend width bytes) = signed bytes := by
  have extended := signExtend_eq width bytes
  have longer : (signExtend width bytes).length = bytes.length + (width - bytes.length) := by
    rw [extended, length_littleEndian]
  have period : 256 ^ bytes.length ≤ 256 ^ (signExtend width bytes).length :=
    Nat.pow_le_pow_right (by decide) (by omega)
  obtain ⟨low, high, -⟩ := denotes_signed bytes
  rw [← denotes_iff]
  exact ⟨by omega, by omega, by rw [longer, extended]⟩

end CaseHarvest.Bytes
