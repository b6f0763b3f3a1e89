import CaseHarvest.Bytes.Word
/-!
Words as bytes. Main statements: four bytes and a word determine each other (`toWord_ofWord`,
`ofWord_toWord`), and a word that is not negative counts what its number is the word of, up to
`maxCount` (`count_iff`).
-/
namespace CaseHarvest.Bytes

theorem length_ofWord (w : Int32) : (ofWord w).length = 4 := rfl

theorem toWord_ofWord (w : Int32) : toWord (ofWord w) = w := by
  have bound := w.toUInt32.toNat_lt
  have digits : bigEndian (ofWord w) = w.toUInt32.toNat := by
    simp only [ofWord, bigEndian, List.foldl_cons, List.foldl_nil, UInt8.toNat_ofNat']
    omega
  rw [toWord, digits, UInt32.ofNat_toNat]
  rfl

theorem ofWord_toWord {bytes : Bytes} (h : bytes.length = 4) : ofWord (toWord bytes) = bytes := by
  obtain ⟨a, b, c, d, rfl⟩ : ∃ a b c d, bytes = [a, b, c, d] := by
    match bytes, h with
    | [a, b, c, d], _ => exact ⟨a, b, c, d, rfl⟩
  have ha := a.toNat_lt
  have hb := b.toNat_lt
  have hc := c.toNat_lt
  have hd := d.toNat_lt
  have number : bigEndian [a, b, c, d]
      = 0x1000000 * a.toNat + 0x10000 * b.toNat + 0x100 * c.toNat + d.toNat := by
    simp only [bigEndian, List.foldl_cons, List.foldl_nil]
    omega
  have word : (toWord [a, b, c, d]).toUInt32.toNat = bigEndian [a, b, c, d] := by
    show (UInt32.ofNat (bigEndian [a, b, c, d])).toNat = _
    rw [UInt32.toNat_ofNat']
    omega
  simp only [ofWord, word, number, List.cons.injEq, ← UInt8.toNat_inj, UInt8.toNat_ofNat', and_true]
  omega

/-- The greatest length or count that a word can hold. -/
def maxCount : Nat := 0x7fffffff

theorem toInt_ofNat_of_le {n : Nat} (h : n ≤ maxCount) : (Int32.ofNat n).toInt = n := by
  unfold maxCount at h
  have low : -((2 ^ 32 : Nat) / 2 : Int) ≤ n := by omega
  have high : (n : Int) < ((2 ^ 32 : Nat) + 1) / 2 := by omega
  rw [Int32.toInt_ofNat']
  exact Int.bmod_eq_of_le low high

theorem count_iff {w : Int32} {n : Nat} :
    ¬ w < 0 ∧ w.toInt.toNat = n ↔ n ≤ maxCount ∧ w = Int32.ofNat n := by
  have upper := w.toInt_lt
  rw [Int32.lt_iff_toInt_lt, ← Int32.toInt_inj, Int32.toInt_zero]
  constructor
  · rintro ⟨positive, rfl⟩
    have bound : w.toInt.toNat ≤ maxCount := by unfold maxCount; omega
    rw [toInt_ofNat_of_le bound]
    omega
  · rintro ⟨bound, hw⟩
    rw [toInt_ofNat_of_le bound] at hw
    omega

end CaseHarvest.Bytes
