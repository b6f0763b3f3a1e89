import CaseHarvest.Bytes
import CaseHarvest.Json.Parser
/-!
Hexadecimal digits. Main statements: a digit is read as the number that it was written for, and pairs
of digits determine the bytes that they were written for (`toHex_injective`).
-/
namespace CaseHarvest.Bytes

theorem hexValue?_hexDigit {n : Nat} (h : n < 16) : Json.hexValue? (hexDigit n) = some n := by
  have digits : ∀ d : Fin 16, Json.hexValue? (hexDigit d) = some d.val := by decide
  exact digits ⟨n, h⟩

/-- The bytes whose hexadecimal digits these are, two digits a byte. -/
def ofHex? : List Char → Option Bytes
  | [] => some []
  | [_] => none
  | high :: low :: rest => do
    let h ← Json.hexValue? high
    let l ← Json.hexValue? low
    return UInt8.ofNat (16 * h + l) :: (← ofHex? rest)

theorem ofHex?_flatMap_hexPair (bytes : Bytes) : ofHex? (bytes.flatMap hexPair) = some bytes := by
  induction bytes with
  | nil => rfl
  | cons b bytes ih =>
    have bound := b.toNat_lt
    have high : b.toNat / 16 < 16 := by omega
    have low : b.toNat % 16 < 16 := by omega
    have byte : 16 * (b.toNat / 16) + b.toNat % 16 = b.toNat := by omega
    rw [List.flatMap_cons, hexPair, List.cons_append, List.cons_append, List.nil_append, ofHex?,
      hexValue?_hexDigit high, hexValue?_hexDigit low, ih]
    simp only [Option.bind_eq_bind, Option.bind_some, Option.pure_def, byte, UInt8.ofNat_toNat]

/-- A hexadecimal digit that is no capital. -/
def IsHexDigit (c : Char) : Prop := c ∈ "0123456789abcdef".toList

instance (c : Char) : Decidable (IsHexDigit c) := inferInstanceAs (Decidable (_ ∈ _))

theorem isHexDigit_of_mem_hexPair {b : UInt8} {c : Char} (h : c ∈ hexPair b) : IsHexDigit c := by
  have digits : ∀ d : Fin 16, IsHexDigit (hexDigit d) := by decide
  have bound := b.toNat_lt
  rw [hexPair, List.mem_cons, List.mem_singleton] at h
  rcases h with rfl | rfl
  · exact digits ⟨b.toNat / 16, by omega⟩
  · exact digits ⟨b.toNat % 16, by omega⟩

theorem isHexDigit_of_mem_toHex {bytes : Bytes} {c : Char} (h : c ∈ bytes.toHex.toList) :
    IsHexDigit c := by
  rw [toHex, String.toList_ofList] at h
  obtain ⟨b, -, digit⟩ := List.mem_flatMap.1 h
  exact isHexDigit_of_mem_hexPair digit

theorem length_toHex (bytes : Bytes) : bytes.toHex.length = 2 * bytes.length := by
  rw [toHex, String.length_ofList]
  induction bytes with
  | nil => rfl
  | cons b bytes ih =>
    rw [List.flatMap_cons, List.length_append, ih, List.length_cons, hexPair]
    simp only [List.length_cons, List.length_nil]
    omega

theorem toHex_injective {a b : Bytes} (h : a.toHex = b.toHex) : a = b := by
  have digits : a.flatMap hexPair = b.flatMap hexPair := String.ofList_injective h
  have read := ofHex?_flatMap_hexPair a
  rw [digits, ofHex?_flatMap_hexPair] at read
  exact (Option.some.inj read).symm

end CaseHarvest.Bytes
