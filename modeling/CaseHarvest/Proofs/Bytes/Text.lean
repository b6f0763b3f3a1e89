import CaseHarvest.Bytes
/-!
Texts as bytes. Main statements: a byte string is the UTF-8 form of at most one text
(`toString?_eq_some_iff`), and for ASCII bytes that text has one character per byte
(`toLatin1_ofString`, `ofString_toLatin1`).
-/
namespace CaseHarvest.Bytes

theorem ofString_eq_flatMap (s : String) : ofString s = s.toList.flatMap String.utf8EncodeChar := by
  unfold ofString
  rw [String.toUTF8_eq_toByteArray, ← String.utf8Encode_toList, List.utf8Encode,
    List.toList_data_toByteArray]

theorem ofString_append (s t : String) : ofString (s ++ t) = ofString s ++ ofString t := by
  rw [ofString_eq_flatMap, ofString_eq_flatMap, ofString_eq_flatMap, String.toList_append,
    List.flatMap_append]

theorem toString?_ofString (s : String) : toString? (ofString s) = some s := by
  have bytes : (⟨(ofString s).toArray⟩ : ByteArray) = s.toByteArray := by
    simp [ofString]
  unfold toString? String.fromUTF8?
  rw [bytes, dif_pos s.isValidUTF8]
  rfl

theorem toString?_eq_some_iff {bytes : Bytes} {s : String} :
    toString? bytes = some s ↔ bytes = ofString s := by
  constructor
  · intro h
    unfold toString? String.fromUTF8? at h
    split at h
    · cases h
      simp [ofString, String.fromUTF8]
    · cases h
  · rintro rfl
    exact toString?_ofString s

theorem ofString_injective {s t : String} (bytes : ofString s = ofString t) : s = t := by
  have text := toString?_ofString s
  rw [bytes, toString?_ofString] at text
  exact (Option.some.inj text).symm

/-! ## Order -/

theorem le_iff (a b : Bytes) : a.le b ↔ a ≤ b := by
  induction a generalizing b with
  | nil => exact ⟨fun _ => List.nil_le b, fun _ => rfl⟩
  | cons x a ih =>
    cases b with
    | nil => simp [le]
    | cons y b => simp [le, List.cons_le_cons_iff, ih]

/-! ## ASCII -/

/-- All characters of a text are ASCII. -/
def IsAsciiText (s : String) : Prop := ∀ c ∈ s.toList, c.toNat < 128

instance (s : String) : Decidable (IsAsciiText s) :=
  List.decidableBAll (fun c : Char => c.toNat < 128) s.toList

theorem utf8EncodeChar_of_ascii {c : Char} (h : c.toNat < 128) :
    String.utf8EncodeChar c = [UInt8.ofNat c.toNat] := by
  have size : c.utf8Size = 1 :=
    Char.utf8Size_eq_one_iff.2 (UInt32.le_iff_toNat_le.2 (Nat.le_of_lt_succ h))
  rw [String.utf8EncodeChar_eq_singleton size]
  rfl

/-- The last byte of a character that is not ASCII is not ASCII either. -/
theorem isAscii_utf8EncodeChar (c : Char) : isAscii (String.utf8EncodeChar c) ↔ c.toNat < 128 := by
  constructor
  · intro h
    have high (x : UInt8) : ¬ x ||| 0x80 < 128 := by
      rw [UInt8.lt_iff_toNat_lt, UInt8.toNat_or]
      exact Nat.not_lt.2 Nat.right_le_or
    have low := List.all_eq_true.1 h
    rcases c.utf8Size_eq with size | size | size | size
    · exact Nat.lt_succ_of_le (UInt32.le_iff_toNat_le.1 (Char.utf8Size_eq_one_iff.1 size))
    · simp [String.utf8EncodeChar_eq_cons_cons size, high] at low
    · simp [String.utf8EncodeChar_eq_cons_cons_cons size, high] at low
    · simp [String.utf8EncodeChar_eq_cons_cons_cons_cons size, high] at low
  · intro h
    rw [utf8EncodeChar_of_ascii h, isAscii, List.all_eq_true]
    intro b hb
    rw [List.mem_singleton.1 hb, decide_eq_true_eq, UInt8.lt_iff_toNat_lt, UInt8.toNat_ofNat']
    exact Nat.lt_of_le_of_lt (Nat.mod_le _ _) h

theorem isAscii_ofString (s : String) : (ofString s).isAscii ↔ IsAsciiText s := by
  rw [ofString_eq_flatMap, isAscii, List.all_flatMap, List.all_eq_true]
  exact forall₂_congr fun c _ => isAscii_utf8EncodeChar c

theorem toLatin1_ofString {s : String} (h : IsAsciiText s) : (ofString s).toLatin1 = s := by
  have chars (cs : List Char) (h : ∀ c ∈ cs, c.toNat < 128) :
      (cs.flatMap String.utf8EncodeChar).map (fun b => Char.ofNat b.toNat) = cs := by
    induction cs with
    | nil => rfl
    | cons c cs ih =>
      have hc := h c List.mem_cons_self
      have byte : c.toNat % 2 ^ 8 = c.toNat := Nat.mod_eq_of_lt (by omega)
      rw [List.flatMap_cons, utf8EncodeChar_of_ascii hc, List.singleton_append, List.map_cons,
        ih fun d hd => h d (List.mem_cons_of_mem c hd), UInt8.toNat_ofNat', byte, Char.ofNat_toNat]
  rw [toLatin1, ofString_eq_flatMap, chars _ h, String.ofList_toList]

/-- A byte is a code point. -/
theorem toNat_ofNat_byte (b : UInt8) : (Char.ofNat b.toNat).toNat = b.toNat := by
  have bound := b.toNat_lt
  rw [Char.ofNat, dif_pos (Or.inl (by omega))]
  rfl

theorem ofString_toLatin1 {bytes : Bytes} (h : bytes.isAscii) :
    ofString bytes.toLatin1 = bytes := by
  rw [ofString_eq_flatMap, toLatin1, String.toList_ofList]
  induction bytes with
  | nil => rfl
  | cons b bytes ih =>
    obtain ⟨low, h⟩ : b < 128 ∧ isAscii bytes := by simpa [isAscii] using h
    have low : b.toNat < 128 := UInt8.lt_iff_toNat_lt.1 low
    have char := toNat_ofNat_byte b
    rw [List.map_cons, List.flatMap_cons, utf8EncodeChar_of_ascii (by omega), char, ih h,
      UInt8.ofNat_toNat, List.singleton_append]

theorem isAsciiText_toLatin1 {bytes : Bytes} (h : bytes.isAscii) : IsAsciiText bytes.toLatin1 :=
  (isAscii_ofString _).1 (by rwa [ofString_toLatin1 h])

/-! ## Code points -/

theorem codes_toLatin1 (bytes : Bytes) :
    bytes.toLatin1.toList.map Char.toNat = bytes.map UInt8.toNat := by
  rw [toLatin1, String.toList_ofList, List.map_map]
  exact List.map_congr_left fun b _ => toNat_ofNat_byte b

/-- A text is told by its code points. -/
theorem eq_of_codes {s t : String} (codes : s.toList.map Char.toNat = t.toList.map Char.toNat) :
    s = t :=
  String.toList_inj.1 ((List.map_inj_right fun _ _ => Char.toNat_inj.1).1 codes)

theorem toLatin1_injective {a b : Bytes} (text : a.toLatin1 = b.toLatin1) : a = b := by
  have codes := codes_toLatin1 a
  rw [text, codes_toLatin1] at codes
  exact ((List.map_inj_right fun _ _ => UInt8.toNat_inj.1).1 codes).symm

end CaseHarvest.Bytes
