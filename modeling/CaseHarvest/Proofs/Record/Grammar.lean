import CaseHarvest.Proofs.Bytes.Signed
import CaseHarvest.Proofs.Record.Codec
/-!
The layout of a record as a grammar of byte strings. Main statements: what begins with a layout whose
version is within the limit is read, and nothing else is; of what is read, the documented layouts are
those from version 1 on (`decode_accepts_layout`). A version below 1 is not refused
(`undocumented_version_read`).
-/
namespace CaseHarvest.Record

open Bytes

/-! ## The grammar -/

/-- A number is four bytes, most significant first, in two's complement. -/
def IsNumber (n : Int) (bytes : Bytes) : Prop := bytes.length = 4 ∧ Denotes bytes.reverse n

/-- Bytes behind the number of them, which is not negative. -/
def IsBlob (content bytes : Bytes) : Prop :=
  ∃ number, IsNumber content.length number ∧ bytes = number ++ content

/-- So many items, one behind the other. -/
inductive Repeated (IsItem : Bytes → Prop) : Nat → Bytes → Prop
  | none : Repeated IsItem 0 []
  | more {count : Nat} {first rest : Bytes} (item : IsItem first) (items : Repeated IsItem count rest) :
      Repeated IsItem (count + 1) (first ++ rest)

/-- The UTF-8 form of some characters. -/
def IsUtf8 (bytes : Bytes) : Prop :=
  ∃ chars : List Char, bytes = chars.flatMap String.utf8EncodeChar

def IsArgument (bytes : Bytes) : Prop := ∃ text, (∀ b ∈ text, b < 128) ∧ IsBlob text bytes

def IsObject (bytes : Bytes) : Prop :=
  ∃ name payload first second, IsUtf8 name ∧ IsBlob name first ∧ IsBlob payload second
    ∧ bytes = first ++ second

/-- From version 2 on two numbers, before it nothing. -/
def IsSymbolic (version : Int) (bytes : Bytes) : Prop :=
  if 2 ≤ version then
    ∃ x y first second, IsNumber x first ∧ IsNumber y second ∧ bytes = first ++ second
  else bytes = []

/-- The layout of a record. -/
inductive IsLayout (version : Int) : Bytes → Prop
  | intro {magic number argCount args symbolic objectCount objects : Bytes} {m n : Nat}
      (isMagic : magic = ofString "KTEST" ∨ magic = ofString "BOUT\n")
      (isVersion : IsNumber version number)
      (isArgCount : IsNumber m argCount) (areArgs : Repeated IsArgument m args)
      (isSymbolic : IsSymbolic version symbolic)
      (isObjectCount : IsNumber n objectCount) (areObjects : Repeated IsObject n objects) :
      IsLayout version
        (magic ++ (number ++ (argCount ++ (args ++ (symbolic ++ (objectCount ++ objects))))))

/-- A layout as it is documented: its version is from 1 to the limit. -/
def IsDocumented (max : Int32) (bytes : Bytes) : Prop :=
  ∃ version : Int, 1 ≤ version ∧ version ≤ max.toInt ∧ IsLayout version bytes

/-! ## What the parts of a layout are written as -/

variable {bytes content : Bytes}

theorem signed_reverse_ofWord (w : Int32) : signed (ofWord w).reverse = w.toInt := by
  have bound := w.toUInt32.toNat_lt
  have digits : unsigned (ofWord w).reverse = w.toUInt32.toNat := by
    simp only [ofWord, List.reverse_cons, List.reverse_nil, List.nil_append, List.cons_append,
      unsigned, UInt8.toNat_ofNat']
    omega
  have number : w.toInt = if 2 * w.toUInt32.toNat < 2 ^ 32 then (w.toUInt32.toNat : Int)
      else w.toUInt32.toNat - (2 ^ 32 : Nat) := BitVec.toInt_eq_toNat_cond w.toBitVec
  have width : (ofWord w).reverse.length = 4 := rfl
  have period : 256 ^ 4 = 2 ^ 32 := rfl
  rcases signed_cases (ofWord w).reverse with ⟨low, signed⟩ | ⟨high, signed⟩
  · rw [digits, width, period] at low
    rw [signed, digits, number, if_pos low]
  · rw [digits, width, period] at high
    rw [signed, digits, number, width, period, if_neg (Nat.not_lt.2 high)]

theorem isNumber_iff {n : Int} : IsNumber n bytes ↔ ∃ w : Int32, w.toInt = n ∧ bytes = ofWord w := by
  constructor
  · rintro ⟨width, number⟩
    have written := ofWord_toWord width
    refine ⟨toWord bytes, ?_, written.symm⟩
    rw [← signed_reverse_ofWord, written, denotes_iff.1 number]
  · rintro ⟨w, rfl, rfl⟩
    exact ⟨rfl, denotes_iff.2 (signed_reverse_ofWord w)⟩

theorem isNumber_natCast_iff {n : Nat} :
    IsNumber n bytes ↔ n ≤ maxCount ∧ bytes = ofWord (Int32.ofNat n) := by
  rw [isNumber_iff]
  constructor
  · rintro ⟨w, number, rfl⟩
    have count : ¬ w < 0 ∧ w.toInt.toNat = n := by
      rw [Int32.lt_iff_toInt_lt, number]
      exact ⟨Int.not_lt.2 (Int.natCast_nonneg n), Int.toNat_natCast n⟩
    obtain ⟨bound, rfl⟩ := count_iff.1 count
    exact ⟨bound, rfl⟩
  · rintro ⟨bound, rfl⟩
    exact ⟨_, toInt_ofNat_of_le bound, rfl⟩

theorem isBlob_iff :
    IsBlob content bytes ↔ content.length ≤ maxCount ∧ bytes = encodeBlob content := by
  unfold IsBlob encodeBlob
  simp only [isNumber_natCast_iff]
  constructor
  · rintro ⟨number, ⟨bound, rfl⟩, rfl⟩
    exact ⟨bound, rfl⟩
  · rintro ⟨bound, rfl⟩
    exact ⟨_, ⟨bound, rfl⟩, rfl⟩

theorem isUtf8_iff : IsUtf8 bytes ↔ ∃ text : String, bytes = ofString text := by
  constructor
  · rintro ⟨chars, rfl⟩
    exact ⟨String.ofList chars, by rw [ofString_eq_flatMap, String.toList_ofList]⟩
  · rintro ⟨text, rfl⟩
    exact ⟨text.toList, ofString_eq_flatMap text⟩

theorem isArgument_iff :
    IsArgument bytes ↔ ∃ a, (ArgFits a ∧ IsAsciiText a) ∧ bytes = encodeArg a := by
  constructor
  · rintro ⟨text, ascii, blob⟩
    have ascii : text.isAscii := by simpa [isAscii] using ascii
    obtain ⟨bound, rfl⟩ := isBlob_iff.1 blob
    have written := ofString_toLatin1 ascii
    refine ⟨text.toLatin1, ⟨?_, isAsciiText_toLatin1 ascii⟩, ?_⟩
    · rwa [ArgFits, written]
    · rw [encodeArg, written]
  · rintro ⟨a, ⟨fits, ascii⟩, rfl⟩
    refine ⟨ofString a, ?_, isBlob_iff.2 ⟨fits, rfl⟩⟩
    simpa [isAscii] using (isAscii_ofString a).2 ascii

theorem isObject_iff : IsObject bytes ↔ ∃ o, ObjectFits o ∧ bytes = encodeObject o := by
  constructor
  · rintro ⟨name, payload, first, second, utf8, isFirst, isSecond, rfl⟩
    obtain ⟨text, rfl⟩ := isUtf8_iff.1 utf8
    obtain ⟨nameBound, rfl⟩ := isBlob_iff.1 isFirst
    obtain ⟨bound, rfl⟩ := isBlob_iff.1 isSecond
    exact ⟨⟨text, payload⟩, ⟨nameBound, bound⟩, rfl⟩
  · rintro ⟨o, ⟨nameBound, bound⟩, rfl⟩
    exact ⟨ofString o.name, o.bytes, _, _, isUtf8_iff.2 ⟨o.name, rfl⟩, isBlob_iff.2 ⟨nameBound, rfl⟩,
      isBlob_iff.2 ⟨bound, rfl⟩, rfl⟩

/-- Items one behind the other are written as a list of what they are written as. -/
theorem repeated_iff {α : Type} {IsItem : Bytes → Prop} {Fits : α → Prop} {encode : α → Bytes}
    (one : ∀ {bytes}, IsItem bytes ↔ ∃ a, Fits a ∧ bytes = encode a) {count : Nat} :
    Repeated IsItem count bytes
      ↔ ∃ as : List α, as.length = count ∧ (∀ a ∈ as, Fits a) ∧ bytes = as.flatMap encode := by
  constructor
  · intro items
    induction items with
    | none => exact ⟨[], rfl, List.forall_mem_nil _, rfl⟩
    | more item _ ih =>
      obtain ⟨a, fits, rfl⟩ := one.1 item
      obtain ⟨as, rfl, all, rfl⟩ := ih
      exact ⟨a :: as, rfl, List.forall_mem_cons.2 ⟨fits, all⟩, rfl⟩
  · rintro ⟨as, rfl, all, rfl⟩
    induction as with
    | nil => exact .none
    | cons a as ih =>
      obtain ⟨fits, all⟩ := List.forall_mem_cons.1 all
      exact .more (one.2 ⟨a, fits, rfl⟩) (ih all)

theorem isSymbolic_iff {w : Int32} : IsSymbolic w.toInt bytes ↔ ∃ x y : Int32,
    (¬ HasSymbolic w → x = 0 ∧ y = 0)
      ∧ bytes = if HasSymbolic w then ofWord x ++ ofWord y else [] := by
  have from2 : HasSymbolic w ↔ 2 ≤ w.toInt := Int32.le_iff_toInt_le
  unfold IsSymbolic
  by_cases has : HasSymbolic w
  · simp only [if_pos has, if_pos (from2.1 has), isNumber_iff]
    constructor
    · rintro ⟨_, _, _, _, ⟨x, -, rfl⟩, ⟨y, -, rfl⟩, rfl⟩
      exact ⟨x, y, fun hasNot => absurd has hasNot, rfl⟩
    · rintro ⟨x, y, -, rfl⟩
      exact ⟨_, _, _, _, ⟨x, rfl, rfl⟩, ⟨y, rfl, rfl⟩, rfl⟩
  · simp only [if_neg has, if_neg (mt from2.2 has)]
    constructor
    · rintro rfl
      exact ⟨0, 0, fun _ => ⟨rfl, rfl⟩, rfl⟩
    · rintro ⟨-, -, -, rfl⟩
      rfl

theorem isMagic_iff {m : Bytes} : IsMagic m ↔ m = ofString "KTEST" ∨ m = ofString "BOUT\n" := by
  have current : ofString "KTEST" = currentMagic := by decide
  have legacy : ofString "BOUT\n" = legacyMagic := by decide
  rw [current, legacy, IsMagic]

/-- A layout is a magic and what some record is written as behind its own. -/
theorem isLayout_iff {version : Int} : IsLayout version bytes ↔ ∃ m r, IsMagic m ∧ r.IsCreated
    ∧ r.Fits ∧ (∀ a ∈ r.args, IsAsciiText a) ∧ r.version.toInt = version
    ∧ bytes = m ++ encodeBody r := by
  constructor
  · rintro ⟨isMagic, isVersion, isArgCount, areArgs, symbolicPart, isObjectCount, areObjects⟩
    obtain ⟨w, rfl, rfl⟩ := isNumber_iff.1 isVersion
    obtain ⟨argBound, rfl⟩ := isNumber_natCast_iff.1 isArgCount
    obtain ⟨args, rfl, argsOk, rfl⟩ := (repeated_iff isArgument_iff).1 areArgs
    obtain ⟨x, y, zero, rfl⟩ := isSymbolic_iff.1 symbolicPart
    obtain ⟨objectBound, rfl⟩ := isNumber_natCast_iff.1 isObjectCount
    obtain ⟨objects, rfl, objectsOk, rfl⟩ := (repeated_iff isObject_iff).1 areObjects
    refine ⟨_, ⟨w, args, x, y, objects, none⟩, isMagic_iff.2 isMagic, isCreated_iff.2 ⟨rfl, zero⟩,
      ⟨argBound, fun a ha => (argsOk a ha).1, objectBound, objectsOk⟩,
      fun a ha => (argsOk a ha).2, rfl, ?_⟩
    simp only [encodeBody, encodeSymbolic, List.append_assoc]
  · rintro ⟨m, r, hm, created, fits, ascii, rfl, rfl⟩
    simp only [encodeBody, List.append_assoc]
    refine .intro (isMagic_iff.1 hm) (isNumber_iff.2 ⟨r.version, rfl, rfl⟩)
      (isNumber_natCast_iff.2 ⟨fits.argCount, rfl⟩)
      ((repeated_iff isArgument_iff).2 ⟨r.args, rfl, fun a ha => ⟨fits.args a ha, ascii a ha⟩, rfl⟩)
      (isSymbolic_iff.2 ⟨r.symArgvs, r.symArgvLen, (isCreated_iff.1 created).2, rfl⟩)
      (isNumber_natCast_iff.2 ⟨fits.objectCount, rfl⟩)
      ((repeated_iff isObject_iff).2 ⟨r.objects, rfl, fits.objects, rfl⟩)

/-! ## What is read -/

variable {max : Int32} {s : Bytes}

/-- Which versions can be read from bytes. -/
theorem exists_decode_iff {version : Int} :
    (∃ r rest, decode max s = .ok (r, rest) ∧ r.version.toInt = version)
      ↔ version ≤ max.toInt ∧ ∃ p, p <+: s ∧ IsLayout version p := by
  simp only [isLayout_iff, decode_eq_ok_iff]
  constructor
  · rintro ⟨r, rest, ⟨created, readable, m, hm, rfl⟩, rfl⟩
    exact ⟨Int32.le_iff_toInt_le.1 readable.version, m ++ encodeBody r, List.prefix_append _ _, m, r,
      hm, created, readable.fits, readable.ascii, rfl, rfl⟩
  · rintro ⟨low, _, ⟨rest, rfl⟩, m, r, hm, created, fits, ascii, rfl, rfl⟩
    exact ⟨r, rest, ⟨created, ⟨Int32.le_iff_toInt_le.2 low, ascii, fits⟩, m, hm, rfl⟩, rfl⟩

theorem exists_decode_documented_iff : (∃ r rest, decode max s = .ok (r, rest) ∧ 1 ≤ r.version)
    ↔ ∃ p, p <+: s ∧ IsDocumented max p := by
  constructor
  · rintro ⟨r, rest, read, from1⟩
    obtain ⟨low, p, start, layout⟩ := exists_decode_iff.1 ⟨r, rest, read, rfl⟩
    exact ⟨p, start, r.version.toInt, Int32.le_iff_toInt_le.1 from1, low, layout⟩
  · rintro ⟨p, start, version, from1, low, layout⟩
    obtain ⟨r, rest, read, rfl⟩ := exists_decode_iff.2 ⟨low, p, start, layout⟩
    exact ⟨r, rest, read, Int32.le_iff_toInt_le.2 from1⟩

/-- **What is read are the layouts.** A record is read exactly from what begins with a layout whose
version is within the limit, and its version is from 1 on exactly if the layout is a documented one. -/
theorem decode_accepts_layout (max : Int32) (s : Bytes) :
    ((∃ r rest, decode max s = .ok (r, rest))
        ↔ ∃ p version, p <+: s ∧ IsLayout version p ∧ version ≤ max.toInt)
      ∧ ((∃ r rest, decode max s = .ok (r, rest) ∧ 1 ≤ r.version)
        ↔ ∃ p, p <+: s ∧ IsDocumented max p) := by
  refine ⟨?_, exists_decode_documented_iff⟩
  constructor
  · rintro ⟨r, rest, read⟩
    obtain ⟨low, p, start, layout⟩ := exists_decode_iff.1 ⟨r, rest, read, rfl⟩
    exact ⟨p, r.version.toInt, start, layout, low⟩
  · rintro ⟨p, version, start, layout, low⟩
    obtain ⟨r, rest, read, -⟩ := exists_decode_iff.2 ⟨low, p, start, layout⟩
    exact ⟨r, rest, read⟩

/-- An empty record of version 0 is read, though no beginning of its bytes is a documented layout. -/
theorem undocumented_version_read :
    let s := ofString "KTEST" ++ List.replicate 12 0
    decode 3 s = .ok (create 0 [] 0 0 [], []) ∧ ¬ ∃ p, p <+: s ∧ IsDocumented 3 p := by
  intro s
  have read : decode 3 s = .ok (create 0 [] 0 0 [], []) :=
    decode_eq_ok_iff.2 ⟨⟨_, _, _, _, _, rfl⟩, by decide, currentMagic, .inl rfl, by decide⟩
  refine ⟨read, fun documented => ?_⟩
  obtain ⟨r, rest, other, from1⟩ := exists_decode_documented_iff.2 documented
  rw [read] at other
  cases other
  exact absurd from1 (by decide)

end CaseHarvest.Record
