import CaseHarvest.Proofs.Record.Reading
/-!
Encoding and decoding. Main statements: which bytes are read as which record
(`decode_eq_ok_iff`), and from it which records an encoding is read back as, and what is reported of
the others.
-/
namespace CaseHarvest.Record

open Bytes Reading

/-- The layout has room for all lengths and counts of a record. -/
structure Fits (r : Record) : Prop where
  argCount : r.args.length ≤ maxCount
  args : ∀ a ∈ r.args, ArgFits a
  objectCount : r.objects.length ≤ maxCount
  objects : ∀ o ∈ r.objects, ObjectFits o

instance (r : Record) : Decidable r.Fits :=
  decidable_of_iff (r.args.length ≤ maxCount ∧ (∀ a ∈ r.args, ArgFits a)
      ∧ r.objects.length ≤ maxCount ∧ ∀ o ∈ r.objects, ObjectFits o)
    ⟨fun ⟨a, b, c, d⟩ => ⟨a, b, c, d⟩, fun ⟨a, b, c, d⟩ => ⟨a, b, c, d⟩⟩

/-- What an encoding has to meet to be read back under a limit on the version. -/
structure IsReadable (max : Int32) (r : Record) : Prop where
  version : r.version ≤ max
  ascii : ∀ a ∈ r.args, IsAsciiText a
  fits : r.Fits

instance (max : Int32) (r : Record) : Decidable (r.IsReadable max) :=
  decidable_of_iff (r.version ≤ max ∧ (∀ a ∈ r.args, IsAsciiText a) ∧ r.Fits)
    ⟨fun ⟨a, b, c⟩ => ⟨a, b, c⟩, fun ⟨a, b, c⟩ => ⟨a, b, c⟩⟩

/-- A record as it is made in memory. -/
def IsCreated (r : Record) : Prop :=
  ∃ version args symArgvs symArgvLen objects, r = create version args symArgvs symArgvLen objects

theorem isCreated_iff {r : Record} :
    r.IsCreated ↔ r.source = none ∧ (¬ HasSymbolic r.version → r.symArgvs = 0 ∧ r.symArgvLen = 0) := by
  constructor
  · rintro ⟨version, args, symArgvs, symArgvLen, objects, rfl⟩
    unfold create
    split
    · rename_i has
      exact ⟨rfl, fun h => absurd has h⟩
    · exact ⟨rfl, fun _ => ⟨rfl, rfl⟩⟩
  · rintro ⟨hsource, zero⟩
    refine ⟨r.version, r.args, r.symArgvs, r.symArgvLen, r.objects, ?_⟩
    obtain ⟨version, args, symArgvs, symArgvLen, objects, source⟩ := r
    cases hsource
    unfold create
    split
    · rfl
    · rename_i hasNot
      obtain ⟨rfl, rfl⟩ : symArgvs = 0 ∧ symArgvLen = 0 := zero hasNot
      rfl

/-- What has been read is a magic and what the record is written as behind its own. -/
theorem layout_of_decode {max : Int32} {s rest : Bytes} {r : Record}
    (h : decode max s = .ok (r, rest)) :
    r.IsCreated ∧ r.IsReadable max ∧ ∃ m, IsMagic m ∧ s = m ++ encodeBody r ++ rest := by
  change Reading.record ByteSource.memory max s = _ at h
  unfold Reading.record at h
  unfold encodeBody encodeSymbolic
  rw [isCreated_iff]
  obtain ⟨⟨⟩, s₁, hmagic, h⟩ := bind_eq_ok.1 h
  obtain ⟨version, s₂, hversion, h⟩ := bind_eq_ok.1 h
  obtain ⟨argCount, s₃, hargCount, h⟩ := bind_eq_ok.1 h
  obtain ⟨args, s₄, hargs, h⟩ := bind_eq_ok.1 h
  obtain ⟨⟨symArgvs, symArgvLen⟩, s₅, hsymbolic, h⟩ := bind_eq_ok.1 h
  obtain ⟨objectCount, s₆, hobjectCount, h⟩ := bind_eq_ok.1 h
  obtain ⟨objects, s₇, hobjects, h⟩ := bind_eq_ok.1 h
  obtain ⟨rfl, rfl⟩ := pure_eq_ok.1 h
  obtain ⟨m, hm, rfl⟩ := magic_eq_ok.1 hmagic
  obtain ⟨low, rfl⟩ := version_eq_ok.1 hversion
  obtain ⟨argBound, rfl⟩ := count_eq_ok.1 hargCount
  obtain ⟨rfl, argsOk, rfl⟩ := args_eq_ok.1 hargs
  obtain ⟨objectBound, rfl⟩ := count_eq_ok.1 hobjectCount
  obtain ⟨rfl, objectsOk, rfl⟩ := objects_eq_ok.1 hobjects
  have fits : Fits ⟨version, args, symArgvs, symArgvLen, objects, none⟩ :=
    ⟨argBound, fun a ha => (argsOk a ha).1, objectBound, objectsOk⟩
  have readable : IsReadable max ⟨version, args, symArgvs, symArgvLen, objects, none⟩ :=
    ⟨low, fun a ha => (argsOk a ha).2, fits⟩
  rw [symbolic_eq_ok] at hsymbolic
  by_cases has : HasSymbolic version
  · rw [if_pos has] at hsymbolic
    subst hsymbolic
    refine ⟨⟨rfl, fun h => absurd has h⟩, readable, m, hm, ?_⟩
    simp only [if_pos has, List.append_assoc]
  · rw [if_neg has] at hsymbolic
    obtain ⟨rfl, rfl, rfl⟩ := hsymbolic
    refine ⟨⟨rfl, fun _ => ⟨rfl, rfl⟩⟩, readable, m, hm, ?_⟩
    simp only [if_neg has, List.append_assoc, List.nil_append]

/-- What a record is written as can be read behind either magic. -/
theorem decode_of_layout {max : Int32} {m : Bytes} {r : Record} (hm : IsMagic m)
    (created : r.IsCreated) (readable : r.IsReadable max) (rest : Bytes) :
    decode max (m ++ encodeBody r ++ rest) = .ok (r, rest) := by
  obtain ⟨hsource, zero⟩ := isCreated_iff.1 created
  obtain ⟨version, args, symArgvs, symArgvLen, objects, source⟩ := r
  obtain ⟨low, ascii, fits⟩ := readable
  cases hsource
  show Reading.record ByteSource.memory max _ = _
  unfold Reading.record encodeBody encodeSymbolic
  dsimp only at zero low ascii ⊢
  simp only [List.append_assoc]
  refine bind_eq_ok.2 ⟨(), _, magic_eq_ok.2 ⟨m, hm, rfl⟩, ?_⟩
  refine bind_eq_ok.2 ⟨version, _, version_eq_ok.2 ⟨low, rfl⟩, ?_⟩
  refine bind_eq_ok.2 ⟨args.length, _, count_eq_ok.2 ⟨fits.argCount, rfl⟩, ?_⟩
  refine bind_eq_ok.2 ⟨args, _, args_eq_ok.2 ⟨rfl, fun a ha => ⟨fits.args a ha, ascii a ha⟩, rfl⟩, ?_⟩
  refine bind_eq_ok.2 ⟨(symArgvs, symArgvLen),
    ofWord (Int32.ofNat objects.length) ++ (objects.flatMap encodeObject ++ rest), ?_, ?_⟩
  · rw [symbolic_eq_ok]
    split
    · rw [List.append_assoc]
    · rename_i hasNot
      obtain ⟨hx, hy⟩ := zero hasNot
      exact ⟨hx, hy, rfl⟩
  · refine bind_eq_ok.2 ⟨objects.length, _, count_eq_ok.2 ⟨fits.objectCount, rfl⟩, ?_⟩
    exact bind_eq_ok.2 ⟨objects, rest, objects_eq_ok.2 ⟨rfl, fits.objects, rfl⟩, rfl⟩

/-- A byte string is read as a record exactly if it begins with a magic and what the record is
written as behind its own. -/
theorem decode_eq_ok_iff {max : Int32} {s rest : Bytes} {r : Record} :
    decode max s = .ok (r, rest)
      ↔ r.IsCreated ∧ r.IsReadable max ∧ ∃ m, IsMagic m ∧ s = m ++ encodeBody r ++ rest := by
  constructor
  · exact layout_of_decode
  · rintro ⟨created, readable, m, hm, rfl⟩
    exact decode_of_layout hm created readable rest

/-! ## What an encoding is read back as -/

theorem decode_encode {max : Int32} {r : Record} (created : r.IsCreated)
    (readable : r.IsReadable max) (rest : Bytes) : decode max (encode r ++ rest) = .ok (r, rest) :=
  decode_eq_ok_iff.2 ⟨created, readable, currentMagic, Or.inl rfl, rfl⟩

theorem decode_encode_of_version_gt {max : Int32} {r : Record} (high : max < r.version)
    (rest : Bytes) :
    decode max (encode r ++ rest) = .error (.unsupportedVersion r.version max) := by
  show Reading.record ByteSource.memory max _ = _
  unfold Reading.record encode encodeBody
  simp only [List.append_assoc]
  rw [bind_of_ok _ (magic_eq_ok.2 ⟨currentMagic, Or.inl rfl, rfl⟩)]
  apply bind_of_error
  unfold Reading.version
  rw [bind_of_ok _ (word_eq_ok.2 rfl), if_pos high]
  rfl

/-- Reading arguments stops at the first one that is not ASCII and names its position. -/
theorem args_eq_error {as : List String} (fits : ∀ a ∈ as, ArgFits a)
    (foreign : ∃ a ∈ as, ¬ IsAsciiText a) (index : Nat) (rest : Bytes) :
    Reading.args ByteSource.memory as.length index (as.flatMap encodeArg ++ rest)
      = .error (.invalidArgument (index + as.findIdx fun a => ¬ IsAsciiText a)) := by
  induction as generalizing index with
  | nil =>
    obtain ⟨a, ha, -⟩ := foreign
    cases ha
  | cons a as ih =>
    obtain ⟨fitsFirst, fits⟩ := List.forall_mem_cons.1 fits
    rw [List.length_cons, Reading.args, List.flatMap_cons, List.append_assoc, List.findIdx_cons]
    by_cases ascii : IsAsciiText a
    · obtain ⟨b, hb, notAscii⟩ := foreign
      have later : ∃ b ∈ as, ¬ IsAsciiText b := by
        rcases List.mem_cons.1 hb with rfl | hb
        · exact absurd ascii notAscii
        · exact ⟨b, hb, notAscii⟩
      rw [bind_of_ok _ (arg_eq_ok.2 ⟨⟨fitsFirst, ascii⟩, rfl⟩), bind_of_error _ (ih fits later _),
        decide_eq_false (Classical.not_not.2 ascii), cond_false, Nat.add_assoc, Nat.add_comm 1]
    · apply bind_of_error
      unfold Reading.arg encodeArg
      rw [bind_of_ok _ (blob_eq_ok.2 ⟨fitsFirst, rfl⟩), if_neg (mt (isAscii_ofString a).1 ascii),
        decide_eq_true ascii]
      rfl

theorem decode_encode_of_not_ascii {max : Int32} {r : Record} (low : r.version ≤ max)
    (fits : r.Fits) (foreign : ∃ a ∈ r.args, ¬ IsAsciiText a) (rest : Bytes) :
    decode max (encode r ++ rest)
      = .error (.invalidArgument (r.args.findIdx fun a => ¬ IsAsciiText a)) := by
  show Reading.record ByteSource.memory max _ = _
  unfold Reading.record encode encodeBody
  simp only [List.append_assoc]
  rw [bind_of_ok _ (magic_eq_ok.2 ⟨currentMagic, Or.inl rfl, rfl⟩),
    bind_of_ok _ (version_eq_ok.2 ⟨low, rfl⟩), bind_of_ok _ (count_eq_ok.2 ⟨fits.argCount, rfl⟩),
    bind_of_error _ (args_eq_error fits.args foreign 0 _), Nat.zero_add]

/-! ## Records one after another -/

/-- Records, each with the number of bytes that those behind it take. -/
def withRemaining : List Record → List (Record × Nat)
  | [] => []
  | r :: rs => (r, (rs.flatMap encode).length) :: withRemaining rs

theorem within_succ {max : Int32} {bytes rest : Bytes} {r : Record} (fuel : Nat) (h : bytes ≠ [])
    (first : decode max bytes = .ok (r, rest)) :
    decodeAll.within max (fuel + 1) bytes
      = ((r, rest.length) :: (decodeAll.within max fuel rest).1,
        (decodeAll.within max fuel rest).2) := by
  rw [decodeAll.within.eq_3 _ _ _ h, first]

theorem decodeAll_flatMap_encode {max : Int32} {rs : List Record}
    (all : ∀ r ∈ rs, r.IsCreated ∧ r.IsReadable max) :
    decodeAll max (rs.flatMap encode) = (withRemaining rs, none) := by
  have within (fuel : Nat) (enough : (rs.flatMap encode).length ≤ fuel) :
      decodeAll.within max fuel (rs.flatMap encode) = (withRemaining rs, none) := by
    induction rs generalizing fuel with
    | nil => cases fuel <;> rfl
    | cons r rs ih =>
      obtain ⟨⟨created, readable⟩, all⟩ := List.forall_mem_cons.1 all
      rw [List.flatMap_cons, List.length_append] at enough
      have nonempty : (encode r).length ≠ 0 := by
        simp [encode, currentMagic]
      cases fuel with
      | zero => omega
      | succ fuel =>
        have first := decode_encode created readable (rs.flatMap encode)
        rw [List.flatMap_cons, within_succ fuel (by simp [encode, currentMagic]) first,
          ih all fuel (by omega)]
        rfl
  exact within _ (Nat.le_refl _)

/-- **Which records survive encoding.** An encoding is read back as the record, up to exactly the
bytes behind it, just when its version is within the limit, its arguments are ASCII and the layout
has room for its sizes. With room for them, the error of another record tells its version or else
the first argument that is not ASCII. Encodings of readable records can follow one another. -/
theorem decode_encode_boundary (version : Int32) (args : List String) (symArgvs symArgvLen : Int32)
    (objects : List Object) (rest : Bytes) (max : Int32) :
    let r := create version args symArgvs symArgvLen objects
    (decode max (encode r ++ rest) = .ok (r, rest) ↔ r.IsReadable max)
    ∧ (r.Fits → max < r.version →
        decode max (encode r ++ rest) = .error (.unsupportedVersion r.version max))
    ∧ (r.Fits → r.version ≤ max → (∃ a ∈ r.args, ¬ IsAsciiText a) →
        decode max (encode r ++ rest)
          = .error (.invalidArgument (r.args.findIdx fun a => ¬ IsAsciiText a)))
    ∧ ∀ rs : List Record, (∀ r ∈ rs, r.IsCreated ∧ r.IsReadable max) →
        decodeAll max (rs.flatMap encode) = (withRemaining rs, none) := by
  intro r
  have created : r.IsCreated := ⟨version, args, symArgvs, symArgvLen, objects, rfl⟩
  refine ⟨?_, ?_, ?_, ?_⟩
  · exact ⟨fun h => (decode_eq_ok_iff.1 h).2.1, fun h => decode_encode created h rest⟩
  · exact fun _ high => decode_encode_of_version_gt high rest
  · exact fun fits low foreign => decode_encode_of_not_ascii low fits foreign rest
  · exact fun rs all => decodeAll_flatMap_encode all

/-! ## What was read is what was written -/

theorem drop_encode (r : Record) : (encode r).drop 5 = encodeBody r := rfl

/-- **Nothing read is lost.** The bytes that a record was read from are a magic and the record's
encoding without its magic. So equal records come from bytes that differ in the magic at most, and
neither the other magic nor a higher limit changes what is read. -/
theorem decode_canonical {max : Int32} {s rest : Bytes} {r : Record}
    (h : decode max s = .ok (r, rest)) :
    ∃ p, s = p ++ rest
      ∧ (∃ m, IsMagic m ∧ p = m ++ (encode r).drop 5)
      ∧ r.version ≤ max ∧ (∀ a ∈ r.args, IsAsciiText a)
      ∧ (r.version < 2 → r.symArgvs = 0 ∧ r.symArgvLen = 0)
      ∧ (∀ max' s' rest', decode max' s' = .ok (r, rest') →
          ∃ p', s' = p' ++ rest' ∧ IsMagic (p'.take 5) ∧ p'.drop 5 = p.drop 5)
      ∧ (∀ m, IsMagic m →
          decode max (m ++ p.drop 5 ++ rest) = .ok (r, rest) ∧ (m ++ p.drop 5).length = p.length)
      ∧ ∀ max', max ≤ max' → decode max' s = .ok (r, rest) := by
  obtain ⟨created, readable, m, hm, rfl⟩ := decode_eq_ok_iff.1 h
  have body {m : Bytes} (hm : IsMagic m) : (m ++ encodeBody r).drop 5 = encodeBody r :=
    hm.length_eq ▸ List.drop_left
  refine ⟨m ++ encodeBody r, rfl, ⟨m, hm, by rw [drop_encode]⟩, readable.version, readable.ascii,
    ?_, ?_, ?_, ?_⟩
  · exact fun low => (isCreated_iff.1 created).2 (Int32.not_le.2 low)
  · intro max' s' rest' h'
    obtain ⟨-, -, m', hm', rfl⟩ := decode_eq_ok_iff.1 h'
    refine ⟨m' ++ encodeBody r, rfl, ?_, (body hm').trans (body hm).symm⟩
    rwa [← hm'.length_eq, List.take_left]
  · intro m' hm'
    rw [body hm, List.length_append, List.length_append, hm.length_eq, hm'.length_eq]
    exact ⟨decode_eq_ok_iff.2 ⟨created, readable, m', hm', rfl⟩, rfl⟩
  · intro max' higher
    refine decode_eq_ok_iff.2 ⟨created, ?_, m, hm, rfl⟩
    exact ⟨Int32.le_trans readable.version higher, readable.ascii, readable.fits⟩

theorem decode_canonical_legacy :
    let s := legacyMagic ++ ofWord 1 ++ ofWord 1 ++ ofWord 3 ++ [97, 46, 111] ++ ofWord 1 ++ ofWord 1
      ++ [120] ++ ofWord 2 ++ [7, 8] ++ [9]
    let r : Record := create 1 ["a.o"] 5 5 [⟨"x", [7, 8]⟩]
    decode 3 s = .ok (r, [9])
      ∧ ∃ p, s = p ++ [9] ∧ (∃ m, IsMagic m ∧ p = m ++ (encode r).drop 5)
        ∧ decode 3 (currentMagic ++ p.drop 5 ++ [9]) = .ok (r, [9]) := by
  intro s r
  have read : decode 3 s = .ok (r, [9]) :=
    decode_eq_ok_iff.2 ⟨⟨_, _, _, _, _, rfl⟩, by decide, legacyMagic, Or.inr rfl, by decide⟩
  obtain ⟨p, hp, hm, -, -, -, -, other, -⟩ := decode_canonical read
  exact ⟨read, p, hp, hm, (other _ (Or.inl rfl)).1⟩

end CaseHarvest.Record
