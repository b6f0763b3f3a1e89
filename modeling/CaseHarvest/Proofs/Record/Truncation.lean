import CaseHarvest.Proofs.Record.Codec
/-!
Records whose bytes end too soon. Main statement: however many of the bytes of a record are there, if
not all of them are, the reader reports the field of the first one that is missing
(`decode_of_strict_prefix`).
-/
namespace CaseHarvest

namespace Record

open Bytes

/-! ## The fields of a layout -/

/-- The fields about symbolic arguments, where the version has them. -/
def symbolicParts (r : Record) : List (Field × Bytes) :=
  if HasSymbolic r.version then
    [(.symbolicArgvCount, ofWord r.symArgvs), (.symbolicArgvLength, ofWord r.symArgvLen)]
  else []

def argParts (a : String) : List (Field × Bytes) := [(.argument, encodeArg a)]

def objectParts (o : Object) : List (Field × Bytes) :=
  [(.objectName, encodeBlob (ofString o.name)), (.objectBytes, encodeBlob o.bytes)]

/-- The fields of a record's layout, each with its bytes. The length of a text or of a payload belongs
to its field. -/
def parts (magic : Bytes) (r : Record) : List (Field × Bytes) :=
  [(.magic, magic), (.version, ofWord r.version),
      (.argumentCount, ofWord (Int32.ofNat r.args.length))]
    ++ (r.args.flatMap argParts ++ (symbolicParts r
    ++ ([(.objectCount, ofWord (Int32.ofNat r.objects.length))]
    ++ r.objects.flatMap objectParts)))

/-- The bytes of fields one after another. -/
def written (parts : List (Field × Bytes)) : Bytes := parts.flatMap (·.2)

/-- The field to which the byte at a position belongs. -/
def fieldAt : List (Field × Bytes) → Nat → Option Field
  | [], _ => none
  | (field, bytes) :: parts, n =>
    if n < bytes.length then some field else fieldAt parts (n - bytes.length)

variable {ps qs : List (Field × Bytes)}

@[simp] theorem written_nil : written [] = [] := rfl

@[simp] theorem written_cons (field : Field) (bytes : Bytes) (ps : List (Field × Bytes)) :
    written ((field, bytes) :: ps) = bytes ++ written ps := rfl

@[simp] theorem written_append : written (ps ++ qs) = written ps ++ written qs :=
  List.flatMap_append

theorem written_flatMap {α : Type} (partsOf : α → List (Field × Bytes)) (as : List α) :
    written (as.flatMap partsOf) = as.flatMap fun a => written (partsOf a) := List.flatMap_assoc

theorem written_argParts (a : String) : written (argParts a) = encodeArg a := by
  simp [argParts]

theorem written_objectParts (o : Object) : written (objectParts o) = encodeObject o := by
  simp [objectParts, encodeObject]

theorem written_symbolicParts (r : Record) : written (symbolicParts r) = encodeSymbolic r := by
  unfold symbolicParts encodeSymbolic
  split
  · simp
  · rfl

/-- The fields of a layout hold all of its bytes. -/
theorem written_parts (magic : Bytes) (r : Record) :
    written (parts magic r) = magic ++ encodeBody r := by
  simp [parts, encodeBody, written_flatMap, written_argParts, written_objectParts,
    written_symbolicParts]

theorem fieldAt_append_of_lt {n : Nat} (h : n < (written ps).length) :
    fieldAt (ps ++ qs) n = fieldAt ps n := by
  induction ps generalizing n with
  | nil => cases h
  | cons p ps ih =>
    obtain ⟨field, bytes⟩ := p
    rw [written_cons, List.length_append] at h
    rw [List.cons_append, fieldAt, fieldAt]
    by_cases hn : n < bytes.length
    · rw [if_pos hn, if_pos hn]
    · rw [if_neg hn, if_neg hn, ih (by omega)]

theorem fieldAt_append_of_le {n : Nat} (h : (written ps).length ≤ n) :
    fieldAt (ps ++ qs) n = fieldAt qs (n - (written ps).length) := by
  induction ps generalizing n with
  | nil => rfl
  | cons p ps ih =>
    obtain ⟨field, bytes⟩ := p
    rw [written_cons, List.length_append] at h
    rw [List.cons_append, fieldAt, if_neg (by omega), ih (by omega), written_cons,
      List.length_append, Nat.sub_sub]

theorem exists_fieldAt {n : Nat} (h : n < (written ps).length) :
    ∃ field, fieldAt ps n = some field := by
  induction ps generalizing n with
  | nil => cases h
  | cons p ps ih =>
    obtain ⟨field, bytes⟩ := p
    rw [written_cons, List.length_append] at h
    rw [fieldAt]
    by_cases hn : n < bytes.length
    · exact ⟨field, if_pos hn⟩
    · rw [if_neg hn]
      exact ih (by omega)

end Record

/-! ## Readers of fields -/

namespace Reading

open Record Bytes

variable {α β : Type} {ps qs : List (Field × Bytes)} {x : Reading Bytes α} {a : α}

/-- Where not all bytes of some fields are there, a reader reports the field of the first one that is
missing. -/
def Cuts (x : Reading Bytes α) (ps : List (Field × Bytes)) : Prop :=
  ∀ n field, n < (written ps).length → fieldAt ps n = some field →
    x ((written ps).take n) = .error (.truncated field)

/-- A reader that needs no bytes is never cut short. -/
theorem cuts_nil : Cuts x [] := nofun

/-- What is cut short is not gone on with. -/
theorem Cuts.andThen (hx : Cuts x ps) (f : α → Reading Bytes β) : Cuts (x >>= f) ps :=
  fun n field hn hfield => bind_of_error f (hx n field hn hfield)

/-- Two readers, of which the first one reads its fields to their end. -/
theorem Cuts.bind {f : α → Reading Bytes β} (hx : Cuts x ps)
    (ha : ∀ t, x (written ps ++ t) = .ok (a, t)) (hf : Cuts (f a) qs) :
    Cuts (x >>= f) (ps ++ qs) := by
  intro n field hn hfield
  rw [written_append] at hn ⊢
  rw [List.length_append] at hn
  by_cases hfirst : n < (written ps).length
  · rw [List.take_append_of_le_length (Nat.le_of_lt hfirst)]
    rw [fieldAt_append_of_lt hfirst] at hfield
    exact bind_of_error f (hx n field hfirst hfield)
  · have hlater := Nat.le_of_not_lt hfirst
    rw [fieldAt_append_of_le hlater] at hfield
    rw [List.take_append, List.take_of_length_le hlater, bind_of_ok f (ha _)]
    exact hf _ field (by omega) hfield

/-- It makes no difference whether bytes of one field are taken as one part or as two. -/
theorem Cuts.join {field : Field} {a b : Bytes} (h : Cuts x [(field, a), (field, b)]) :
    Cuts x [(field, a ++ b)] := by
  intro n field' hn hfield
  have hwritten : written [(field, a), (field, b)] = written [(field, a ++ b)] := by simp
  have hlength : n < a.length + b.length := by simpa using hn
  have htwo : fieldAt [(field, a), (field, b)] n = some field := by
    rw [fieldAt]
    by_cases hfirst : n < a.length
    · rw [if_pos hfirst]
    · rw [if_neg hfirst, fieldAt, if_pos (by omega)]
  have hone : fieldAt [(field, a ++ b)] n = some field := by
    rw [fieldAt, List.length_append, if_pos hlength]
  obtain rfl : field = field' := Option.some.inj (hone.symm.trans hfield)
  exact hwritten ▸ h n field (hwritten ▸ hn) htwo

/-! ## Fields of a layout -/

theorem cuts_exactly (field : Field) (bytes : Bytes) :
    Cuts (exactly ByteSource.memory field bytes.length) [(field, bytes)] := by
  intro n field' hn hfield
  have hlength : n < bytes.length := by simpa using hn
  have hone : fieldAt [(field, bytes)] n = some field := if_pos hlength
  obtain rfl : field = field' := Option.some.inj (hone.symm.trans hfield)
  have hshort : ¬ bytes.length ≤ ((written [(field, bytes)]).take n).length := by
    rw [List.length_take]
    omega
  rw [exactly_memory, if_neg hshort]

theorem cuts_word (field : Field) (w : Int32) :
    Cuts (word ByteSource.memory field) [(field, ofWord w)] :=
  (cuts_exactly field (ofWord w)).andThen _

theorem cuts_count (field : Field) (n : Nat) :
    Cuts (count ByteSource.memory field) [(field, ofWord (Int32.ofNat n))] :=
  (cuts_word field _).andThen _

theorem cuts_blob {field : Field} {bytes : Bytes} (bound : bytes.length ≤ maxCount) :
    Cuts (blob ByteSource.memory field) [(field, encodeBlob bytes)] := by
  have hcount (t : Bytes) : count ByteSource.memory field
      (written [(field, ofWord (Int32.ofNat bytes.length))] ++ t) = .ok (bytes.length, t) :=
    count_eq_ok.2 ⟨bound, by simp⟩
  have hbytes : Cuts (portion ByteSource.memory field bytes.length) [(field, bytes)] := by
    rw [portion_memory]
    exact cuts_exactly field bytes
  exact ((cuts_count field bytes.length).bind hcount hbytes).join

theorem cuts_magic {m : Bytes} (hm : IsMagic m) : Cuts (magic ByteSource.memory) [(.magic, m)] := by
  have hexactly := cuts_exactly .magic m
  rw [hm.length_eq] at hexactly
  exact hexactly.andThen _

theorem cuts_version (max v : Int32) :
    Cuts (version ByteSource.memory max) [(.version, ofWord v)] := (cuts_word .version v).andThen _

theorem cuts_arg {a : String} (fits : ArgFits a) (index : Nat) :
    Cuts (arg ByteSource.memory index) (argParts a) := (cuts_blob fits).andThen _

theorem cuts_object {o : Object} (fits : ObjectFits o) (index : Nat) :
    Cuts (object ByteSource.memory index) (objectParts o) := by
  have hname (t : Bytes) : blob ByteSource.memory .objectName
      (written [(.objectName, encodeBlob (ofString o.name))] ++ t) = .ok (ofString o.name, t) :=
    blob_eq_ok.2 ⟨fits.1, by simp⟩
  refine (cuts_blob fits.1).bind hname ?_
  rw [toString?_ofString]
  exact (cuts_blob fits.2).andThen _

/-- Items that are each cut short where bytes are missing are so together. -/
theorem cuts_items {item : Nat → Reading Bytes α} {items : Nat → Nat → Reading Bytes (List α)}
    {partsOf : α → List (Field × Bytes)}
    (succ : ∀ n index, items (n + 1) index = do
      let first ← item index
      return first :: (← items n (index + 1)))
    {as : List α} (whole : ∀ a ∈ as, ∀ index t, item index (written (partsOf a) ++ t) = .ok (a, t))
    (cut : ∀ a ∈ as, ∀ index, Cuts (item index) (partsOf a)) (index : Nat) :
    Cuts (items as.length index) (as.flatMap partsOf) := by
  induction as generalizing index with
  | nil => exact cuts_nil
  | cons a as ih =>
    obtain ⟨wholeFirst, whole⟩ := List.forall_mem_cons.1 whole
    obtain ⟨cutFirst, cut⟩ := List.forall_mem_cons.1 cut
    rw [List.length_cons, succ, List.flatMap_cons]
    exact (cutFirst index).bind (wholeFirst index) ((ih whole cut (index + 1)).andThen _)

theorem cuts_args {as : List String} (fits : ∀ a ∈ as, ArgFits a ∧ IsAsciiText a) (index : Nat) :
    Cuts (args ByteSource.memory as.length index) (as.flatMap argParts) := by
  refine cuts_items (fun _ _ => rfl) (fun a ha index t => ?_) (fun a ha index => ?_) index
  · exact arg_eq_ok.2 ⟨fits a ha, by rw [written_argParts]⟩
  · exact cuts_arg (fits a ha).1 index

theorem cuts_objects {os : List Object} (fits : ∀ o ∈ os, ObjectFits o) (index : Nat) :
    Cuts (objects ByteSource.memory os.length index) (os.flatMap objectParts) := by
  refine cuts_items (fun _ _ => rfl) (fun o ho index t => ?_) (fun o ho index => ?_) index
  · exact object_eq_ok.2 ⟨fits o ho, by rw [written_objectParts]⟩
  · exact cuts_object (fits o ho) index

theorem cuts_symbolic (r : Record) :
    Cuts (symbolic ByteSource.memory r.version) (symbolicParts r) := by
  unfold symbolic symbolicParts
  by_cases has : HasSymbolic r.version
  · rw [if_pos has, if_pos has]
    have hfirst (t : Bytes) : word ByteSource.memory .symbolicArgvCount
        (written [(.symbolicArgvCount, ofWord r.symArgvs)] ++ t) = .ok (r.symArgvs, t) :=
      word_eq_ok.2 (by simp)
    exact (cuts_word _ r.symArgvs).bind hfirst ((cuts_word _ r.symArgvLen).andThen _)
  · simp only [if_neg has]
    exact cuts_nil

/-- A record that can be read is cut short at the field of the first byte that is missing. -/
theorem cuts_record {max : Int32} {m : Bytes} {r : Record} (hm : IsMagic m) (created : r.IsCreated)
    (readable : r.IsReadable max) : Cuts (record ByteSource.memory max) (parts m r) := by
  obtain ⟨low, ascii, fits⟩ := readable
  have argsFit : ∀ a ∈ r.args, ArgFits a ∧ IsAsciiText a := fun a ha => ⟨fits.args a ha, ascii a ha⟩
  have hmagic (t : Bytes) : magic ByteSource.memory (written [(.magic, m)] ++ t) = .ok ((), t) :=
    magic_eq_ok.2 ⟨m, hm, by simp⟩
  have hversion (t : Bytes) : version ByteSource.memory max
      (written [(.version, ofWord r.version)] ++ t) = .ok (r.version, t) :=
    version_eq_ok.2 ⟨low, by simp⟩
  have hcount (field : Field) {n : Nat} (bound : n ≤ maxCount) (t : Bytes) :
      count ByteSource.memory field (written [(field, ofWord (Int32.ofNat n))] ++ t) = .ok (n, t) :=
    count_eq_ok.2 ⟨bound, by simp⟩
  have hargs (t : Bytes) : args ByteSource.memory r.args.length 0
      (written (r.args.flatMap argParts) ++ t) = .ok (r.args, t) :=
    args_eq_ok.2 ⟨rfl, argsFit, by simp only [written_flatMap, written_argParts]⟩
  have hsymbolic (t : Bytes) : symbolic ByteSource.memory r.version
      (written (symbolicParts r) ++ t) = .ok ((r.symArgvs, r.symArgvLen), t) := by
    rw [written_symbolicParts, symbolic_eq_ok, encodeSymbolic]
    split
    · rfl
    · rename_i hasNot
      obtain ⟨hx, hy⟩ := (isCreated_iff.1 created).2 hasNot
      exact ⟨hx, hy, rfl⟩
  show Cuts _ ([_] ++ ([_] ++ ([_] ++ (_ ++ (_ ++ ([_] ++ _))))))
  refine Cuts.bind (cuts_magic hm) hmagic ?_
  refine Cuts.bind (cuts_version max r.version) hversion ?_
  refine Cuts.bind (cuts_count .argumentCount r.args.length) (hcount _ fits.argCount) ?_
  refine Cuts.bind (cuts_args argsFit 0) hargs ?_
  refine Cuts.bind (cuts_symbolic r) hsymbolic ?_
  refine Cuts.bind (cuts_count .objectCount r.objects.length) (hcount _ fits.objectCount) ?_
  exact (cuts_objects fits.objects 0).andThen _

end Reading

/-! ## Whole records -/

namespace Record

open Bytes Reading

theorem decode_of_le {max max' : Int32} {s rest : Bytes} {r : Record} (higher : max ≤ max')
    (h : decode max s = .ok (r, rest)) : decode max' s = .ok (r, rest) := by
  obtain ⟨created, ⟨low, ascii, fits⟩, layout⟩ := decode_eq_ok_iff.1 h
  exact decode_eq_ok_iff.2 ⟨created, ⟨Int32.le_trans low higher, ascii, fits⟩, layout⟩

theorem take_of_isMagic {m : Bytes} (hm : IsMagic m) (s : Bytes) : (m ++ s).take 5 = m :=
  hm.length_eq ▸ List.take_left

/-- Bytes that are read as a record to their end are no strict beginning of others, under whatever
limits. -/
theorem eq_nil_of_decode_append {max max' : Int32} {p t : Bytes} {r r' : Record}
    (h : ∀ t, decode max (p ++ t) = .ok (r, t)) (h' : decode max' (p ++ t) = .ok (r', [])) :
    t = [] := by
  rcases Int32.le_total max max' with higher | lower
  · have same := decode_of_le higher (h t)
    rw [h', Except.ok.injEq, Prod.mk.injEq] at same
    exact same.2.symm
  · have same := decode_of_le lower h'
    rw [h t, Except.ok.injEq, Prod.mk.injEq] at same
    exact same.2

/-- **Missing bytes are noticed and named.** The bytes that a record was read from are the fields of
its layout. Any strict beginning of them is reported as truncated at the field of the first byte that
is missing. So no bytes that are read to their end are a strict beginning of others that are, and
what follows the bytes of a record changes nothing. -/
theorem decode_of_strict_prefix {max : Int32} {s rest : Bytes} {r : Record}
    (h : decode max s = .ok (r, rest)) :
    let fields := parts (s.take 5) r
    let p := written fields
    IsMagic (s.take 5) ∧ s = p ++ rest
    ∧ (∀ q, q <+: p → q ≠ p → ∃ field,
        fieldAt fields q.length = some field ∧ decode max q = .error (.truncated field))
    ∧ (∀ max' p' r', decode max' p' = .ok (r', []) → p <+: p' → p' = p)
    ∧ ∀ t, decode max (p ++ t) = .ok (r, t) := by
  intro fields p
  obtain ⟨created, readable, m, hm, hs⟩ := decode_eq_ok_iff.1 h
  have hmagic : s.take 5 = m := by
    rw [hs, List.append_assoc, take_of_isMagic hm]
  have hp : p = m ++ encodeBody r := by
    show written (parts (s.take 5) r) = _
    rw [hmagic, written_parts]
  have hread (t : Bytes) : decode max (p ++ t) = .ok (r, t) :=
    hp ▸ decode_of_layout hm created readable t
  refine ⟨hmagic ▸ hm, hp ▸ hs, ?_, ?_, hread⟩
  · intro q hbefore hstrict
    have hlength : q.length < p.length := by
      refine Nat.lt_of_le_of_ne hbefore.length_le fun hsame => ?_
      exact hstrict (hbefore.eq_of_length hsame)
    obtain ⟨field, hfield⟩ := exists_fieldAt hlength
    have hcut := cuts_record (hmagic.symm ▸ hm : IsMagic (s.take 5)) created readable q.length field
      hlength hfield
    refine ⟨field, hfield, ?_⟩
    rw [List.prefix_iff_eq_take.1 hbefore]
    exact hcut
  · rintro max' p' r' h' ⟨t, rfl⟩
    rw [eq_nil_of_decode_append hread h', List.append_nil]

/-- Cut inside the length of an empty argument, and right behind an empty name. -/
theorem decode_of_strict_prefix_empty_texts :
    let r : Record := create 2 ["ab", ""] 1 4 [⟨"", []⟩, ⟨"n", [1, 2, 3]⟩]
    let s := encode r ++ [9]
    decode 3 s = .ok (r, [9])
      ∧ decode 3 (s.take 21) = .error (.truncated .argument)
      ∧ decode 3 (s.take 39) = .error (.truncated .objectBytes) := by
  intro r s
  have read : decode 3 s = .ok (r, [9]) := decode_encode ⟨_, _, _, _, _, rfl⟩ (by decide) [9]
  obtain ⟨-, -, cut, -⟩ := decode_of_strict_prefix read
  have inArgument : fieldAt (parts (s.take 5) r) (s.take 21).length = some .argument := by decide
  have beforeBytes : fieldAt (parts (s.take 5) r) (s.take 39).length = some .objectBytes := by decide
  obtain ⟨field, hfield, hcut⟩ := cut (s.take 21) (by decide) (by decide)
  obtain ⟨field', hfield', hcut'⟩ := cut (s.take 39) (by decide) (by decide)
  cases inArgument.symm.trans hfield
  cases beforeBytes.symm.trans hfield'
  exact ⟨read, hcut, hcut'⟩

end Record

end CaseHarvest
