import CaseHarvest.Proofs.Record.Codec
/-!
Reading a record from a stream. Main statement: it comes to what reading the same bytes from memory
comes to, in whatever pieces they come and however often a question is interrupted, and where memory
holds too few bytes, the stream's own end decides what is reported (`decode_delivered`).
-/
namespace CaseHarvest

open ByteSource (Delivers)

/-- A field whose bytes follow their length. -/
def Field.HasLength : Field → Prop
  | argument | objectName | objectBytes => True
  | _ => False

instance (field : Field) : Decidable field.HasLength := by
  cases field <;> unfold Field.HasLength <;> infer_instance

namespace Reading

variable {σ τ α β : Type}

/-! ## What two sources come to -/

/-- Two sources come to the same: to one value, with the same bytes still to come, or to errors that are
related. -/
def Agree (R : DecodeError → DecodeError → Prop) (Holds : σ → Bytes → Prop) (Holds' : τ → Bytes → Prop) :
    Except DecodeError (α × σ) → Except DecodeError (α × τ) → Prop
  | .ok (a, s), .ok (b, t) => a = b ∧ ∃ bytes, Holds s bytes ∧ Holds' t bytes
  | .error e, .error e' => R e e'
  | _, _ => False

/-- Reading agrees wherever the same bytes are to come. -/
def Follows (R : DecodeError → DecodeError → Prop) (Holds : σ → Bytes → Prop) (Holds' : τ → Bytes → Prop)
    (x : Reading σ α) (y : Reading τ α) : Prop :=
  ∀ s t bytes, Holds s bytes → Holds' t bytes → Agree R Holds Holds' (x s) (y t)

/-- Errors are related that are the same and do not come from an end, and those that two ends cause. -/
structure Relates (R : DecodeError → DecodeError → Prop) (ending ending' : Option Fault) : Prop where
  same : ∀ e, (∀ field, e ≠ .truncated field) → R e e
  fixed : ∀ field, R (shortOfFixed ending field) (shortOfFixed ending' field)
  body : ∀ field, field.HasLength → R (shortOfBody ending field) (shortOfBody ending' field)

variable {R : DecodeError → DecodeError → Prop} {ending ending' : Option Fault}
  {Holds : σ → Bytes → Prop} {Holds' : τ → Bytes → Prop}

theorem Takes.agree {n : Nat} {bytes : Bytes} {short short' : DecodeError}
    {outcome : Except DecodeError (Bytes × σ)} {outcome' : Except DecodeError (Bytes × τ)}
    (h : Takes Holds n bytes short outcome) (h' : Takes Holds' n bytes short' outcome')
    (hshort : R short short') : Agree R Holds Holds' outcome outcome' := by
  unfold Takes at h h'
  by_cases henough : n ≤ bytes.length
  · rw [if_pos henough] at h h'
    obtain ⟨s, rfl, hs⟩ := h
    obtain ⟨t, rfl, ht⟩ := h'
    exact ⟨rfl, _, hs, ht⟩
  · rw [if_neg henough] at h h'
    rw [h, h']
    exact hshort

/-- Sources that agree up to equality give one record or one error. -/
theorem Agree.map_eq {x : Except DecodeError (α × σ)} {y : Except DecodeError (α × τ)}
    (h : Agree Eq Holds Holds' x y) : x.map (·.1) = y.map (·.1) := by
  cases x with
  | error e =>
    cases y with
    | error e' => exact congrArg Except.error h
    | ok q => cases h
  | ok p =>
    cases y with
    | error e' => cases h
    | ok q => exact congrArg Except.ok h.1

theorem follows_pure (a : α) : Follows R Holds Holds' (pure a) (pure a) :=
  fun _ _ bytes hs ht => ⟨rfl, bytes, hs, ht⟩

theorem follows_throw {e : DecodeError} (h : R e e) :
    Follows R Holds Holds' (throw e : Reading σ α) (throw e) := fun _ _ _ _ _ => h

theorem Follows.bind {x : Reading σ α} {y : Reading τ α} {f : α → Reading σ β} {g : α → Reading τ β}
    (hx : Follows R Holds Holds' x y) (hf : ∀ a, Follows R Holds Holds' (f a) (g a)) :
    Follows R Holds Holds' (x >>= f) (y >>= g) := by
  intro s t bytes hs ht
  have hfirst := hx s t bytes hs ht
  cases hread : x s with
  | error e =>
    cases hother : y t with
    | error e' =>
      rw [hread, hother] at hfirst
      rwa [bind_of_error f hread, bind_of_error g hother]
    | ok p =>
      rw [hread, hother] at hfirst
      cases hfirst
  | ok q =>
    cases hother : y t with
    | error e' =>
      rw [hread, hother] at hfirst
      cases hfirst
    | ok p =>
      rw [hread, hother] at hfirst
      obtain ⟨hvalue, rest, hs', ht'⟩ := hfirst
      rw [bind_of_ok f hread, bind_of_ok g hother, hvalue]
      exact hf _ _ _ _ hs' ht'

theorem Follows.ite {p : Prop} [Decidable p] {x x' : Reading σ α} {y y' : Reading τ α}
    (h : Follows R Holds Holds' x y) (h' : Follows R Holds Holds' x' y') :
    Follows R Holds Holds' (if p then x else x') (if p then y else y') := by
  by_cases hp : p
  · rwa [if_pos hp, if_pos hp]
  · rwa [if_neg hp, if_neg hp]

/-! ## Parts of a record -/

section Parts

variable {src : ByteSource σ} {src' : ByteSource τ} (h : Delivers src Holds ending)
  (h' : Delivers src' Holds' ending') (hR : Relates R ending ending')
include h h' hR

theorem follows_exactly (field : Field) (n : Nat) :
    Follows R Holds Holds' (exactly src field n) (exactly src' field n) := fun _ _ _ hs ht =>
  (takes_exactly h hs field n).agree (takes_exactly h' ht field n) (hR.fixed field)

theorem follows_portion {field : Field} (hfield : field.HasLength) (n : Nat) :
    Follows R Holds Holds' (portion src field n) (portion src' field n) := fun _ _ _ hs ht =>
  (takes_portion h hs field n).agree (takes_portion h' ht field n) (hR.body field hfield)

theorem follows_word (field : Field) : Follows R Holds Holds' (word src field) (word src' field) :=
  (follows_exactly h h' hR field 4).bind fun _ => follows_pure _

theorem follows_count (field : Field) : Follows R Holds Holds' (count src field) (count src' field) :=
  (follows_word h h' hR field).bind fun value =>
    ((follows_throw (hR.same (.negativeLength field value) nofun)).bind fun _ => follows_pure _).ite
      (follows_pure _)

theorem follows_blob {field : Field} (hfield : field.HasLength) :
    Follows R Holds Holds' (blob src field) (blob src' field) :=
  (follows_count h h' hR field).bind fun n => follows_portion h h' hR hfield n

theorem follows_magic : Follows R Holds Holds' (magic src) (magic src') :=
  (follows_exactly h h' hR .magic 5).bind fun found =>
    (follows_pure _).ite (follows_throw (hR.same (.badMagic found) nofun))

theorem follows_version (max : Int32) : Follows R Holds Holds' (version src max) (version src' max) :=
  (follows_word h h' hR .version).bind fun found =>
    ((follows_throw (hR.same (.unsupportedVersion found max) nofun)).bind fun _ => follows_pure _).ite
      (follows_pure _)

theorem follows_arg (index : Nat) : Follows R Holds Holds' (arg src index) (arg src' index) :=
  (follows_blob h h' hR (show Field.argument.HasLength from trivial)).bind fun _ =>
    (follows_pure _).ite (follows_throw (hR.same (.invalidArgument index) nofun))

theorem follows_args (n index : Nat) :
    Follows R Holds Holds' (args src n index) (args src' n index) := by
  induction n generalizing index with
  | zero => exact follows_pure []
  | succ n ih =>
    exact (follows_arg h h' hR index).bind fun _ => (ih (index + 1)).bind fun _ => follows_pure _

theorem follows_object (index : Nat) :
    Follows R Holds Holds' (object src index) (object src' index) := by
  refine (follows_blob h h' hR (show Field.objectName.HasLength from trivial)).bind fun nameBytes => ?_
  cases nameBytes.toString? with
  | none => exact follows_throw (hR.same (.invalidName index) nofun)
  | some name =>
    exact (follows_blob h h' hR (show Field.objectBytes.HasLength from trivial)).bind fun _ =>
      follows_pure _

theorem follows_objects (n index : Nat) :
    Follows R Holds Holds' (objects src n index) (objects src' n index) := by
  induction n generalizing index with
  | zero => exact follows_pure []
  | succ n ih =>
    exact (follows_object h h' hR index).bind fun _ => (ih (index + 1)).bind fun _ => follows_pure _

theorem follows_symbolic (version : Int32) :
    Follows R Holds Holds' (symbolic src version) (symbolic src' version) :=
  ((follows_word h h' hR .symbolicArgvCount).bind fun _ =>
    (follows_word h h' hR .symbolicArgvLength).bind fun _ => follows_pure _).ite (follows_pure _)

/-- Two sources to which the same bytes are to come agree on the record that is read. -/
theorem follows_record (max : Int32) :
    Follows R Holds Holds' (record src max) (record src' max) := by
  refine (follows_magic h h' hR).bind fun _ => ?_
  refine (follows_version h h' hR max).bind fun version => ?_
  refine (follows_count h h' hR .argumentCount).bind fun argCount => ?_
  refine (follows_args h h' hR argCount 0).bind fun _ => ?_
  refine (follows_symbolic h h' hR version).bind fun _ => ?_
  refine (follows_count h h' hR .objectCount).bind fun objectCount => ?_
  exact (follows_objects h h' hR objectCount 0).bind fun _ => follows_pure _

end Parts

end Reading

/-! ## Whole records -/

/-- What a source's own end makes of bytes of a field that are missing. An end that the source tells
itself as a fault is one where a field or a length is short, and a fault where bytes are short that
follow their length. -/
def DecodeError.AtEnd (ending : Option Fault) (field : Field) (e : DecodeError) : Prop :=
  match ending with
  | none => e = .truncated field
  | some (.endedEarly reason) =>
    e = .truncated field ∨ field.HasLength ∧ e = .io (.endedEarly reason)
  | some fault => e = .io fault

/-- What is reported where memory would report an error. -/
def DecodeError.InPlaceOf (ending : Option Fault) (e : DecodeError) : DecodeError → Prop
  | .truncated field => e.AtEnd ending field
  | e' => e = e'

theorem Reading.relates_eq (ending : Option Fault) : Relates Eq ending ending :=
  ⟨fun _ _ => rfl, fun _ => rfl, fun _ _ => rfl⟩

theorem Reading.relates_inPlaceOf (ending : Option Fault) :
    Relates (DecodeError.InPlaceOf ending) ending none where
  same e h := by
    cases e with
    | truncated field => exact absurd rfl (h field)
    | _ => rfl
  fixed field := by
    show (shortOfFixed ending field).AtEnd ending field
    rcases ending with _ | fault
    · rfl
    · cases fault with
      | endedEarly reason => exact .inl rfl
      | _ => rfl
  body field hfield := by
    show (shortOfBody ending field).AtEnd ending field
    rcases ending with _ | fault
    · rfl
    · cases fault with
      | endedEarly reason => exact .inr ⟨hfield, rfl⟩
      | _ => rfl

namespace Record

open ByteSource (Stream piecewise within endingOf)

/-- Reading a record from memory, with the number of bytes that it takes. -/
def decodeCounting (max : Int32) (bytes : Bytes) : Except DecodeError (Record × Nat) :=
  (decode max bytes).map fun (r, rest) => (r, bytes.length - rest.length)

/-- Reading a record from a stream of at most `c` bytes an answer that gives a fault from an offset
on, with the number of bytes that it takes. -/
def decodeStream (c : Nat) (failAt : Option Nat) (fault : Fault) (max : Int32) (bytes : Bytes) :
    Except DecodeError (Record × Nat) :=
  (decodeFrom (piecewise (some c) failAt fault) max { rest := bytes }).map fun (r, st) =>
    (r, st.offset)

section Streams

variable {σ τ : Type} {src : ByteSource σ} {src' : ByteSource τ} {Holds : σ → Bytes → Prop}
  {Holds' : τ → Bytes → Prop} {ending : Option Fault} {c : Nat} {fault : Fault} {max : Int32} {s : Bytes}
  {field : Field}

/-- Sources that deliver the same bytes and end alike come to the same, with the same bytes left. -/
theorem agree_of_delivers (h : Delivers src Holds ending) (h' : Delivers src' Holds' ending)
    {start : σ} {start' : τ} (hs : Holds start s) (hs' : Holds' start' s) :
    Reading.Agree Eq Holds Holds' (decodeFrom src max start) (decodeFrom src' max start') :=
  Reading.follows_record h h' (Reading.relates_eq ending) max start start' s hs hs'

theorem agree_memory (h : Delivers src Holds ending) {start : σ} (hs : Holds start s) :
    Reading.Agree (DecodeError.InPlaceOf ending) Holds Eq (decodeFrom src max start) (decode max s) :=
  Reading.follows_record h ByteSource.delivers_memory (Reading.relates_inPlaceOf ending) max start s s hs rfl

theorem agree_piecewise (hc : c ≠ 0) (failAt : Option Nat) (fault : Fault) (max : Int32) (s : Bytes) :
    Reading.Agree (DecodeError.InPlaceOf (endingOf failAt fault s)) (Stream.IsOf failAt s) Eq
      (decodeFrom (piecewise (some c) failAt fault) max { rest := s })
      (decode max (within failAt s)) :=
  agree_memory (ByteSource.delivers_piecewise failAt fault s hc) (ByteSource.isOf_start failAt s)

/-- Where the bytes before a stream's fault are enough, the stream comes to what they come to in memory. -/
theorem decodeStream_of_enough (hc : c ≠ 0) (failAt : Option Nat)
    (h : ∀ field, decodeCounting max (within failAt s) ≠ .error (.truncated field)) :
    decodeStream c failAt fault max s = decodeCounting max (within failAt s) := by
  have hagree := agree_piecewise hc failAt fault max s
  unfold decodeCounting at h ⊢
  unfold decodeStream
  cases hstream : decodeFrom (piecewise (some c) failAt fault) max { rest := s } with
  | error e =>
    cases hmemory : decode max (within failAt s) with
    | error e' =>
      rw [hstream, hmemory] at hagree
      rw [hmemory] at h
      cases e' with
      | truncated field => exact absurd rfl (h field)
      | _ => exact congrArg Except.error hagree
    | ok p =>
      rw [hstream, hmemory] at hagree
      cases hagree
  | ok q =>
    cases hmemory : decode max (within failAt s) with
    | error e' =>
      rw [hstream, hmemory] at hagree
      cases hagree
    | ok p =>
      rw [hstream, hmemory] at hagree
      obtain ⟨hrecord, rest, hleft, hrest⟩ := hagree
      rw [← hrest] at hleft
      exact congrArg Except.ok (Prod.ext hrecord hleft.offset_eq)

/-- Where they are too few, the stream's end decides what is reported. -/
theorem decodeStream_of_truncated (hc : c ≠ 0) (failAt : Option Nat) (fault : Fault)
    (h : decodeCounting max (within failAt s) = .error (.truncated field)) :
    ∃ e : DecodeError, decodeStream c failAt fault max s = .error e
      ∧ e.AtEnd (endingOf failAt fault s) field := by
  have hagree := agree_piecewise hc failAt fault max s
  unfold decodeCounting at h
  unfold decodeStream
  cases hmemory : decode max (within failAt s) with
  | ok p =>
    rw [hmemory] at h
    cases h
  | error e' =>
    rw [hmemory] at h hagree
    cases h
    cases hstream : decodeFrom (piecewise (some c) failAt fault) max { rest := s } with
    | error e =>
      rw [hstream] at hagree
      exact ⟨e, rfl, hagree⟩
    | ok q =>
      rw [hstream] at hagree
      cases hagree

/-- Reading that does not come to an end, as each question is interrupted. -/
def NeverEnds (outcome : Except DecodeError (Record × Nat)) : Prop :=
  ∃ reason, outcome = .error (.io (.interrupted reason))

/-- How reading ends of a stream that gives a fault from an offset on and has too few bytes before it. -/
structure EndsShort (c f : Nat) (fault : Fault) (max : Int32) (s : Bytes) (field : Field) : Prop where
  /-- The data are at their end before the offset. -/
  ended : s.length < f → decodeStream c (some f) fault max s = .error (.truncated field)
  told : f ≤ s.length → fault.IsTold → decodeStream c (some f) fault max s = .error (.io fault)
  early : f ≤ s.length → ∀ reason, fault = .endedEarly reason →
    decodeStream c (some f) fault max s = .error (.truncated field)
      ∨ field.HasLength ∧ decodeStream c (some f) fault max s = .error (.io fault)
  /-- An interruption has no end: each question is interrupted however often it is asked. -/
  interrupted : f ≤ s.length → ∀ reason, fault = .interrupted reason →
    NeverEnds (decodeStream c (some f) fault max s)
      ∧ ∀ (limit again : Nat) (st : Stream), f ≤ st.offset →
        IsInterrupted (askWithin (piecewise (some c) (some f) fault).read
          (piecewise (some c) (some f) fault).resumed limit again st)

theorem endsShort_of_truncated {f : Nat} (hc : c ≠ 0)
    (h : decodeCounting max (s.take f) = .error (.truncated field)) :
    EndsShort c f fault max s field := by
  obtain ⟨e, hstream, hend⟩ := decodeStream_of_truncated hc (some f) fault h
  have hending : f ≤ s.length → endingOf (some f) fault s = some fault := fun hlong =>
    if_neg (Nat.not_lt.2 hlong)
  refine ⟨fun hshort => ?_, fun hlong htold => ?_, ?_, ?_⟩
  · rw [show endingOf (some f) fault s = none from if_pos hshort] at hend
    rw [hstream, show e = .truncated field from hend]
  · rw [hending hlong] at hend
    cases fault with
    | endedEarly reason => cases htold
    | interrupted reason => cases htold
    | _ => rw [hstream, show e = _ from hend]
  · rintro hlong reason rfl
    rw [hending hlong] at hend
    rcases hend with rfl | ⟨hfield, rfl⟩
    · exact .inl hstream
    · exact .inr ⟨hfield, hstream⟩
  · rintro hlong reason rfl
    rw [hending hlong] at hend
    refine ⟨⟨reason, by rw [hstream, show e = _ from hend]⟩, fun limit again st hst => ?_⟩
    have hread : (piecewise (some c) (some f) (.interrupted reason)).read limit st
        = .error (.interrupted reason) := if_pos hst
    show IsInterrupted (askWithin _ id limit again st) = true
    rw [askWithin_id, hread]
    rfl

end Streams

/-- A stream that tells its own end within the length of an argument has ended there; within the argument
it has failed. -/
example :
    decodeStream 1 (some 16) (.endedEarly "cut") 3 (encode (create 3 ["ab"] 0 0 []))
        = .error (.truncated .argument)
      ∧ decodeStream 1 (some 18) (.endedEarly "cut") 3 (encode (create 3 ["ab"] 0 0 []))
        = .error (.io (.endedEarly "cut")) := ⟨by cbv, by cbv⟩

end Record

end CaseHarvest
