import CaseHarvest.Proofs.Bytes.Number
import CaseHarvest.Proofs.Bytes.Text
import CaseHarvest.Proofs.Record.Delivery
import CaseHarvest.Record.Decode
/-!
Reading from memory. For each part of a record there is one statement of when its reader succeeds
and what is left then: exactly when the bytes begin with what the part is written as. Together they
give `decode_eq_ok_iff`.
-/
namespace CaseHarvest

namespace Record

/-- The two byte strings that a record may begin with. -/
def IsMagic (m : Bytes) : Prop := m = currentMagic ∨ m = legacyMagic

theorem IsMagic.length_eq {m : Bytes} (h : IsMagic m) : m.length = 5 := by
  rcases h with rfl | rfl <;> rfl

/-- The layout has room for the length of an argument. -/
def ArgFits (a : String) : Prop := (Bytes.ofString a).length ≤ Bytes.maxCount

instance (a : String) : Decidable (ArgFits a) := inferInstanceAs (Decidable (_ ≤ _))

/-- The layout has room for the lengths of an object's name and payload. -/
def ObjectFits (o : Object) : Prop :=
  (Bytes.ofString o.name).length ≤ Bytes.maxCount ∧ o.bytes.length ≤ Bytes.maxCount

instance (o : Object) : Decidable (ObjectFits o) := inferInstanceAs (Decidable (_ ∧ _))

end Record

/-! ## Steps of reading -/

namespace Reading

variable {σ α β : Type}

theorem bind_eq_ok {x : Reading σ α} {f : α → Reading σ β} {s t : σ} {b : β} :
    (x >>= f) s = .ok (b, t) ↔ ∃ a u, x s = .ok (a, u) ∧ f a u = .ok (b, t) := by
  show (x s >>= fun p => f p.1 p.2) = _ ↔ _
  constructor
  · intro h
    cases hx : x s with
    | error e =>
      rw [hx] at h
      cases h
    | ok p =>
      rw [hx] at h
      exact ⟨p.1, p.2, rfl, h⟩
  · rintro ⟨a, u, hx, hf⟩
    rw [hx]
    exact hf

theorem pure_eq_ok {a b : α} {s t : σ} : (pure a : Reading σ α) s = .ok (b, t) ↔ b = a ∧ t = s := by
  show (Except.ok (a, s) : Except DecodeError _) = _ ↔ _
  rw [Except.ok.injEq, Prod.mk.injEq, eq_comm, @eq_comm _ s]

theorem throw_ne_ok {e : DecodeError} {a : α} {s t : σ} :
    (throw e : Reading σ α) s ≠ .ok (a, t) := by
  intro h
  cases h

theorem bind_of_ok {x : Reading σ α} {s t : σ} {a : α} (f : α → Reading σ β)
    (h : x s = .ok (a, t)) : (x >>= f) s = f a t := by
  show (x s >>= fun p => f p.1 p.2) = _
  rw [h]
  rfl

theorem bind_of_error {x : Reading σ α} {s : σ} {e : DecodeError} (f : α → Reading σ β)
    (h : x s = .error e) : (x >>= f) s = .error e := by
  show (x s >>= fun p => f p.1 p.2) = _
  rw [h]
  rfl

end Reading

/-! ## Bytes of a field -/

namespace Reading

open ByteSource (Delivers Taken)

variable {σ : Type} {src : ByteSource σ} {Holds : σ → Bytes → Prop} {ending : Option Fault}
  {bytes : Bytes} {s : σ}

/-- What is reported where a source ends within a field of a fixed number of bytes. -/
def shortOfFixed (ending : Option Fault) (field : Field) : DecodeError :=
  .ofFault field (ending.getD .unfilled)

/-- What is reported where a source ends within bytes that follow their length. -/
def shortOfBody (ending : Option Fault) (field : Field) : DecodeError :=
  ending.elim (.truncated field) .io

/-- The first bytes that are still to come have been taken, as many as needed, or there are fewer and
that is reported. -/
def Takes (Holds : σ → Bytes → Prop) (need : Nat) (bytes : Bytes) (short : DecodeError)
    (outcome : Except DecodeError (Bytes × σ)) : Prop :=
  if need ≤ bytes.length then ∃ t, outcome = .ok (bytes.take need, t) ∧ Holds t (bytes.drop need)
  else outcome = .error short

theorem takes_exactly (h : Delivers src Holds ending) (hs : Holds s bytes) (field : Field) (n : Nat) :
    Takes Holds n bytes (shortOfFixed ending field) (exactly src field n s) := by
  have htaken := h.taken_gather hs n
  unfold Takes exactly ByteSource.fill
  cases hgather : src.gather n s with
  | error fault =>
    rw [hgather] at htaken
    obtain ⟨hshort, rfl⟩ := htaken
    rw [if_neg (Nat.not_le.2 hshort)]
    rfl
  | ok given =>
    obtain ⟨given, t⟩ := given
    rw [hgather] at htaken
    obtain ⟨rfl, ht, hend⟩ := htaken
    show if _ then ∃ u, Except.mapError _ (if (bytes.take n).length = n then _ else _) = _ ∧ _
      else Except.mapError _ (if (bytes.take n).length = n then _ else _) = _
    by_cases henough : n ≤ bytes.length
    · rw [if_pos henough, if_pos (List.length_take_of_le henough)]
      exact ⟨t, rfl, ht⟩
    · obtain rfl : ending = none := hend.resolve_left henough
      have hlength : (bytes.take n).length ≠ n := by
        rw [List.length_take]
        omega
      rw [if_neg henough, if_neg hlength]
      rfl

theorem takes_portion (h : Delivers src Holds ending) (hs : Holds s bytes) (field : Field) (n : Nat) :
    Takes Holds n bytes (shortOfBody ending field) (portion src field n s) := by
  have htaken := h.taken_collect hs n
  unfold Takes portion
  cases hcollect : src.collect n s with
  | error fault =>
    rw [hcollect] at htaken
    obtain ⟨hshort, rfl⟩ := htaken
    rw [if_neg (Nat.not_le.2 hshort)]
    rfl
  | ok given =>
    obtain ⟨given, t⟩ := given
    rw [hcollect] at htaken
    obtain ⟨rfl, ht, hend⟩ := htaken
    by_cases henough : n ≤ bytes.length
    · rw [if_pos henough]
      exact ⟨t, if_pos (List.length_take_of_le henough), ht⟩
    · obtain rfl : ending = none := hend.resolve_left henough
      have hlength : (bytes.take n).length ≠ n := by
        rw [List.length_take]
        omega
      rw [if_neg henough]
      exact if_neg hlength

/-- What a step comes to that takes bytes from memory. -/
theorem Takes.eq_ite {short : DecodeError} {n : Nat} {outcome : Except DecodeError (Bytes × Bytes)}
    (h : Takes Eq n bytes short outcome) :
    outcome = if n ≤ bytes.length then .ok (bytes.take n, bytes.drop n) else .error short := by
  unfold Takes at h
  split at h
  · rename_i henough
    obtain ⟨t, rfl, rfl⟩ := h
    rw [if_pos henough]
  · rename_i hshort
    rw [if_neg hshort, h]

end Reading

/-! ## Bytes from memory -/

namespace Reading

open Record Bytes

variable {s t : Bytes}

theorem exactly_memory (field : Field) (n : Nat) (s : Bytes) :
    exactly ByteSource.memory field n s
      = if n ≤ s.length then .ok (s.take n, s.drop n) else .error (.truncated field) :=
  (takes_exactly ByteSource.delivers_memory rfl field n).eq_ite

/-- In memory it makes no difference whether room is made before the bytes have come. -/
theorem portion_memory : portion ByteSource.memory = exactly ByteSource.memory := by
  funext field n s
  rw [exactly_memory]
  exact (takes_portion ByteSource.delivers_memory rfl field n).eq_ite

theorem exactly_eq_ok {field : Field} {n : Nat} {bytes : Bytes} :
    exactly ByteSource.memory field n s = .ok (bytes, t) ↔ bytes.length = n ∧ s = bytes ++ t := by
  rw [exactly_memory]
  constructor
  · intro h
    split at h
    · rename_i enough
      cases h
      exact ⟨List.length_take_of_le enough, (List.take_append_drop n s).symm⟩
    · cases h
  · rintro ⟨rfl, rfl⟩
    simp

theorem word_eq_ok {field : Field} {w : Int32} :
    word ByteSource.memory field s = .ok (w, t) ↔ s = Bytes.ofWord w ++ t := by
  unfold word
  rw [bind_eq_ok]
  constructor
  · rintro ⟨bytes, u, h, hw⟩
    obtain ⟨length, rfl⟩ := exactly_eq_ok.1 h
    obtain ⟨rfl, rfl⟩ := pure_eq_ok.1 hw
    rw [Bytes.ofWord_toWord length]
  · rintro rfl
    refine ⟨_, t, exactly_eq_ok.2 ⟨Bytes.length_ofWord w, rfl⟩, ?_⟩
    rw [Bytes.toWord_ofWord]
    rfl

theorem count_eq_ok {field : Field} {n : Nat} :
    count ByteSource.memory field s = .ok (n, t)
      ↔ n ≤ Bytes.maxCount ∧ s = Bytes.ofWord (Int32.ofNat n) ++ t := by
  unfold count
  rw [bind_eq_ok]
  constructor
  · rintro ⟨w, u, h, hw⟩
    rw [word_eq_ok] at h
    split at hw
    · obtain ⟨_, _, hthrow, _⟩ := bind_eq_ok.1 hw
      exact absurd hthrow throw_ne_ok
    · rename_i positive
      obtain ⟨rfl, rfl⟩ := pure_eq_ok.1 hw
      obtain ⟨bound, word⟩ := Bytes.count_iff.1 ⟨positive, rfl⟩
      exact ⟨bound, word ▸ h⟩
  · rintro ⟨bound, rfl⟩
    obtain ⟨positive, number⟩ := Bytes.count_iff.2 ⟨bound, rfl⟩
    refine ⟨_, t, word_eq_ok.2 rfl, ?_⟩
    rw [if_neg positive, number]
    rfl

theorem blob_eq_ok {field : Field} {bytes : Bytes} :
    blob ByteSource.memory field s = .ok (bytes, t)
      ↔ bytes.length ≤ Bytes.maxCount ∧ s = Record.encodeBlob bytes ++ t := by
  unfold blob Record.encodeBlob
  rw [portion_memory, bind_eq_ok]
  constructor
  · rintro ⟨n, u, h, hb⟩
    obtain ⟨bound, rfl⟩ := count_eq_ok.1 h
    obtain ⟨rfl, rfl⟩ := exactly_eq_ok.1 hb
    exact ⟨bound, (List.append_assoc ..).symm⟩
  · rintro ⟨bound, rfl⟩
    exact ⟨_, bytes ++ t, count_eq_ok.2 ⟨bound, List.append_assoc ..⟩, exactly_eq_ok.2 ⟨rfl, rfl⟩⟩

/-! ## Parts of a record -/

theorem magic_eq_ok : magic ByteSource.memory s = .ok ((), t) ↔ ∃ m, IsMagic m ∧ s = m ++ t := by
  unfold magic
  rw [bind_eq_ok]
  constructor
  · rintro ⟨found, u, h, hm⟩
    obtain ⟨-, rfl⟩ := exactly_eq_ok.1 h
    split at hm
    · rename_i known
      obtain ⟨-, rfl⟩ := pure_eq_ok.1 hm
      exact ⟨found, known, rfl⟩
    · exact absurd hm throw_ne_ok
  · rintro ⟨m, hm, rfl⟩
    refine ⟨m, t, exactly_eq_ok.2 ⟨hm.length_eq, rfl⟩, ?_⟩
    rw [if_pos (show m = currentMagic ∨ m = legacyMagic from hm)]
    rfl

theorem version_eq_ok {max v : Int32} :
    version ByteSource.memory max s = .ok (v, t) ↔ v ≤ max ∧ s = Bytes.ofWord v ++ t := by
  unfold version
  rw [bind_eq_ok]
  constructor
  · rintro ⟨found, u, h, hv⟩
    rw [word_eq_ok] at h
    split at hv
    · obtain ⟨_, _, hthrow, _⟩ := bind_eq_ok.1 hv
      exact absurd hthrow throw_ne_ok
    · rename_i low
      obtain ⟨rfl, rfl⟩ := pure_eq_ok.1 hv
      exact ⟨Int32.not_lt.1 low, h⟩
  · rintro ⟨low, rfl⟩
    refine ⟨v, t, word_eq_ok.2 rfl, ?_⟩
    rw [if_neg (Int32.not_lt.2 low)]
    rfl

theorem symbolic_eq_ok {v x y : Int32} :
    symbolic ByteSource.memory v s = .ok ((x, y), t)
      ↔ if HasSymbolic v then s = Bytes.ofWord x ++ Bytes.ofWord y ++ t
        else x = 0 ∧ y = 0 ∧ s = t := by
  unfold symbolic
  split
  · rw [bind_eq_ok]
    constructor
    · rintro ⟨x', u, hx, h⟩
      obtain ⟨y', u', hy, h⟩ := bind_eq_ok.1 h
      rw [word_eq_ok] at hx hy
      obtain ⟨pair, rfl⟩ := pure_eq_ok.1 h
      cases pair
      rw [hx, hy, List.append_assoc]
    · rintro rfl
      refine ⟨x, Bytes.ofWord y ++ t, word_eq_ok.2 (List.append_assoc ..), bind_eq_ok.2 ?_⟩
      exact ⟨y, t, word_eq_ok.2 rfl, rfl⟩
  · rw [pure_eq_ok, Prod.mk.injEq, and_assoc, @eq_comm _ t]

theorem arg_eq_ok {index : Nat} {a : String} :
    arg ByteSource.memory index s = .ok (a, t)
      ↔ (ArgFits a ∧ IsAsciiText a) ∧ s = encodeArg a ++ t := by
  unfold arg
  rw [bind_eq_ok]
  constructor
  · rintro ⟨bytes, u, h, ha⟩
    obtain ⟨bound, rfl⟩ := blob_eq_ok.1 h
    split at ha
    · rename_i ascii
      obtain ⟨rfl, rfl⟩ := pure_eq_ok.1 ha
      unfold ArgFits encodeArg
      rw [ofString_toLatin1 ascii]
      exact ⟨⟨bound, isAsciiText_toLatin1 ascii⟩, rfl⟩
    · exact absurd ha throw_ne_ok
  · rintro ⟨⟨bound, ascii⟩, rfl⟩
    refine ⟨ofString a, t, blob_eq_ok.2 ⟨bound, rfl⟩, ?_⟩
    rw [if_pos ((isAscii_ofString a).2 ascii), toLatin1_ofString ascii]
    rfl

theorem object_eq_ok {index : Nat} {o : Object} :
    object ByteSource.memory index s = .ok (o, t) ↔ ObjectFits o ∧ s = encodeObject o ++ t := by
  unfold object
  rw [bind_eq_ok]
  constructor
  · rintro ⟨name, u, h, ho⟩
    obtain ⟨nameBound, rfl⟩ := blob_eq_ok.1 h
    cases isText : name.toString? with
    | none =>
      rw [isText] at ho
      exact absurd ho throw_ne_ok
    | some text =>
      simp only [isText] at ho
      obtain ⟨bytes, v, hb, hpure⟩ := bind_eq_ok.1 ho
      obtain ⟨rfl, rfl⟩ := pure_eq_ok.1 hpure
      obtain ⟨bound, rfl⟩ := blob_eq_ok.1 hb
      cases toString?_eq_some_iff.1 isText
      exact ⟨⟨nameBound, bound⟩, (List.append_assoc ..).symm⟩
  · rintro ⟨⟨nameBound, bound⟩, rfl⟩
    refine ⟨ofString o.name, encodeBlob o.bytes ++ t,
      blob_eq_ok.2 ⟨nameBound, List.append_assoc ..⟩, ?_⟩
    rw [toString?_ofString]
    exact bind_eq_ok.2 ⟨o.bytes, t, blob_eq_ok.2 ⟨bound, rfl⟩, rfl⟩

/-- Items that are read one after another are those whose written forms the bytes begin with. -/
theorem items_eq_ok {α : Type} {item : Nat → Reading Bytes α}
    {items : Nat → Nat → Reading Bytes (List α)} {Fits : α → Prop} {encode : α → Bytes}
    (zero : ∀ index, items 0 index = pure [])
    (succ : ∀ n index, items (n + 1) index = do
      let first ← item index
      return first :: (← items n (index + 1)))
    (one : ∀ {index s t a}, item index s = .ok (a, t) ↔ Fits a ∧ s = encode a ++ t)
    {n index : Nat} {as : List α} :
    items n index s = .ok (as, t)
      ↔ as.length = n ∧ (∀ a ∈ as, Fits a) ∧ s = as.flatMap encode ++ t := by
  induction n generalizing index s as with
  | zero =>
    rw [zero, pure_eq_ok]
    constructor
    · rintro ⟨rfl, rfl⟩
      exact ⟨rfl, List.forall_mem_nil _, rfl⟩
    · rintro ⟨h, -, rfl⟩
      cases List.eq_nil_of_length_eq_zero h
      exact ⟨rfl, rfl⟩
  | succ n ih =>
    rw [succ, bind_eq_ok]
    constructor
    · rintro ⟨a, u, ha, h⟩
      obtain ⟨fits, rfl⟩ := one.1 ha
      obtain ⟨rest, v, hrest, h⟩ := bind_eq_ok.1 h
      obtain ⟨rfl, rfl⟩ := pure_eq_ok.1 h
      obtain ⟨rfl, all, rfl⟩ := ih.1 hrest
      exact ⟨rfl, List.forall_mem_cons.2 ⟨fits, all⟩, (List.append_assoc ..).symm⟩
    · rintro ⟨length, all, rfl⟩
      cases as with
      | nil => cases length
      | cons a as =>
        obtain ⟨fits, all⟩ := List.forall_mem_cons.1 all
        refine ⟨a, _, one.2 ⟨fits, List.append_assoc ..⟩, bind_eq_ok.2 ?_⟩
        exact ⟨as, t, ih.2 ⟨Nat.succ.inj length, all, rfl⟩, rfl⟩

theorem args_eq_ok {n index : Nat} {as : List String} :
    args ByteSource.memory n index s = .ok (as, t)
      ↔ as.length = n ∧ (∀ a ∈ as, ArgFits a ∧ IsAsciiText a) ∧ s = as.flatMap encodeArg ++ t :=
  items_eq_ok (fun _ => rfl) (fun _ _ => rfl) arg_eq_ok

theorem objects_eq_ok {n index : Nat} {os : List Object} :
    objects ByteSource.memory n index s = .ok (os, t)
      ↔ os.length = n ∧ (∀ o ∈ os, ObjectFits o) ∧ s = os.flatMap encodeObject ++ t :=
  items_eq_ok (fun _ => rfl) (fun _ _ => rfl) object_eq_ok

end Reading

end CaseHarvest
