import CaseHarvest.Proofs.Bytes.Hex
import CaseHarvest.Proofs.Bytes.Text
import CaseHarvest.Proofs.Digest.Portions
import CaseHarvest.Proofs.Record.Dedup
/-!
The canonical order of objects. Main statement: a fingerprint is the digest of the payloads in the one
order that names and payloads give, so that neither the order in which a record has its objects nor
names that are changed in order make a difference to it, and of such records the same ones are kept
(`fingerprint_canonical`).
-/
namespace CaseHarvest

namespace Object

open Bytes

/-! ## The order of objects -/

/-- By name, names compared as UTF-8 bytes; objects of one name by payload. Bytes are unsigned. -/
def Precedes (x y : Object) : Prop :=
  ofString x.name < ofString y.name ∨ x.name = y.name ∧ x.bytes ≤ y.bytes

instance (x y : Object) : Decidable (Precedes x y) := inferInstanceAs (Decidable (_ ∨ _ ∧ _))

/-- Some objects in ascending order. -/
structure Arranged (objects sorted : List Object) : Prop where
  perm : sorted.Perm objects
  ascending : sorted.Pairwise Precedes

variable {x y z : Object} {objects sorted other : List Object}

theorem le_iff_precedes : le x y ↔ Precedes x y := by
  unfold le Precedes
  by_cases same : x.name = y.name
  · simp [same, le_iff, List.lt_irrefl]
  · have different : ofString x.name ≠ ofString y.name := mt ofString_injective same
    simp [same, different, le_iff, List.le_iff_lt_or_eq]

theorem name_trichotomy (x y : Object) : ofString x.name < ofString y.name ∨ x.name = y.name
    ∨ ofString y.name < ofString x.name := by
  rcases List.le_total (ofString x.name) (ofString y.name) with le | le <;>
    rcases List.le_iff_lt_or_eq.1 le with lt | eq
  · exact .inl lt
  · exact .inr (.inl (ofString_injective eq))
  · exact .inr (.inr lt)
  · exact .inr (.inl (ofString_injective eq.symm))

theorem precedes_total (x y : Object) : Precedes x y ∨ Precedes y x := by
  rcases name_trichotomy x y with lt | same | lt
  · exact .inl (.inl lt)
  · exact (List.le_total x.bytes y.bytes).imp (fun le => .inr ⟨same, le⟩)
      fun le => .inr ⟨same.symm, le⟩
  · exact .inr (.inl lt)

theorem Precedes.trans (hxy : Precedes x y) (hyz : Precedes y z) : Precedes x z := by
  rcases hxy with lt | ⟨same, le⟩
  · rcases hyz with lt' | ⟨same', -⟩
    · exact .inl (List.lt_trans lt lt')
    · exact .inl (same' ▸ lt)
  · rcases hyz with lt' | ⟨same', le'⟩
    · exact .inl (same ▸ lt')
    · exact .inr ⟨same.trans same', List.le_trans le le'⟩

theorem Precedes.antisymm (hxy : Precedes x y) (hyx : Precedes y x) : x = y := by
  rcases hxy with lt | ⟨same, le⟩
  · rcases hyx with lt' | ⟨same', -⟩
    · exact absurd (List.lt_trans lt lt') (List.lt_irrefl _)
    · exact absurd (same' ▸ lt) (List.lt_irrefl _)
  · rcases hyx with lt' | ⟨-, le'⟩
    · exact absurd (same ▸ lt') (List.lt_irrefl _)
    · have bytes := List.le_antisymm le le'
      cases x
      cases y
      cases same
      cases bytes
      rfl

/-! ## Objects in order -/

theorem arranged_mergeSort (objects : List Object) : Arranged objects (objects.mergeSort le) where
  perm := List.mergeSort_perm objects le
  ascending := by
    have trans (x y z : Object) (hxy : le x y) (hyz : le y z) : le x z :=
      le_iff_precedes.2 ((le_iff_precedes.1 hxy).trans (le_iff_precedes.1 hyz))
    have total (x y : Object) : le x y || le y x := by
      simpa [le_iff_precedes] using precedes_total x y
    exact (List.pairwise_mergeSort trans total objects).imp le_iff_precedes.1

/-- Objects can be put in order in one way only. -/
theorem Arranged.unique (h : Arranged objects sorted) (h' : Arranged objects other) :
    sorted = other :=
  List.Perm.eq_of_pairwise (fun _ _ _ _ => Precedes.antisymm) h.ascending h'.ascending
    (h.perm.trans h'.perm.symm)

theorem Arranged.payloads_eq (h : Arranged objects sorted) :
    payloads objects = sorted.map (·.bytes) := by
  rw [payloads, (arranged_mergeSort objects).unique h]

theorem payloads_of_perm (perm : other.Perm objects) : payloads other = payloads objects := by
  have arranged := arranged_mergeSort other
  exact (Arranged.payloads_eq ⟨arranged.perm.trans perm, arranged.ascending⟩).symm

/-! ## Names -/

def rename (f : String → String) (o : Object) : Object := { o with name := f o.name }

/-- Names of some objects that come one before the other still do so when they have been changed. -/
def KeepsOrder (f : String → String) (objects : List Object) : Prop :=
  ∀ x ∈ objects, ∀ y ∈ objects,
    ofString x.name < ofString y.name → ofString (f x.name) < ofString (f y.name)

instance (f : String → String) (objects : List Object) : Decidable (KeepsOrder f objects) :=
  inferInstanceAs (Decidable (∀ x ∈ objects, ∀ y ∈ objects, _ → _))

/-- An object whose name comes behind another one does not come before it. -/
theorem not_precedes_of_lt (lt : ofString y.name < ofString x.name) : ¬ Precedes x y := by
  rintro (lt' | ⟨same, -⟩)
  · exact absurd (List.lt_trans lt lt') (List.lt_irrefl _)
  · exact absurd (same ▸ lt) (List.lt_irrefl _)

theorem KeepsOrder.precedes_iff {f : String → String} (keeps : KeepsOrder f objects)
    (hx : x ∈ objects) (hy : y ∈ objects) :
    Precedes x y ↔ Precedes (x.rename f) (y.rename f) := by
  rcases name_trichotomy x y with lt | same | lt
  · exact ⟨fun _ => .inl (keeps x hx y hy lt), fun _ => .inl lt⟩
  · simp [Precedes, rename, same, List.lt_irrefl]
  · have behind : ¬ Precedes (x.rename f) (y.rename f) := not_precedes_of_lt (keeps y hy x hx lt)
    exact ⟨fun h => absurd h (not_precedes_of_lt lt), fun h => absurd h behind⟩

theorem payloads_rename {f : String → String} (keeps : KeepsOrder f objects) :
    payloads (objects.map (rename f)) = payloads objects := by
  have sorted : (objects.mergeSort le).map (rename f) = (objects.map (rename f)).mergeSort le := by
    apply List.map_mergeSort
    intro x hx y hy
    rw [Bool.eq_iff_iff, le_iff_precedes, le_iff_precedes, keeps.precedes_iff hx hy]
  rw [payloads, ← sorted, List.map_map]
  rfl

/-! ## Fingerprints -/

/-- A text of so many hexadecimal digits, without capitals. -/
def IsLowerHex (digits : Nat) (text : String) : Prop :=
  text.toList.length = digits ∧ ∀ c ∈ text.toList, c ∈ "0123456789abcdef".toList

theorem isLowerHex_toHex (bytes : Bytes) : IsLowerHex (2 * bytes.length) bytes.toHex := by
  constructor
  · rw [String.length_toList, length_toHex]
  · intro c hc
    exact isHexDigit_of_mem_toHex hc

theorem isLowerHex_fingerprint (objects : List Object) : IsLowerHex 64 (fingerprint objects) := by
  have digits := isLowerHex_toHex (Sha256.digest (payloads objects).flatten)
  rw [Sha256.length_digest] at digits
  exact digits

theorem fingerprint_congr {os os' : List Object} (same : payloads os = payloads os') :
    fingerprint os = fingerprint os' := by
  rw [fingerprint, fingerprint, same]

end Object

namespace Record

open Object (KeepsOrder rename)

/-- The objects of the second record are those of the first one in some order and under names that
have been changed in order. -/
def Rearranged (r s : Record) : Prop :=
  ∃ f, KeepsOrder f r.objects ∧ s.objects.Perm (r.objects.map (rename f))

theorem Rearranged.fingerprint_eq {r s : Record} (h : Rearranged r s) :
    r.fingerprint = s.fingerprint := by
  obtain ⟨f, keeps, perm⟩ := h
  apply Object.fingerprint_congr
  rw [Object.payloads_of_perm perm, Object.payloads_rename keeps]

/-- The positions of records whose fingerprint does not occur before. -/
def keptPositions (records : List Record) : List Nat :=
  ((prints records).zipIdx.filter fun (print, i) => print ∉ (prints records).take i).map (·.2)

theorem keptPositions_eq (records : List Record) : keptPositions records
    = (records.zipIdx.filter fun (r, i) => r.fingerprint ∉ prints (records.take i)).map (·.2) := by
  rw [keptPositions, prints, List.zipIdx_map, List.filter_map, List.map_map]
  simp only [← List.map_take]
  rfl

/-- The records that are kept are those at the kept positions. -/
theorem dedup_eq_keptPositions (records : List Record) :
    dedup records = (keptPositions records).filterMap (records[·]?) := by
  rw [dedup_eq_firstOccurrences, firstOccurrences, keptPositions_eq, List.filterMap_map]
  symm
  rw [List.filterMap_eq_map_iff_forall_eq_some]
  rintro ⟨r, i⟩ hr
  obtain ⟨bound, item⟩ := List.mem_zipIdx' (List.mem_of_mem_filter hr)
  exact (List.getElem?_eq_getElem bound).trans (congrArg some item.symm)

theorem keptPositions_of_rearranged {xs ys : List Record} (h : List.Forall₂ Rearranged xs ys) :
    keptPositions xs = keptPositions ys := by
  have same : prints xs = prints ys := by
    induction h with
    | nil => rfl
    | cons first _ ih => rw [prints_cons, prints_cons, first.fingerprint_eq, ih]
  rw [keptPositions, keptPositions, same]

/-- **Fingerprints are canonical.** A fingerprint is the digest, in lower-case digits, of the payloads
in the one order that names and payloads give, taken at once or one after the other. Another order of
the objects does not change it, nor do names that are changed in order; and where records are
rearranged in this way, those at the same positions are kept. -/
theorem fingerprint_canonical (objects : List Object) (xs ys : List Record) :
    (∃ sorted, Object.Arranged objects sorted)
      ∧ (∀ sorted, Object.Arranged objects sorted →
          Object.fingerprint objects = (Sha256.digest (sorted.map (·.bytes)).flatten).toHex
            ∧ Object.fingerprint objects
              = ((sorted.map (·.bytes)).foldl Sha256.Hasher.update .start).finish.toHex)
      ∧ Object.IsLowerHex 64 (Object.fingerprint objects)
      ∧ (∀ others : List Object, others.Perm objects →
          Object.fingerprint others = Object.fingerprint objects)
      ∧ (∀ f, KeepsOrder f objects →
          Object.fingerprint (objects.map (rename f)) = Object.fingerprint objects)
      ∧ dedup xs = (keptPositions xs).filterMap (xs[·]?)
      ∧ (List.Forall₂ Rearranged xs ys →
          keptPositions ys = keptPositions xs
            ∧ dedup ys = (keptPositions xs).filterMap (ys[·]?)) := by
  refine ⟨⟨_, Object.arranged_mergeSort objects⟩, ?_, ?_, ?_, ?_, dedup_eq_keptPositions xs, ?_⟩
  · intro sorted arranged
    rw [Sha256.finish_updates, ← arranged.payloads_eq]
    exact ⟨rfl, rfl⟩
  · exact Object.isLowerHex_fingerprint objects
  · exact fun others perm => Object.fingerprint_congr (Object.payloads_of_perm perm)
  · exact fun f keeps => Object.fingerprint_congr (Object.payloads_rename keeps)
  · intro rearranged
    have positions := keptPositions_of_rearranged rearranged
    exact ⟨positions.symm, by rw [positions, dedup_eq_keptPositions ys]⟩

/-- A name that occurs twice, and the same objects in another order and under other names. -/
theorem fingerprint_canonical_repeated_name :
    let r := create 3 [] 0 0 [⟨"b", [2]⟩, ⟨"a", [255]⟩, ⟨"a", [1]⟩]
    let s := create 3 [] 0 0 [⟨"n", [1]⟩, ⟨"z", [2]⟩, ⟨"n", [255]⟩]
    let t := create 3 [] 0 0 [⟨"x", [7]⟩]
    Object.Arranged r.objects [⟨"a", [1]⟩, ⟨"a", [255]⟩, ⟨"b", [2]⟩]
      ∧ r.fingerprint = (Sha256.digest [1, 255, 2]).toHex
      ∧ List.Forall₂ Rearranged [r, s, t] [s, r, t]
      ∧ dedup [s, r, t] = (keptPositions [r, s, t]).filterMap ([s, r, t][·]?) := by
  intro r s t
  have arranged : Object.Arranged r.objects [⟨"a", [1]⟩, ⟨"a", [255]⟩, ⟨"b", [2]⟩] :=
    ⟨by decide, by decide +kernel⟩
  have rearranged : List.Forall₂ Rearranged [r, s, t] [s, r, t] := by
    refine .cons ?_ (.cons ?_ (.cons ?_ .nil))
    · exact ⟨fun n => if n = "a" then "n" else "z", by decide +kernel, by decide⟩
    · exact ⟨fun n => if n = "n" then "a" else "b", by decide +kernel, by decide⟩
    · exact ⟨id, fun _ _ _ _ lt => lt, .refl _⟩
  obtain ⟨-, digests, -, -, -, -, kept⟩ := fingerprint_canonical r.objects [r, s, t] [s, r, t]
  exact ⟨arranged, (digests _ arranged).1, rearranged, (kept rearranged).2⟩

end Record

end CaseHarvest
