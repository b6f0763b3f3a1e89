import Mathlib.Data.List.Induction
import Mathlib.Data.List.Perm.Subperm
import CaseHarvest.Record.Fingerprint
import CaseHarvest.Suite.Document
/-!
Keeping one record of each fingerprint. Main statements: what is kept are the first occurrences, as
many as can be told apart, and records that come behind others only add to what is kept of those and
to the test cases made of it (`dedup_keeps_first`).
-/
namespace CaseHarvest.Record

/-- The fingerprints of records, in order. -/
def prints (records : List Record) : List String := records.map fingerprint

@[simp] theorem prints_cons (r : Record) (records : List Record) :
    prints (r :: records) = r.fingerprint :: prints records := rfl

theorem mem_prints {r : Record} {records : List Record} (h : r ∈ records) :
    r.fingerprint ∈ prints records := List.mem_map_of_mem h

variable {seen seen' : List String} {xs ys : List Record} {r : Record}

theorem dedupFrom_cons_seen (h : r.fingerprint ∈ seen) :
    dedupFrom seen (r :: xs) = dedupFrom seen xs := if_pos h

theorem dedupFrom_cons_new (h : r.fingerprint ∉ seen) :
    dedupFrom seen (r :: xs) = r :: dedupFrom (r.fingerprint :: seen) xs := if_neg h

/-- Only which fingerprints have been seen matters, not in what order or how often. -/
theorem dedupFrom_congr (h : ∀ print, print ∈ seen ↔ print ∈ seen') :
    dedupFrom seen xs = dedupFrom seen' xs := by
  induction xs generalizing seen seen' with
  | nil => rfl
  | cons r xs ih =>
    by_cases hr : r.fingerprint ∈ seen
    · rw [dedupFrom_cons_seen hr, dedupFrom_cons_seen ((h _).1 hr), ih h]
    · rw [dedupFrom_cons_new hr, dedupFrom_cons_new (mt (h _).2 hr)]
      congr 1
      apply ih
      intro print
      rw [List.mem_cons, List.mem_cons, h]

/-- What has been seen before takes records out of what would be kept without it. -/
theorem dedupFrom_append_seen (before : List String) :
    dedupFrom (before ++ seen) xs
      = (dedupFrom seen xs).filter fun r => r.fingerprint ∉ before := by
  induction xs generalizing seen with
  | nil => rfl
  | cons r xs ih =>
    by_cases hseen : r.fingerprint ∈ seen
    · rw [dedupFrom_cons_seen hseen, dedupFrom_cons_seen (List.mem_append_right _ hseen), ih]
    have hcongr : dedupFrom (r.fingerprint :: (before ++ seen)) xs
        = dedupFrom (before ++ r.fingerprint :: seen) xs := by
      apply dedupFrom_congr
      intro print
      simp only [List.mem_cons, List.mem_append]
      exact or_left_comm
    rw [dedupFrom_cons_new hseen]
    by_cases hbefore : r.fingerprint ∈ before
    · have hmem : r.fingerprint ∈ before ++ seen := List.mem_append_left _ hbefore
      have hskip : dedupFrom (before ++ seen) xs
          = dedupFrom (r.fingerprint :: (before ++ seen)) xs := by
        apply dedupFrom_congr
        intro print
        rw [List.mem_cons]
        exact ⟨.inr, fun h => h.elim (fun e => e ▸ hmem) id⟩
      rw [dedupFrom_cons_seen hmem, List.filter_cons_of_neg (by simpa using hbefore), hskip,
        hcongr, ih]
    · have hmem : r.fingerprint ∉ before ++ seen := by simp [hbefore, hseen]
      rw [dedupFrom_cons_new hmem, List.filter_cons_of_pos (by simpa using hbefore), hcongr, ih]

theorem dedupFrom_append (seen : List String) (xs ys : List Record) :
    dedupFrom seen (xs ++ ys) = dedupFrom seen xs ++ dedupFrom (prints xs ++ seen) ys := by
  induction xs generalizing seen with
  | nil => rfl
  | cons r xs ih =>
    by_cases hr : r.fingerprint ∈ seen
    · have hcongr : dedupFrom (prints xs ++ seen) ys
          = dedupFrom (prints (r :: xs) ++ seen) ys := by
        apply dedupFrom_congr
        intro print
        rw [prints_cons, List.cons_append, List.mem_cons]
        exact ⟨.inr, fun h => h.elim (fun e => e ▸ List.mem_append_right _ hr) id⟩
      rw [List.cons_append, dedupFrom_cons_seen hr, dedupFrom_cons_seen hr, ih, hcongr]
    · have hcongr : dedupFrom (prints xs ++ r.fingerprint :: seen) ys
          = dedupFrom (prints (r :: xs) ++ seen) ys := by
        apply dedupFrom_congr
        intro print
        simp only [prints_cons, List.cons_append, List.mem_cons, List.mem_append]
        exact or_left_comm
      rw [List.cons_append, dedupFrom_cons_new hr, dedupFrom_cons_new hr, ih, hcongr,
        List.cons_append]

/-- Records behind others add what is new among them. -/
theorem dedup_append (xs ys : List Record) :
    dedup (xs ++ ys) = dedup xs ++ (dedup ys).filter fun y => y.fingerprint ∉ prints xs := by
  unfold dedup
  rw [dedupFrom_append, dedupFrom_append_seen]

theorem dedupFrom_sublist (seen : List String) (xs : List Record) :
    (dedupFrom seen xs).Sublist xs := by
  induction xs generalizing seen with
  | nil => exact List.Sublist.refl _
  | cons r xs ih =>
    by_cases hr : r.fingerprint ∈ seen
    · rw [dedupFrom_cons_seen hr]
      exact (ih seen).cons r
    · rw [dedupFrom_cons_new hr]
      exact (ih _).cons_cons r

/-- A record that is kept has not been seen, and it is the first of its fingerprint. -/
theorem first_of_mem_dedupFrom (h : r ∈ dedupFrom seen xs) :
    r.fingerprint ∉ seen ∧ xs.find? (fun x => x.fingerprint = r.fingerprint) = some r := by
  induction xs generalizing seen with
  | nil => cases h
  | cons x xs ih =>
    by_cases hx : x.fingerprint ∈ seen
    · rw [dedupFrom_cons_seen hx] at h
      obtain ⟨hr, hfind⟩ := ih h
      have hne : x.fingerprint ≠ r.fingerprint := fun e => hr (e ▸ hx)
      exact ⟨hr, by rw [List.find?_cons_of_neg (by simpa using hne), hfind]⟩
    · rw [dedupFrom_cons_new hx, List.mem_cons] at h
      rcases h with rfl | h
      · exact ⟨hx, List.find?_cons_of_pos (by simp)⟩
      · obtain ⟨hr, hfind⟩ := ih h
        obtain ⟨hne, hr⟩ := not_or.1 (mt List.mem_cons.2 hr)
        exact ⟨hr, by rw [List.find?_cons_of_neg (by simpa using Ne.symm hne), hfind]⟩

theorem nodup_prints_dedupFrom (seen : List String) (xs : List Record) :
    (prints (dedupFrom seen xs)).Nodup := by
  induction xs generalizing seen with
  | nil => exact List.nodup_nil
  | cons r xs ih =>
    by_cases hr : r.fingerprint ∈ seen
    · rw [dedupFrom_cons_seen hr]
      exact ih seen
    · rw [dedupFrom_cons_new hr, prints_cons, List.nodup_cons]
      refine ⟨fun hmem => ?_, ih _⟩
      obtain ⟨s, hs, hprint⟩ := List.mem_map.1 hmem
      exact (first_of_mem_dedupFrom hs).1 (hprint ▸ List.mem_cons_self)

/-- No fingerprint is lost. -/
theorem mem_prints_dedupFrom (h : r ∈ xs) :
    r.fingerprint ∈ seen ∨ r.fingerprint ∈ prints (dedupFrom seen xs) := by
  induction xs generalizing seen with
  | nil => cases h
  | cons x xs ih =>
    by_cases hx : x.fingerprint ∈ seen
    · rw [dedupFrom_cons_seen hx]
      rcases List.mem_cons.1 h with rfl | h
      · exact .inl hx
      · exact ih h
    · rw [dedupFrom_cons_new hx, prints_cons, List.mem_cons]
      rcases List.mem_cons.1 h with rfl | h
      · exact .inr (.inl rfl)
      · rcases ih h with hseen | hkept
        · exact (List.mem_cons.1 hseen).elim (fun e => .inr (.inl e)) .inl
        · exact .inr (.inr hkept)

theorem mem_prints_dedup (h : r ∈ xs) : r.fingerprint ∈ prints (dedup xs) :=
  (mem_prints_dedupFrom h).resolve_left List.not_mem_nil

/-- Nothing is taken out of records that can all be told apart. -/
theorem dedupFrom_of_nodup (h : (prints xs).Nodup) (hnew : ∀ x ∈ xs, x.fingerprint ∉ seen) :
    dedupFrom seen xs = xs := by
  induction xs generalizing seen with
  | nil => rfl
  | cons r xs ih =>
    rw [prints_cons, List.nodup_cons] at h
    rw [List.forall_mem_cons] at hnew
    rw [dedupFrom_cons_new hnew.1, ih h.2]
    intro x hx hmem
    rcases List.mem_cons.1 hmem with e | hmem
    · exact h.1 (e ▸ mem_prints hx)
    · exact hnew.2 x hx hmem

theorem dedup_dedup (xs : List Record) : dedup (dedup xs) = dedup xs :=
  dedupFrom_of_nodup (nodup_prints_dedupFrom [] xs) fun _ _ => List.not_mem_nil

/-- The records at those positions before which their fingerprint does not occur. -/
def firstOccurrences (records : List Record) : List Record :=
  (records.zipIdx.filter fun (r, i) => r.fingerprint ∉ prints (records.take i)).map (·.1)

theorem dedup_singleton (r : Record) : dedup [r] = [r] := dedupFrom_cons_new List.not_mem_nil

theorem dedup_eq_firstOccurrences (xs : List Record) : dedup xs = firstOccurrences xs := by
  induction xs using List.reverseRecOn with
  | nil => rfl
  | append_singleton xs r ih =>
    have hstart : xs.zipIdx.filter (fun (x, i) => x.fingerprint ∉ prints ((xs ++ [r]).take i))
        = xs.zipIdx.filter fun (x, i) => x.fingerprint ∉ prints (xs.take i) := by
      apply List.filter_congr
      rintro ⟨x, i⟩ hx
      have htake : (xs ++ [r]).take i = xs.take i :=
        List.take_append_of_le_length (Nat.le_of_lt (List.mem_zipIdx' hx).1)
      simp only [htake]
    rw [dedup_append, ih, dedup_singleton, firstOccurrences, firstOccurrences, List.zipIdx_append,
      List.filter_append, hstart, List.map_append]
    congr 1
    by_cases hr : r.fingerprint ∈ prints xs
    · simp [hr]
    · simp [hr]

/-- What is kept of records where only the first of each fingerprint is kept. -/
structure KeepsFirst (records kept : List Record) : Prop where
  positions : kept = firstOccurrences records
  sublist : kept.Sublist records
  distinct : (prints kept).Nodup
  complete : ∀ r ∈ records, r.fingerprint ∈ prints kept
  first : ∀ r ∈ kept, records.find? (fun x => x.fingerprint = r.fingerprint) = some r
  /-- No more records can be told apart than are kept. -/
  longest : ∀ others : List Record, others.Sublist records → (prints others).Nodup →
    others.length ≤ kept.length

theorem keepsFirst_dedup (xs : List Record) : KeepsFirst xs (dedup xs) where
  positions := dedup_eq_firstOccurrences xs
  sublist := dedupFrom_sublist [] xs
  distinct := nodup_prints_dedupFrom [] xs
  complete _ h := mem_prints_dedup h
  first _ h := (first_of_mem_dedupFrom h).2
  longest others hsub hnodup := by
    have hprints : prints others ⊆ prints (dedup xs) := by
      intro print hprint
      obtain ⟨r, hr, rfl⟩ := List.mem_map.1 hprint
      exact mem_prints_dedup (hsub.subset hr)
    have hlength := (hnodup.subperm hprints).length_le
    rwa [prints, prints, List.length_map, List.length_map] at hlength

theorem length_dedup_le (xs : List Record) : (dedup xs).length ≤ xs.length :=
  (dedupFrom_sublist [] xs).length_le

/-- Records whose fingerprints have all occurred add nothing. -/
theorem dedup_append_of_mem (h : ∀ y ∈ ys, y.fingerprint ∈ prints xs) :
    dedup (xs ++ ys) = dedup xs := by
  have hnone : (dedup ys).filter (fun y => y.fingerprint ∉ prints xs) = [] := by
    rw [List.filter_eq_nil_iff]
    intro y hy
    simpa using h y ((dedupFrom_sublist [] ys).subset hy)
  rw [dedup_append, hnone, List.append_nil]

/-- Test cases of records that come behind others come behind theirs. -/
theorem testCases_assemble_append (xs ys : List Record) (metadata : SuiteMetadata) :
    (TestSuite.assemble xs metadata).testCases
      <+: (TestSuite.assemble (xs ++ ys) metadata).testCases := by
  unfold TestSuite.assemble
  rw [List.zipIdx_append, List.map_append]
  exact List.prefix_append _ _

/-- What is kept of records are the first occurrences, and it stays what it is, at its position in
the suite, when records are put behind. -/
theorem dedup_keeps_first (xs ys : List Record) (metadata : SuiteMetadata) :
    KeepsFirst xs (dedup xs)
      ∧ dedup (dedup xs) = dedup xs
      ∧ dedup (xs ++ ys) = dedup xs ++ (dedup ys).filter (fun y => y.fingerprint ∉ prints xs)
      ∧ (TestSuite.assemble (dedup xs) metadata).testCases
          <+: (TestSuite.assemble (dedup (xs ++ ys)) metadata).testCases
      ∧ ((∀ y ∈ ys, y.fingerprint ∈ prints xs) →
          (TestSuite.assemble (dedup (xs ++ ys)) metadata).document
            = (TestSuite.assemble (dedup xs) metadata).document) := by
  refine ⟨keepsFirst_dedup xs, dedup_dedup xs, dedup_append xs ys, ?_, ?_⟩
  · rw [dedup_append]
    exact testCases_assemble_append _ _ metadata
  · intro h
    rw [dedup_append_of_mem h]

/-- A record with one object. -/
def ofPayload (name : String) (payload : Bytes) : Record := create 3 [] 0 0 [⟨name, payload⟩]

theorem dedup_keeps_first_renamed :
    (∀ y ∈ [ofPayload "renamed" [1], ofPayload "y" [2]],
        y.fingerprint ∈ prints [ofPayload "x" [1], ofPayload "y" [2]])
      ∧ (TestSuite.assemble (dedup ([ofPayload "x" [1], ofPayload "y" [2]]
            ++ [ofPayload "renamed" [1], ofPayload "y" [2]])) {}).document
          = (TestSuite.assemble (dedup [ofPayload "x" [1], ofPayload "y" [2]]) {}).document := by
  have h : ∀ y ∈ [ofPayload "renamed" [1], ofPayload "y" [2]],
      y.fingerprint ∈ prints [ofPayload "x" [1], ofPayload "y" [2]] := by decide +kernel
  exact ⟨h, (dedup_keeps_first _ _ {}).2.2.2.2 h⟩

end CaseHarvest.Record
