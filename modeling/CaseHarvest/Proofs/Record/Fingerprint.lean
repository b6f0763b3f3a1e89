import CaseHarvest.Proofs.Bytes.Hex
import CaseHarvest.Proofs.Record.Dedup
/-!
What a fingerprint tells about a record. Main statements: records have one fingerprint exactly if
their payloads, run together in canonical order, are the same bytes or collide, so that no record is
dropped for one that holds other bytes (`fingerprint_eq_iff_content`). Where one payload ends and the
next one begins is not told: records that cut the same bytes in different places are taken for one
(`payloads_run_together`).
-/
namespace CaseHarvest

/-- Different byte strings with one digest. -/
def Sha256.Collide (a b : Bytes) : Prop := a ≠ b ∧ Sha256.digest a = Sha256.digest b

theorem Sha256.digest_eq_iff {a b : Bytes} :
    Sha256.digest a = Sha256.digest b ↔ a = b ∨ Sha256.Collide a b := by
  constructor
  · intro h
    by_cases hab : a = b
    · exact .inl hab
    · exact .inr ⟨hab, h⟩
  · rintro (rfl | h)
    · rfl
    · exact h.2

namespace Record

/-- The payloads in canonical order. -/
def payloads (r : Record) : List Bytes := Object.payloads r.objects

/-- The bytes that the digest is made of. -/
def content (r : Record) : Bytes := r.payloads.flatten

variable {r s : Record}

theorem fingerprint_eq_iff : r.fingerprint = s.fingerprint
    ↔ r.content = s.content ∨ Sha256.Collide r.content s.content := by
  rw [← Sha256.digest_eq_iff]
  exact ⟨Bytes.toHex_injective, congrArg Bytes.toHex⟩

/-- Of two records the second one is dropped exactly if it has the fingerprint of the first. -/
theorem dedup_pair_iff : dedup [r, s] = [r] ↔ r.fingerprint = s.fingerprint := by
  have h : dedup [r, s] = [r] ++ dedupFrom [r.fingerprint] [s] :=
    dedupFrom_cons_new List.not_mem_nil
  rw [h, List.append_right_eq_self]
  by_cases hs : s.fingerprint ∈ [r.fingerprint]
  · rw [dedupFrom_cons_seen hs]
    exact ⟨fun _ => (List.mem_singleton.1 hs).symm, fun _ => rfl⟩
  · rw [dedupFrom_cons_new hs]
    exact ⟨nofun, fun e => absurd (List.mem_singleton.2 e.symm) hs⟩

/-- For each of some records the first one with its fingerprint is kept. -/
theorem exists_kept {records : List Record} (h : r ∈ records) :
    ∃ kept ∈ dedup records, kept.fingerprint = r.fingerprint
      ∧ records.find? (fun x => x.fingerprint = r.fingerprint) = some kept := by
  obtain ⟨kept, hkept, hprint⟩ := List.mem_map.1 (mem_prints_dedup h)
  have hfirst := (first_of_mem_dedupFrom hkept).2
  rw [hprint] at hfirst
  exact ⟨kept, hkept, hprint, hfirst⟩

/-- A record is dropped for another one exactly if their payloads, run together, are the same bytes,
short of a collision; payloads that are cut at the same lengths are the same then. In the place of any
of some records such a one is kept, which does not come behind it. -/
theorem fingerprint_eq_iff_content (records : List Record) (r s : Record) :
    (dedup [r, s] = [r] ↔ r.fingerprint = s.fingerprint)
      ∧ (r.fingerprint = s.fingerprint
          ↔ r.content = s.content ∨ Sha256.Collide r.content s.content)
      ∧ (r.payloads = s.payloads
          ↔ r.content = s.content ∧ r.payloads.map List.length = s.payloads.map List.length)
      ∧ (r ∈ records → ∃ kept ∈ dedup records,
          (kept.content = r.content ∨ Sha256.Collide kept.content r.content)
            ∧ records.find? (fun x => x.fingerprint = r.fingerprint) = some kept) := by
  refine ⟨dedup_pair_iff, fingerprint_eq_iff, List.eq_iff_flatten_eq, fun h => ?_⟩
  obtain ⟨kept, hkept, hprint, hfirst⟩ := exists_kept h
  exact ⟨kept, hkept, fingerprint_eq_iff.1 hprint, hfirst⟩

/-- Two bytes in one object. -/
def whole : Record := ofPayload "x" [97, 98]

/-- The same two bytes in two objects. -/
def halves : Record := create 3 [] 0 0 [⟨"x", [97]⟩, ⟨"y", [98]⟩]

theorem fingerprint_eq_iff_content_halves :
    halves ∈ [whole, halves]
      ∧ ∃ kept ∈ dedup [whole, halves],
        (kept.content = halves.content ∨ Sha256.Collide kept.content halves.content)
          ∧ [whole, halves].find? (fun x => x.fingerprint = halves.fingerprint) = some kept := by
  have h : halves ∈ [whole, halves] := by simp
  exact ⟨h, (fingerprint_eq_iff_content [whole, halves] halves whole).2.2.2 h⟩

theorem payloads_halves : halves.payloads = [[97], [98]] := by
  have hsorted : halves.objects.Pairwise fun x y => Object.le x y := by decide +kernel
  rw [payloads, Object.payloads, List.mergeSort_of_pairwise hsorted]
  rfl

theorem payloads_whole : whole.payloads = [[97, 98]] := by
  rw [payloads, Object.payloads, List.mergeSort_of_pairwise (by decide +kernel)]
  rfl

/-- Two records with different payloads, of which the second is dropped though nothing collides. -/
theorem payloads_run_together :
    whole.fingerprint = halves.fingerprint ∧ dedup [whole, halves] = [whole]
      ∧ whole.payloads ≠ halves.payloads
      ∧ ¬ Sha256.Collide whole.content halves.content := by
  have hcontent : whole.content = halves.content := by
    rw [content, content, payloads_whole, payloads_halves]
    rfl
  have hprint := fingerprint_eq_iff.2 (.inl hcontent)
  refine ⟨hprint, dedup_pair_iff.2 hprint, ?_, fun h => h.1 hcontent⟩
  rw [payloads_whole, payloads_halves]
  decide

end Record

end CaseHarvest
