import CaseHarvest.Digest.Sha256
import CaseHarvest.Proofs.Bytes.Payload
/-!
A digest of bytes that come in portions. Main statement: a hasher that is given a message portion by
portion, and takes in whole blocks as soon as it has them, ends with the digest of the message
(`finish_updates`).
-/
namespace CaseHarvest.Sha256

open Bytes

/-- The state after the whole blocks at the front of some bytes. -/
def absorb (s : State) (bytes : Bytes) : State :=
  let words := bytes.words.map wordOf
  (blocks (words.length / 16) words).foldl compress s

/-- What is put behind a message of a length: a bit that is set, zeros, and the number of bits. -/
def padding (length : Nat) : Bytes :=
  let zeros := (119 - length % 64) % 64
  let bits := 8 * length
  let shifts : List Nat := [56, 48, 40, 32, 24, 16, 8, 0]
  let count : Bytes := shifts.map fun shift => UInt8.ofNat (bits >>> shift)
  0x80 :: List.replicate zeros 0 ++ count

/-- The digest of bytes that are not all there yet. -/
structure Hasher where
  state : State
  /-- Bytes that wait for the rest of their block. -/
  pending : Bytes
  /-- How many bytes there have been. -/
  length : Nat

namespace Hasher

def start : Hasher := ⟨initial, [], 0⟩

/-- Takes in what fills whole blocks and keeps the rest. -/
def update (h : Hasher) (portion : Bytes) : Hasher :=
  let bytes := h.pending ++ portion
  let full := 64 * (bytes.length / 64)
  ⟨absorb h.state (bytes.take full), bytes.drop full, h.length + portion.length⟩

def finish (h : Hasher) : Bytes :=
  (absorb h.state (h.pending ++ padding h.length)).words.flatMap wordBytes

end Hasher

theorem pad_eq (message : Bytes) : pad message = message ++ padding message.length := rfl

theorem digest_eq (message : Bytes) :
    digest message = (absorb initial (message ++ padding message.length)).words.flatMap wordBytes := by
  rw [← pad_eq]
  rfl

/-! ## Whole blocks -/

theorem blocks_append {xs : List UInt32} {count : Nat} (full : xs.length = 16 * count) (more : Nat)
    (ys : List UInt32) : blocks (count + more) (xs ++ ys) = blocks count xs ++ blocks more ys := by
  induction count generalizing xs with
  | zero =>
    obtain rfl := List.eq_nil_of_length_eq_zero full
    rw [Nat.zero_add]
    rfl
  | succ count ih =>
    have block : 16 ≤ xs.length := by omega
    have rest : (xs.drop 16).length = 16 * count := by
      rw [List.length_drop]
      omega
    rw [Nat.succ_add, blocks, List.take_append_of_le_length block,
      List.drop_append_of_le_length block, ih rest]
    rfl

/-- Whole blocks can be taken in before the bytes behind them are there. -/
theorem absorb_append {done : Bytes} (full : 64 ∣ done.length) (s : State) (bytes : Bytes) :
    absorb s (done ++ bytes) = absorb (absorb s done) bytes := by
  obtain ⟨count, length⟩ := full
  have width : (done.words.map wordOf).length = 16 * count := by
    rw [List.length_map, length_words, wordCount]
    omega
  have total : (16 * count + (bytes.words.map wordOf).length) / 16
      = count + (bytes.words.map wordOf).length / 16 := by omega
  have front : 16 * count / 16 = count := by omega
  have split := words_append (a := done) ⟨16 * count, by omega⟩ bytes
  simp only [absorb, split, List.map_append, List.length_append, width, total, front,
    blocks_append width, List.foldl_append]

/-! ## Portions -/

/-- A hasher has taken in the whole blocks of a message and keeps the rest. -/
structure Hasher.Holds (h : Hasher) (message : Bytes) : Prop where
  split : ∃ done, message = done ++ h.pending ∧ 64 ∣ done.length ∧ h.state = absorb initial done
  length : h.length = message.length

variable {h : Hasher} {message : Bytes}

theorem Hasher.holds_start : start.Holds [] := ⟨⟨[], rfl, ⟨0, rfl⟩, rfl⟩, rfl⟩

theorem Hasher.Holds.update (holds : h.Holds message) (portion : Bytes) :
    (h.update portion).Holds (message ++ portion) := by
  obtain ⟨⟨done, rfl, full, state⟩, length⟩ := holds
  refine ⟨⟨done ++ (h.pending ++ portion).take (64 * ((h.pending ++ portion).length / 64)), ?_, ?_, ?_⟩,
    ?_⟩
  · simp only [Hasher.update, List.append_assoc, List.take_append_drop]
  · have taken : 64 * ((h.pending ++ portion).length / 64) ≤ (h.pending ++ portion).length := by omega
    rw [List.length_append, List.length_take_of_le taken]
    exact Nat.dvd_add full ⟨_, rfl⟩
  · rw [absorb_append full, ← state]
    rfl
  · simp only [Hasher.update, length, List.length_append]

theorem Hasher.Holds.finish (holds : h.Holds message) : h.finish = digest message := by
  obtain ⟨⟨done, rfl, full, state⟩, length⟩ := holds
  rw [digest_eq, List.append_assoc, absorb_append full, ← state, ← length]
  rfl

theorem Hasher.Holds.updates (holds : h.Holds message) (portions : List Bytes) :
    (portions.foldl Hasher.update h).Holds (message ++ portions.flatten) := by
  induction portions generalizing h message with
  | nil =>
    rw [List.flatten_nil, List.append_nil]
    exact holds
  | cons portion portions ih =>
    rw [List.foldl_cons, List.flatten_cons, ← List.append_assoc]
    exact ih (holds.update portion)

/-- In what portions a message comes makes no difference to its digest. -/
theorem finish_updates (portions : List Bytes) :
    (portions.foldl Hasher.update .start).finish = digest portions.flatten :=
  (Hasher.holds_start.updates portions).finish

theorem length_digest (message : Bytes) : (digest message).length = 32 := rfl

end CaseHarvest.Sha256
