import CaseHarvest.Bytes
import CaseHarvest.Files.Fault
/-!
Where the bytes of a record come from. A source is asked for at most so many bytes and gives some
of the next ones; an empty answer means that there are no more. A question that is interrupted is
asked again.
-/
namespace CaseHarvest

/-- The answer is that the question was interrupted. -/
def IsInterrupted {α : Type} : Except Fault α → Bool
  | .error (.interrupted _) => true
  | _ => false

/-- The answer to a question that is asked again after an interruption, but not more than so many
times. -/
def askWithin {σ : Type} (read : Nat → σ → Except Fault (Bytes × σ)) (resumed : σ → σ) (limit : Nat) :
    (again : Nat) → σ → Except Fault (Bytes × σ)
  | 0, s => read limit s
  | again + 1, s =>
    if IsInterrupted (read limit s) then askWithin read resumed limit again (resumed s) else read limit s

structure ByteSource (σ : Type) where
  read : Nat → σ → Except Fault (Bytes × σ)
  /-- The source after an interruption. -/
  resumed : σ → σ := id
  /-- How often a question has to be asked again at most, if it is ever answered. -/
  patience : σ → Nat := fun _ => 0
  /-- Whoever is still interrupted then is interrupted for ever. -/
  forever : ∀ limit s, IsInterrupted (askWithin read resumed limit (patience s) s) →
    ∀ more, IsInterrupted (askWithin read resumed limit (patience s + more) s)

section Asking

variable {σ : Type} {read : Nat → σ → Except Fault (Bytes × σ)} {resumed : σ → σ} {limit : Nat} {s : σ}

theorem askWithin_of_interrupted (again : Nat) (h : IsInterrupted (read limit s)) :
    askWithin read resumed limit (again + 1) s = askWithin read resumed limit again (resumed s) :=
  if_pos h

theorem askWithin_of_answered (again : Nat) (h : IsInterrupted (read limit s) = false) :
    askWithin read resumed limit again s = read limit s := by
  cases again with
  | zero => rfl
  | succ again => exact if_neg (by simp [h])

/-- A source that is the same after an interruption answers always or never. -/
theorem askWithin_id (again : Nat) (s : σ) : askWithin read id limit again s = read limit s := by
  induction again with
  | zero => rfl
  | succ again ih =>
    unfold askWithin
    split
    · exact ih
    · rfl

theorem forever_of_id (limit : Nat) (s : σ) (h : IsInterrupted (askWithin read id limit 0 s)) (more : Nat) :
    IsInterrupted (askWithin read id limit (0 + more) s) := by
  rwa [askWithin_id] at h ⊢

/-- What has been answered stays the answer, however much more patience there is. -/
theorem askWithin_add {again : Nat} (h : IsInterrupted (askWithin read resumed limit again s) = false)
    (more : Nat) :
    askWithin read resumed limit (again + more) s = askWithin read resumed limit again s := by
  induction again generalizing s with
  | zero => exact askWithin_of_answered (0 + more) h
  | succ again ih =>
    cases hread : IsInterrupted (read limit s) with
    | true =>
      rw [askWithin_of_interrupted again hread] at h
      rw [Nat.succ_add, Nat.succ_eq_add_one, askWithin_of_interrupted _ hread,
        askWithin_of_interrupted again hread, ih h]
    | false => rw [askWithin_of_answered _ hread, askWithin_of_answered _ hread]

end Asking

namespace ByteSource

variable {σ : Type}

/-- The answer to a question, which is asked again as often as it is interrupted. A question that is
interrupted for ever has none; it is given as the interruption, which is no answer otherwise. -/
def ask (src : ByteSource σ) (limit : Nat) (s : σ) : Except Fault (Bytes × σ) :=
  askWithin src.read src.resumed limit (src.patience s) s

/-- Asks until `need` bytes are there or the source ends; each answer brings a byte, so `need`
questions are enough. -/
def gatherWithin (src : ByteSource σ) : Nat → Nat → σ → Except Fault (Bytes × σ)
  | 0, _, s => .ok ([], s)
  | fuel + 1, need, s =>
    if need = 0 then .ok ([], s)
    else do
      let (chunk, s) ← src.ask need s
      if chunk.isEmpty then .ok ([], s)
      else
        let (rest, s) ← src.gatherWithin fuel (need - chunk.length) s
        .ok (chunk ++ rest, s)

def gather (src : ByteSource σ) (need : Nat) (s : σ) : Except Fault (Bytes × σ) :=
  src.gatherWithin need need s

/-- Exactly `need` bytes; a source that ends before them makes a fault. -/
def fill (src : ByteSource σ) (need : Nat) (s : σ) : Except Fault (Bytes × σ) := do
  let (bytes, s) ← src.gather need s
  if bytes.length = need then .ok (bytes, s) else .error .unfilled

/-- A question to a source that ends after so many bytes of another one. From then on the other one is
not asked any more. -/
def readPart (src : ByteSource σ) (limit : Nat) : Nat × σ → Except Fault (Bytes × (Nat × σ))
  | (left, s) =>
    if left = 0 then .ok ([], (left, s))
    else (src.read (min limit left) s).map fun (chunk, t) => (chunk, (left - chunk.length, t))

/-- The part of a source after an interruption. -/
def resumedPart (src : ByteSource σ) : Nat × σ → Nat × σ
  | (left, s) => (left, src.resumed s)

theorem isInterrupted_map {α β : Type} (x : Except Fault α) (f : α → β) :
    IsInterrupted (x.map f) = IsInterrupted x := by
  cases x with
  | ok a => rfl
  | error fault => cases fault <;> rfl

theorem askWithin_readPart_of_left (src : ByteSource σ) {left : Nat} (hleft : left ≠ 0) (limit again : Nat)
    (s : σ) :
    askWithin src.readPart src.resumedPart limit again (left, s)
      = (askWithin src.read src.resumed (min limit left) again s).map
          fun (chunk, t) => (chunk, (left - chunk.length, t)) := by
  have hread (s : σ) : src.readPart limit (left, s) = (src.read (min limit left) s).map
      fun (chunk, t) => (chunk, (left - chunk.length, t)) := if_neg hleft
  have hsame (s : σ) : IsInterrupted (src.readPart limit (left, s))
      = IsInterrupted (src.read (min limit left) s) := by rw [hread, isInterrupted_map]
  induction again generalizing s with
  | zero => exact hread s
  | succ again ih =>
    unfold askWithin
    rw [hsame, hread]
    split
    · exact ih (src.resumed s)
    · rfl

/-- A source that ends after so many bytes of another one. The state also tells how many bytes are
left. -/
def upTo (src : ByteSource σ) : ByteSource (Nat × σ) where
  read := src.readPart
  resumed := src.resumedPart
  patience part := src.patience part.2
  forever := by
    rintro limit ⟨left, s⟩ h more
    by_cases hleft : left = 0
    · subst hleft
      have hanswered : IsInterrupted (src.readPart limit (0, s)) = false := rfl
      rw [askWithin_of_answered _ hanswered, hanswered] at h
      cases h
    · rw [askWithin_readPart_of_left src hleft, isInterrupted_map] at h ⊢
      exact src.forever (min limit left) s h more

/-- Asks for `room` bytes at a time until an empty answer comes, as often as there is fuel. -/
def drain (src : ByteSource σ) (room : Nat) : (fuel : Nat) → σ → Except Fault (Bytes × σ)
  | 0, s => .ok ([], s)
  | fuel + 1, s => do
    let (chunk, s) ← src.ask room s
    if chunk.isEmpty then .ok ([], s)
    else
      let (rest, s) ← src.drain room fuel s
      .ok (chunk ++ rest, s)

/-- How many bytes are asked for at a time where the end of a source is awaited. -/
def room : Nat := 0x2000

/-- At most so many bytes, by awaiting the end of a source that ends after them. An answer brings a
byte or is the last one. -/
def collect (src : ByteSource σ) (most : Nat) (s : σ) : Except Fault (Bytes × σ) := do
  let (bytes, (_, s)) ← src.upTo.drain room (most + 1) (most, s)
  .ok (bytes, s)

/-- Bytes held in memory: the state is what has not been read yet. -/
def memory : ByteSource Bytes where
  read limit rest := .ok (rest.take limit, rest.drop limit)
  forever := forever_of_id

/-- A stream under way. -/
structure Stream where
  rest : Bytes
  offset : Nat := 0

/-- A stream that gives at most `chunk` bytes an answer and, from the offset `failAt` on, only the
fault. The offset is looked at before the end of the data. -/
def piecewise (chunk : Option Nat) (failAt : Option Nat) (fault : Fault) : ByteSource Stream where
  read limit s :=
    match failAt with
    | none => deliver ((chunk.getD limit).min limit) s
    | some f =>
      if f ≤ s.offset then .error fault
      else deliver (((chunk.getD limit).min limit).min (f - s.offset)) s
  forever := forever_of_id
where
  deliver (n : Nat) (s : Stream) : Except Fault (Bytes × Stream) :=
    let given := s.rest.take n
    .ok (given, { rest := s.rest.drop n, offset := s.offset + given.length })

end ByteSource

end CaseHarvest
