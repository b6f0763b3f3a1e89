import CaseHarvest.Record.ByteSource
/-!
How sources deliver bytes. Main statements: what is gathered or collected from a source depends on the
bytes that it delivers and on how it ends, but not on the pieces in which they come
(`Delivers.taken_gather`, `Delivers.taken_collect`); interruptions make no difference to it either, unless
they never end (`isInterrupted_ask_iff`, `Delivers.hesitant`).
-/
namespace CaseHarvest.ByteSource

variable {σ : Type} {src : ByteSource σ} {Holds : σ → Bytes → Prop} {ending : Option Fault}

/-! ## Asking again -/

/-- A question that is answered after some interruptions has that answer. -/
theorem ask_of_answered {limit again : Nat} {s : σ}
    (h : IsInterrupted (askWithin src.read src.resumed limit again s) = false) :
    src.ask limit s = askWithin src.read src.resumed limit again s := by
  have hask : IsInterrupted (src.ask limit s) = false := Bool.eq_false_iff.2 fun hinterrupted => by
    have hstill := src.forever limit s hinterrupted again
    rw [Nat.add_comm, askWithin_add h, h] at hstill
    cases hstill
  rw [← askWithin_add h (src.patience s), Nat.add_comm]
  exact (askWithin_add hask again).symm

/-- Asking only comes to an interruption if the question is interrupted however often it is asked. -/
theorem isInterrupted_ask_iff {limit : Nat} {s : σ} :
    IsInterrupted (src.ask limit s)
      ↔ ∀ again, IsInterrupted (askWithin src.read src.resumed limit again s) := by
  refine ⟨fun hask again => ?_, fun h => h (src.patience s)⟩
  cases hanswered : IsInterrupted (askWithin src.read src.resumed limit again s) with
  | true => rfl
  | false =>
    rw [ask_of_answered hanswered, hanswered] at hask
    cases hask

/-! ## Deliveries -/

/-- A source delivers bytes in pieces of any sizes and then ends, with an empty answer or with a
fault. `Holds s bytes` says that in the state `s` these bytes are still to come. -/
structure Delivers (src : ByteSource σ) (Holds : σ → Bytes → Prop) (ending : Option Fault) :
    Prop where
  piece : ∀ {s bytes limit}, Holds s bytes → bytes ≠ [] → limit ≠ 0 →
    ∃ chunk rest t, src.ask limit s = .ok (chunk, t) ∧ bytes = chunk ++ rest ∧ chunk ≠ []
      ∧ chunk.length ≤ limit ∧ Holds t rest
  ended : ending = none → ∀ {s limit}, Holds s [] → limit ≠ 0 →
    ∃ t, src.ask limit s = .ok ([], t) ∧ Holds t []
  broken : ∀ {fault}, ending = some fault → ∀ {s limit}, Holds s [] → limit ≠ 0 →
    src.ask limit s = .error fault

/-- The first bytes that are still to come have been taken: as many as needed, or all of them if
these are fewer and an empty answer follows. A fault only shows where more are needed. -/
def Taken (Holds : σ → Bytes → Prop) (ending : Option Fault) (need : Nat) (bytes : Bytes) :
    Except Fault (Bytes × σ) → Prop
  | .ok (given, t) =>
    given = bytes.take need ∧ Holds t (bytes.drop need) ∧ (need ≤ bytes.length ∨ ending = none)
  | .error fault => bytes.length < need ∧ ending = some fault

variable {s t : σ} {chunk rest bytes : Bytes} {fault : Fault} {need fuel size : Nat}

/-- What has been taken, with a piece in front of it. -/
def behind (chunk : Bytes) : Bytes × σ → Bytes × σ
  | (rest, t) => (chunk ++ rest, t)

theorem Taken.behind {outcome : Except Fault (Bytes × σ)}
    (h : Taken Holds ending (need - chunk.length) rest outcome) (hchunk : chunk.length ≤ need) :
    Taken Holds ending need (chunk ++ rest) (outcome.map (behind chunk)) := by
  obtain ⟨more, rfl⟩ := Nat.exists_eq_add_of_le hchunk
  rw [Nat.add_sub_cancel_left] at h
  cases outcome with
  | error fault =>
    obtain ⟨hshort, hending⟩ := h
    refine ⟨?_, hending⟩
    rw [List.length_append]
    omega
  | ok outcome =>
    obtain ⟨given, t⟩ := outcome
    obtain ⟨rfl, hholds, hend⟩ := h
    refine ⟨?_, ?_, ?_⟩
    · rw [List.take_length_add_append]
    · rwa [List.drop_length_add_append]
    · rw [List.length_append]
      exact hend.imp_left fun h => by omega

/-! ## Gathering -/

theorem gatherWithin_of_piece (hneed : need ≠ 0) (hask : src.ask need s = .ok (chunk, t))
    (hchunk : chunk ≠ []) :
    src.gatherWithin (fuel + 1) need s
      = (src.gatherWithin fuel (need - chunk.length) t).map (behind chunk) := by
  rw [gatherWithin, if_neg hneed, hask]
  show (if chunk.isEmpty then _ else _) = _
  rw [if_neg (by simpa using hchunk)]
  cases src.gatherWithin fuel (need - chunk.length) t <;> rfl

theorem gatherWithin_of_end (hneed : need ≠ 0) (hask : src.ask need s = .ok ([], t)) :
    src.gatherWithin (fuel + 1) need s = .ok ([], t) := by
  rw [gatherWithin, if_neg hneed, hask]
  rfl

theorem gatherWithin_of_fault (hneed : need ≠ 0) (hask : src.ask need s = .error fault) :
    src.gatherWithin (fuel + 1) need s = .error fault := by
  rw [gatherWithin, if_neg hneed, hask]
  rfl

theorem Delivers.taken_gatherWithin (h : Delivers src Holds ending) (hs : Holds s bytes)
    (hfuel : need ≤ fuel) : Taken Holds ending need bytes (src.gatherWithin fuel need s) := by
  induction fuel generalizing need s bytes with
  | zero =>
    obtain rfl : need = 0 := by omega
    exact ⟨rfl, hs, .inl (Nat.zero_le _)⟩
  | succ fuel ih =>
    by_cases hneed : need = 0
    · subst hneed
      exact ⟨rfl, hs, .inl (Nat.zero_le _)⟩
    by_cases hbytes : bytes = []
    · subst hbytes
      cases hending : ending with
      | none =>
        obtain ⟨t, hask, ht⟩ := h.ended hending hs hneed
        rw [gatherWithin_of_end hneed hask]
        exact ⟨by simp, by simpa using ht, .inr rfl⟩
      | some fault =>
        rw [gatherWithin_of_fault hneed (h.broken hending hs hneed)]
        exact ⟨Nat.pos_of_ne_zero hneed, rfl⟩
    · obtain ⟨chunk, rest, t, hask, rfl, hchunk, hlimit, ht⟩ := h.piece hs hbytes hneed
      have hpos : 0 < chunk.length := List.length_pos_iff.2 hchunk
      rw [gatherWithin_of_piece hneed hask hchunk]
      exact (ih ht (by omega)).behind hlimit

/-- Gathering takes the first bytes that are still to come. -/
theorem Delivers.taken_gather (h : Delivers src Holds ending) (hs : Holds s bytes) (need : Nat) :
    Taken Holds ending need bytes (src.gather need s) :=
  h.taken_gatherWithin hs (Nat.le_refl need)

/-! ## Awaiting the end -/

theorem drain_of_piece (hask : src.ask size s = .ok (chunk, t)) (hchunk : chunk ≠ []) :
    src.drain size (fuel + 1) s = (src.drain size fuel t).map (behind chunk) := by
  rw [drain, hask]
  show (if chunk.isEmpty then _ else _) = _
  rw [if_neg (by simpa using hchunk)]
  cases src.drain size fuel t <;> rfl

theorem drain_of_end (hask : src.ask size s = .ok ([], t)) :
    src.drain size (fuel + 1) s = .ok ([], t) := by
  rw [drain, hask]
  rfl

theorem drain_of_fault (hask : src.ask size s = .error fault) :
    src.drain size (fuel + 1) s = .error fault := by
  rw [drain, hask]
  rfl

/-- Who awaits the end takes all bytes and needs one more than there is. -/
theorem Delivers.taken_drain (h : Delivers src Holds ending) (hs : Holds s bytes)
    (hsize : size ≠ 0) (hfuel : bytes.length < fuel) (hneed : bytes.length < need) :
    Taken Holds ending need bytes (src.drain size fuel s) := by
  induction fuel generalizing need s bytes with
  | zero => cases hfuel
  | succ fuel ih =>
    by_cases hbytes : bytes = []
    · subst hbytes
      cases hending : ending with
      | none =>
        obtain ⟨t, hask, ht⟩ := h.ended hending hs hsize
        rw [drain_of_end hask]
        exact ⟨by simp, by simpa using ht, .inr rfl⟩
      | some fault =>
        rw [drain_of_fault (h.broken hending hs hsize)]
        exact ⟨hneed, rfl⟩
    · obtain ⟨chunk, rest, t, hask, rfl, hchunk, -, ht⟩ := h.piece hs hbytes hsize
      have hpos : 0 < chunk.length := List.length_pos_iff.2 hchunk
      rw [List.length_append] at hfuel hneed
      rw [drain_of_piece hask hchunk]
      exact (ih ht (by omega) (by omega)).behind (by omega)

/-! ## A part of a source -/

theorem upTo_ask_of_left {left limit : Nat} (hleft : left ≠ 0) :
    src.upTo.ask limit (left, s)
      = (src.ask (min limit left) s).map fun (chunk, t) => (chunk, (left - chunk.length, t)) :=
  askWithin_readPart_of_left src hleft limit (src.patience s) s

theorem upTo_ask_of_none_left {limit : Nat} : src.upTo.ask limit (0, s) = .ok ([], (0, s)) :=
  askWithin_of_answered (src.patience s) rfl

/-- With enough bytes to come, a part of a source ends by itself and leaves those behind it. -/
theorem Delivers.upTo_of_enough (h : Delivers src Holds ending) (tail : Bytes) :
    Delivers src.upTo (fun p part => p.1 = part.length ∧ Holds p.2 (part ++ tail)) none where
  piece := by
    rintro ⟨left, s⟩ part limit ⟨rfl, hs⟩ hpart hlimit
    have hleft : part.length ≠ 0 := by simpa using hpart
    obtain ⟨chunk, rest, t, hask, hsplit, hchunk, hsize, ht⟩ :=
      h.piece hs (by simp [hpart]) (by omega : min limit part.length ≠ 0)
    obtain ⟨more, rfl, rfl⟩ : ∃ more, part = chunk ++ more ∧ rest = more ++ tail := by
      rcases List.append_eq_append_iff.1 hsplit with ⟨extra, rfl, rfl⟩ | ⟨more, rfl, rfl⟩
      · obtain rfl : extra = [] := by
          rw [List.length_append] at hsize
          exact List.eq_nil_of_length_eq_zero (by omega)
        exact ⟨[], by simp, rfl⟩
      · exact ⟨more, rfl, rfl⟩
    refine ⟨chunk, more, (more.length, t), ?_, rfl, hchunk, by omega, rfl, ht⟩
    rw [upTo_ask_of_left hleft, hask, List.length_append]
    simp [Except.map]
  ended := by
    rintro - ⟨left, s⟩ limit ⟨rfl, hs⟩ -
    exact ⟨(0, s), upTo_ask_of_none_left, rfl, hs⟩
  broken := nofun

/-- With too few bytes to come, a part of a source ends as the source does. -/
theorem Delivers.upTo_of_short (h : Delivers src Holds ending) :
    Delivers src.upTo (fun p part => part.length < p.1 ∧ Holds p.2 part) ending where
  piece := by
    rintro ⟨left, s⟩ part limit ⟨hleft, hs⟩ hpart hlimit
    obtain ⟨chunk, rest, t, hask, rfl, hchunk, hsize, ht⟩ :=
      h.piece hs hpart (by omega : min limit left ≠ 0)
    rw [List.length_append] at hleft
    refine ⟨chunk, rest, (left - chunk.length, t), ?_, rfl, hchunk, by omega, by omega, ht⟩
    rw [upTo_ask_of_left (by omega), hask]
    rfl
  ended := by
    rintro hending ⟨left, s⟩ limit ⟨hleft, hs⟩ hlimit
    have hpos : 0 < left := hleft
    obtain ⟨t, hask, ht⟩ := h.ended hending hs (by omega : min limit left ≠ 0)
    refine ⟨(left, t), ?_, hpos, ht⟩
    rw [upTo_ask_of_left (by omega), hask]
    rfl
  broken := by
    rintro fault hending ⟨left, s⟩ limit ⟨hleft, hs⟩ hlimit
    have hpos : 0 < left := hleft
    rw [upTo_ask_of_left (by omega), h.broken hending hs (by omega : min limit left ≠ 0)]
    rfl

/-- Collecting takes the first bytes that are still to come. -/
theorem Delivers.taken_collect (h : Delivers src Holds ending) (hs : Holds s bytes) (most : Nat) :
    Taken Holds ending most bytes (src.collect most s) := by
  have hcollect : src.collect most s
      = (src.upTo.drain room (most + 1) (most, s)).map fun outcome => (outcome.1, outcome.2.2) := by
    unfold collect
    cases src.upTo.drain room (most + 1) (most, s) <;> rfl
  rw [hcollect]
  by_cases henough : most ≤ bytes.length
  · have hpart : most = (bytes.take most).length := (List.length_take_of_le henough).symm
    have htaken := (h.upTo_of_enough (bytes.drop most)).taken_drain (s := (most, s))
      ⟨hpart, by rwa [List.take_append_drop]⟩ (by decide : room ≠ 0)
      (by omega : _ < most + 1) (by omega : _ < most + 1)
    cases hdrain : src.upTo.drain room (most + 1) (most, s) with
    | error fault =>
      rw [hdrain] at htaken
      cases htaken.2
    | ok outcome =>
      obtain ⟨given, left, t⟩ := outcome
      rw [hdrain] at htaken
      obtain ⟨rfl, ⟨-, ht⟩, -⟩ := htaken
      rw [List.drop_eq_nil_of_le (by omega), List.nil_append] at ht
      exact ⟨List.take_of_length_le (by omega), ht, .inl henough⟩
  · have hshort : bytes.length < most := Nat.lt_of_not_le henough
    have htaken := h.upTo_of_short.taken_drain (s := (most, s)) ⟨hshort, hs⟩ (by decide : room ≠ 0)
      (by omega : _ < most + 1) hshort
    cases hdrain : src.upTo.drain room (most + 1) (most, s) with
    | error fault =>
      rw [hdrain] at htaken
      exact htaken
    | ok outcome =>
      obtain ⟨given, left, t⟩ := outcome
      rw [hdrain] at htaken
      obtain ⟨hgiven, ⟨-, ht⟩, hend⟩ := htaken
      exact ⟨hgiven, ht, hend⟩

/-! ## Sources there are -/

theorem ask_memory (limit : Nat) (bytes : Bytes) :
    memory.ask limit bytes = .ok (bytes.take limit, bytes.drop limit) := rfl

/-- What is in memory is delivered as far as it is asked for, and then ends. -/
theorem delivers_memory : Delivers memory Eq none where
  piece := by
    rintro s bytes limit rfl hbytes hlimit
    refine ⟨s.take limit, s.drop limit, s.drop limit, rfl, (List.take_append_drop limit s).symm, ?_,
      List.length_take_le _ _, rfl⟩
    simpa [hlimit] using hbytes
  ended := by
    rintro - s limit rfl -
    exact ⟨[], by simp [ask_memory], rfl⟩
  broken := nofun

/-- The bytes of a stream before the offset from which on it gives the fault. -/
def within (failAt : Option Nat) (s : Bytes) : Bytes := failAt.elim s s.take

/-- How a stream ends: with the fault, if it has bytes up to the offset of the fault. -/
def endingOf (failAt : Option Nat) (fault : Fault) (s : Bytes) : Option Fault :=
  failAt.bind fun f => if s.length < f then none else some fault

/-- A stream of some bytes, of which it has given as many as its offset tells. -/
structure Stream.IsOf (failAt : Option Nat) (s : Bytes) (st : Stream) (bytes : Bytes) : Prop where
  rest : st.rest = s.drop st.offset
  bound : st.offset ≤ (within failAt s).length
  left : bytes = (within failAt s).drop st.offset

theorem isOf_start (failAt : Option Nat) (s : Bytes) :
    Stream.IsOf failAt s { rest := s } (within failAt s) := ⟨rfl, Nat.zero_le _, rfl⟩

theorem Stream.IsOf.offset_eq {failAt : Option Nat} {s : Bytes} {st : Stream}
    (h : Stream.IsOf failAt s st bytes) : st.offset = (within failAt s).length - bytes.length := by
  have hbound := h.bound
  rw [h.left, List.length_drop]
  omega

theorem drop_length_take (n : Nat) (l : Bytes) : l.drop (l.take n).length = l.drop n := by
  rw [List.drop_eq_drop_iff, List.length_take]
  omega

/-- An answer moves a stream on by the bytes that it holds. -/
theorem Stream.IsOf.deliver {failAt : Option Nat} {s : Bytes} {st : Stream} {n : Nat}
    (h : Stream.IsOf failAt s st bytes) (hn : st.rest.take n = bytes.take n) :
    ∃ t, piecewise.deliver n st = .ok (bytes.take n, t)
      ∧ Stream.IsOf failAt s t (bytes.drop n) := by
  refine ⟨⟨st.rest.drop n, st.offset + (st.rest.take n).length⟩, by rw [← hn]; rfl, ?_, ?_, ?_⟩
  · rw [← List.drop_drop, ← h.rest, drop_length_take]
  · have hbound := h.bound
    rw [hn, h.left, List.length_take, List.length_drop]
    simp only
    omega
  · rw [hn, ← List.drop_drop, ← h.left, drop_length_take]

theorem isOf_nil_iff {failAt : Option Nat} {s : Bytes} {st : Stream}
    (h : Stream.IsOf failAt s st bytes) : bytes = [] ↔ st.offset = (within failAt s).length := by
  have hbound := h.bound
  rw [h.left, List.drop_eq_nil_iff]
  omega

/-- Before the offset of its fault a stream answers with some of its bytes, if there are any. -/
theorem read_piecewise {failAt : Option Nat} (fault : Fault) {s : Bytes} {st : Stream}
    {c limit : Nat} (h : Stream.IsOf failAt s st bytes) (hc : c ≠ 0) (hlimit : limit ≠ 0)
    (hbefore : ∀ f, failAt = some f → st.offset < f) :
    ∃ n, n ≠ 0 ∧ n ≤ limit
      ∧ (piecewise (some c) failAt fault).ask limit st = piecewise.deliver n st
      ∧ st.rest.take n = bytes.take n := by
  cases failAt with
  | none =>
    refine ⟨min c limit, by omega, by omega, rfl, ?_⟩
    rw [h.rest, h.left]
    rfl
  | some f =>
    have hf : st.offset < f := hbefore f rfl
    refine ⟨min (min c limit) (f - st.offset), by omega, by omega, if_neg (by omega), ?_⟩
    rw [h.rest, h.left]
    show _ = ((s.take f).drop st.offset).take _
    rw [List.drop_take, List.take_take]
    congr 1
    omega

/-- A stream in pieces delivers the bytes before the offset of its fault. -/
theorem delivers_piecewise (failAt : Option Nat) (fault : Fault) (s : Bytes) {c : Nat}
    (hc : c ≠ 0) :
    Delivers (piecewise (some c) failAt fault) (Stream.IsOf failAt s)
      (endingOf failAt fault s) where
  piece := by
    intro st bytes limit h hbytes hlimit
    have hoffset : st.offset ≠ (within failAt s).length := mt (isOf_nil_iff h).2 hbytes
    have hbefore : ∀ f, failAt = some f → st.offset < f := by
      rintro f rfl
      have hbound : st.offset ≤ (s.take f).length := h.bound
      have hne : st.offset ≠ (s.take f).length := hoffset
      rw [List.length_take] at hbound hne
      omega
    obtain ⟨n, hn, hsize, hask, htake⟩ := read_piecewise fault h hc hlimit hbefore
    obtain ⟨t, hdeliver, ht⟩ := h.deliver htake
    refine ⟨bytes.take n, bytes.drop n, t, hask.trans hdeliver,
      (List.take_append_drop n bytes).symm, by simp [hn, hbytes], ?_, ht⟩
    rw [List.length_take]
    omega
  ended := by
    intro hending st limit h hlimit
    have hoffset := (isOf_nil_iff h).1 rfl
    have hbefore : ∀ f, failAt = some f → st.offset < f := by
      rintro f rfl
      have hend : st.offset = (s.take f).length := hoffset
      have hshort : s.length < f := Nat.lt_of_not_le fun hlong => by
        simp [endingOf, Nat.not_lt.2 hlong] at hending
      rw [List.length_take] at hend
      omega
    obtain ⟨n, -, -, hask, htake⟩ := read_piecewise fault h hc hlimit hbefore
    obtain ⟨t, hdeliver, ht⟩ := h.deliver htake
    rw [List.drop_nil] at ht
    rw [List.take_nil] at hdeliver
    exact ⟨t, hask.trans hdeliver, ht⟩
  broken := by
    intro fault' hending st limit h _
    have hoffset := (isOf_nil_iff h).1 rfl
    cases failAt with
    | none => cases hending
    | some f =>
      have hend : st.offset = (s.take f).length := hoffset
      rw [List.length_take] at hend
      by_cases hshort : s.length < f
      · simp [endingOf, hshort] at hending
      · obtain rfl : fault = fault' := by simpa [endingOf, hshort] using hending
        exact if_pos (by omega)

/-! ## Interruptions -/

/-- A question to a source that is interrupted so often before each answer. The state also tells how many
interruptions are still to come. -/
def hesitantRead (src : ByteSource σ) (times : Nat) (reason : String) (limit : Nat) :
    Nat × σ → Except Fault (Bytes × (Nat × σ))
  | (0, s) => (src.read limit s).map fun (chunk, t) => (chunk, (times, t))
  | (_ + 1, _) => .error (.interrupted reason)

def hesitantResumed (src : ByteSource σ) : Nat × σ → Nat × σ
  | (0, s) => (0, src.resumed s)
  | (pauses + 1, s) => (pauses, s)

/-- With the patience for all interruptions that are still to come, the answer is the source's own. -/
theorem askWithin_hesitantRead (src : ByteSource σ) (times : Nat) (reason : String)
    (limit pauses again : Nat) (s : σ) :
    askWithin (src.hesitantRead times reason) src.hesitantResumed limit (pauses + again) (pauses, s)
      = (askWithin src.read src.resumed limit again s).map fun (chunk, t) => (chunk, (times, t)) := by
  induction pauses with
  | zero =>
    rw [Nat.zero_add]
    induction again generalizing s with
    | zero => rfl
    | succ again ih =>
      cases hread : IsInterrupted (src.read limit s) with
      | true =>
        rw [askWithin_of_interrupted again hread, askWithin_of_interrupted again]
        · exact ih (src.resumed s)
        · exact (isInterrupted_map ..).trans hread
      | false =>
        rw [askWithin_of_answered _ hread, askWithin_of_answered]
        · rfl
        · exact (isInterrupted_map ..).trans hread
  | succ pauses ih =>
    rw [Nat.succ_add, Nat.succ_eq_add_one, askWithin_of_interrupted _ rfl]
    exact ih

/-- A source that is interrupted so many times before each answer. -/
def hesitant (src : ByteSource σ) (times : Nat) (reason : String) : ByteSource (Nat × σ) where
  read := src.hesitantRead times reason
  resumed := src.hesitantResumed
  patience state := state.1 + src.patience state.2
  forever := by
    rintro limit ⟨pauses, s⟩ h more
    rw [Nat.add_assoc, askWithin_hesitantRead, isInterrupted_map]
    rw [askWithin_hesitantRead, isInterrupted_map] at h
    exact src.forever limit s h more

theorem ask_hesitant (src : ByteSource σ) (times : Nat) (reason : String) (limit pauses : Nat) (s : σ) :
    (src.hesitant times reason).ask limit (pauses, s)
      = (src.ask limit s).map fun (chunk, t) => (chunk, (times, t)) :=
  askWithin_hesitantRead src times reason limit pauses (src.patience s) s

/-- Interruptions make no difference to what is delivered. -/
theorem Delivers.hesitant (h : Delivers src Holds ending) (times : Nat) (reason : String) :
    Delivers (src.hesitant times reason) (fun state bytes => Holds state.2 bytes) ending where
  piece := by
    rintro ⟨pauses, s⟩ bytes limit hs hbytes hlimit
    obtain ⟨chunk, rest, t, hask, hsplit, hchunk, hsize, ht⟩ := h.piece hs hbytes hlimit
    exact ⟨chunk, rest, (times, t), by rw [ask_hesitant, hask]; rfl, hsplit, hchunk, hsize, ht⟩
  ended := by
    rintro hending ⟨pauses, s⟩ limit hs hlimit
    obtain ⟨t, hask, ht⟩ := h.ended hending hs hlimit
    exact ⟨(times, t), by rw [ask_hesitant, hask]; rfl, ht⟩
  broken := by
    rintro fault hending ⟨pauses, s⟩ limit hs hlimit
    rw [ask_hesitant, h.broken hending hs hlimit]
    rfl

end CaseHarvest.ByteSource
