import CaseHarvest.Proofs.Bytes.Signed
/-!
A payload in words and without its trailing zeros. Main statements: the numbers of a payload's words
and its length determine it (`writeWords_words`), what the numbers alone leave open is the width of
the last word (`signed_words_eq_iff`), and the bytes up to the last one that is not zero leave open
how many zeros follow (`trimZeros_eq_iff`).
-/
namespace CaseHarvest.Bytes

variable {a b bytes word kept : Bytes}

/-! ## Words -/

theorem words_of_short (nonempty : word ≠ []) (short : word.length ≤ 4) : words word = [word] := by
  match word, nonempty, short with
  | [_], _, _ => rfl
  | [_, _], _, _ => rfl
  | [_, _, _], _, _ => rfl
  | [_, _, _, _], _, _ => rfl

theorem words_append_of_word (full : word.length = 4) (rest : Bytes) :
    words (word ++ rest) = word :: words rest := by
  match word, full with
  | [_, _, _, _], _ => rfl

/-- The first word, and the words of what is left. -/
theorem words_of_ne_nil (nonempty : bytes ≠ []) :
    words bytes = bytes.take 4 :: words (bytes.drop 4) := by
  by_cases short : bytes.length ≤ 4
  · rw [words_of_short nonempty short, List.take_of_length_le short, List.drop_eq_nil_of_le short]
    rfl
  · have full : (bytes.take 4).length = 4 := List.length_take_of_le (by omega)
    rw [← words_append_of_word full, List.take_append_drop]

/-- Bytes that fill their words can be cut off. -/
theorem words_append (full : 4 ∣ a.length) (b : Bytes) : words (a ++ b) = words a ++ words b := by
  obtain ⟨count, length⟩ := full
  induction count generalizing a with
  | zero =>
    obtain rfl := List.eq_nil_of_length_eq_zero length
    rfl
  | succ count ih =>
    have first : (a.take 4).length = 4 := List.length_take_of_le (by omega)
    have rest : (a.drop 4).length = 4 * count := by
      rw [List.length_drop]
      omega
    rw [← List.take_append_drop 4 a, List.append_assoc, words_append_of_word first,
      words_append_of_word first, ih rest, List.cons_append]

/-- How many words bytes take, the last one counting as one however short it is. -/
def wordCount (bytes : Bytes) : Nat := (bytes.length + 3) / 4

theorem getElem?_words (bytes : Bytes) (k : Nat) : (words bytes)[k]?
    = if k < wordCount bytes then some ((bytes.drop (4 * k)).take 4) else none := by
  induction k generalizing bytes with
  | zero =>
    by_cases h : bytes = []
    · subst h
      rfl
    · have nonempty := List.length_pos_iff.2 h
      rw [words_of_ne_nil h, if_pos (by unfold wordCount; omega)]
      rfl
  | succ k ih =>
    by_cases h : bytes = []
    · subst h
      simp [words, wordCount]
    · have nonempty := List.length_pos_iff.2 h
      have fewer : k < wordCount (bytes.drop 4) ↔ k + 1 < wordCount bytes := by
        unfold wordCount
        rw [List.length_drop]
        omega
      rw [words_of_ne_nil h, List.getElem?_cons_succ, ih, List.drop_drop]
      simp only [fewer, Nat.mul_succ, Nat.add_comm]

@[simp] theorem length_words (bytes : Bytes) : (words bytes).length = wordCount bytes := by
  have here (k : Nat) : (words bytes).length ≤ k ↔ wordCount bytes ≤ k := by
    rw [← List.getElem?_eq_none_iff, getElem?_words]
    by_cases h : k < wordCount bytes
    · simp [h]
    · simp [h, Nat.le_of_not_lt h]
  exact Nat.le_antisymm ((here _).2 (Nat.le_refl _)) ((here _).1 (Nat.le_refl _))

theorem length_of_mem_words (h : word ∈ words bytes) : 0 < word.length ∧ word.length ≤ 4 := by
  obtain ⟨k, hk⟩ := List.mem_iff_getElem?.1 h
  rw [getElem?_words] at hk
  split at hk
  · rename_i here
    cases hk
    unfold wordCount at here
    rw [List.length_take, List.length_drop]
    omega
  · cases hk

/-! ## Words as numbers -/

/-- So many bytes of numbers, each as a word; the last word has what is left. -/
def writeWords : (length : Nat) → List Int → Bytes
  | _, [] => []
  | length, n :: rest => littleEndian (min 4 length) n ++ writeWords (length - 4) rest

/-- The numbers of the words, written back, are the bytes. -/
theorem writeWords_words (bytes : Bytes) :
    writeWords bytes.length ((words bytes).map signed) = bytes := by
  by_cases h : bytes = []
  · subst h
    rfl
  · have some := List.length_pos_iff.2 h
    have rest := writeWords_words (bytes.drop 4)
    rw [List.length_drop] at rest
    rw [words_of_ne_nil h, List.map_cons, writeWords, ← List.length_take,
      (denotes_signed (bytes.take 4)).written, rest, List.take_append_drop]
termination_by bytes.length
decreasing_by simp only [List.length_drop]; omega

theorem eq_of_signed_words (length : a.length = b.length)
    (numbers : (words a).map signed = (words b).map signed) : a = b := by
  rw [← writeWords_words a, ← writeWords_words b, length, numbers]

/-- The bytes in front of the last word. -/
def beforeLastWord (bytes : Bytes) : Bytes := bytes.take (4 * (wordCount bytes - 1))

/-- The last word, which may be short. -/
def lastWord (bytes : Bytes) : Bytes := bytes.drop (4 * (wordCount bytes - 1))

theorem length_beforeLastWord (bytes : Bytes) :
    (beforeLastWord bytes).length = 4 * (wordCount bytes - 1) := by
  apply List.length_take_of_le
  unfold wordCount
  omega

theorem words_eq_append (nonempty : bytes ≠ []) :
    words bytes = words (beforeLastWord bytes) ++ [lastWord bytes] := by
  have some := List.length_pos_iff.2 nonempty
  have last : 0 < (lastWord bytes).length ∧ (lastWord bytes).length ≤ 4 := by
    unfold lastWord wordCount
    rw [List.length_drop]
    omega
  have full : 4 ∣ (beforeLastWord bytes).length := ⟨_, length_beforeLastWord bytes⟩
  rw [← words_of_short (List.length_pos_iff.1 last.1) last.2, ← words_append full, beforeLastWord,
    lastWord, List.take_append_drop]

/-- Payloads that have as many words, the same bytes in front of the last one, and a last one of the
same number. -/
structure SameWords (a b : Bytes) : Prop where
  count : wordCount a = wordCount b
  before : beforeLastWord a = beforeLastWord b
  last : ∃ n, Denotes (lastWord a) n ∧ Denotes (lastWord b) n

theorem wordCount_eq_zero_iff : wordCount bytes = 0 ↔ bytes = [] := by
  rw [← List.length_eq_zero_iff, wordCount]
  omega

theorem eq_nil_iff_of_count (count : wordCount a = wordCount b) : a = [] ↔ b = [] := by
  rw [← wordCount_eq_zero_iff, count, wordCount_eq_zero_iff]

/-- What the numbers of the words leave open is the width of the last one. -/
theorem signed_words_eq_iff : (words a).map signed = (words b).map signed ↔ SameWords a b := by
  constructor
  · intro numbers
    have count : wordCount a = wordCount b := by
      have lengths := congrArg List.length numbers
      simpa using lengths
    have length : (beforeLastWord a).length = (beforeLastWord b).length := by
      rw [length_beforeLastWord, length_beforeLastWord, count]
    by_cases ha : a = []
    · obtain rfl := (eq_nil_iff_of_count count).1 ha
      subst ha
      exact ⟨rfl, rfl, 0, denotes_iff.2 rfl, denotes_iff.2 rfl⟩
    · have hb : b ≠ [] := mt (eq_nil_iff_of_count count).2 ha
      rw [words_eq_append ha, words_eq_append hb, List.map_append, List.map_append] at numbers
      obtain ⟨before, last⟩ := List.append_inj' numbers rfl
      exact ⟨count, eq_of_signed_words length before, signed (lastWord a), denotes_signed _,
        denotes_iff.2 (List.singleton_inj.1 last).symm⟩
  · rintro ⟨count, before, n, ha, hb⟩
    by_cases h : a = []
    · rw [h, (eq_nil_iff_of_count count).1 h]
    · have h' : b ≠ [] := mt (eq_nil_iff_of_count count).2 h
      rw [words_eq_append h, words_eq_append h', before, List.map_append, List.map_append,
        List.map_singleton, List.map_singleton, denotes_iff.1 ha, denotes_iff.1 hb]

theorem SameWords.eq_of_length (h : SameWords a b) (length : a.length = b.length) : a = b :=
  eq_of_signed_words length (signed_words_eq_iff.2 h)

/-! ## Trailing zeros -/

/-- The longest beginning of bytes that does not end in a zero. -/
structure IsTrimmed (bytes kept : Bytes) : Prop where
  start : kept <+: bytes
  ending : kept.getLast? ≠ some 0
  longest : ∀ other : Bytes, other <+: bytes → other.getLast? ≠ some 0 → other.length ≤ kept.length

theorem trimZeros_cons (x : UInt8) (bytes : Bytes) : trimZeros (x :: bytes)
    = if trimZeros bytes = [] ∧ x = 0 then [] else x :: trimZeros bytes := by
  rw [trimZeros]
  cases trimZeros bytes <;> simp

/-- What is taken off are zeros. -/
theorem exists_trimZeros (bytes : Bytes) :
    ∃ zeros, bytes = trimZeros bytes ++ List.replicate zeros 0 := by
  induction bytes with
  | nil => exact ⟨0, rfl⟩
  | cons x bytes ih =>
    obtain ⟨zeros, ih⟩ := ih
    rw [trimZeros_cons]
    split
    · rename_i none
      rw [none.1, List.nil_append] at ih
      exact ⟨zeros + 1, by rw [none.2, ih, List.replicate_succ, List.nil_append]⟩
    · exact ⟨zeros, by rw [List.cons_append, ← ih]⟩

theorem getLast?_trimZeros (bytes : Bytes) : (trimZeros bytes).getLast? ≠ some 0 := by
  induction bytes with
  | nil => nofun
  | cons x bytes ih =>
    rw [trimZeros_cons]
    split
    · nofun
    · rename_i some
      cases rest : trimZeros bytes with
      | nil => simpa [rest] using some
      | cons y rest' =>
        rw [rest] at ih
        rwa [List.getLast?_cons_cons]

theorem trimZeros_append_zeros (kept : Bytes) (zeros : Nat) :
    trimZeros (kept ++ List.replicate zeros 0) = trimZeros kept := by
  induction kept with
  | nil =>
    induction zeros with
    | zero => rfl
    | succ zeros ih =>
      rw [List.nil_append] at ih ⊢
      rw [List.replicate_succ, trimZeros_cons, ih]
      rfl
  | cons x kept ih => rw [List.cons_append, trimZeros_cons, ih, trimZeros_cons]

/-- The two differ at most in how many zeros they end in. -/
def SameButZeros (a b : Bytes) : Prop :=
  ∃ kept i j, a = kept ++ List.replicate i 0 ∧ b = kept ++ List.replicate j 0

theorem SameButZeros.eq_of_length (h : SameButZeros a b) (length : a.length = b.length) : a = b := by
  obtain ⟨kept, i, j, rfl, rfl⟩ := h
  rw [List.length_append, List.length_append, List.length_replicate, List.length_replicate] at length
  rw [Nat.add_left_cancel length]

theorem trimZeros_eq_iff : trimZeros a = trimZeros b ↔ SameButZeros a b := by
  constructor
  · intro same
    obtain ⟨i, ha⟩ := exists_trimZeros a
    obtain ⟨j, hb⟩ := exists_trimZeros b
    exact ⟨trimZeros a, i, j, ha, by rwa [same]⟩
  · rintro ⟨kept, i, j, rfl, rfl⟩
    rw [trimZeros_append_zeros, trimZeros_append_zeros]

theorem isTrimmed_trimZeros (bytes : Bytes) : IsTrimmed bytes (trimZeros bytes) := by
  obtain ⟨zeros, split⟩ := exists_trimZeros bytes
  refine ⟨⟨_, split.symm⟩, getLast?_trimZeros bytes, ?_⟩
  intro other start ending
  apply Nat.le_of_not_lt
  intro longer
  have taken := List.prefix_iff_eq_take.1 start
  rw [split, List.take_append, List.take_of_length_le (Nat.le_of_lt longer), List.take_replicate]
    at taken
  cases count : min (other.length - (trimZeros bytes).length) zeros with
  | zero =>
    rw [count, List.replicate_zero, List.append_nil] at taken
    exact absurd longer (by rw [← taken]; exact Nat.lt_irrefl _)
  | succ more =>
    rw [count, List.replicate_succ', ← List.append_assoc] at taken
    rw [taken, List.getLast?_concat] at ending
    exact ending rfl

theorem isTrimmed_iff : IsTrimmed bytes kept ↔ trimZeros bytes = kept := by
  constructor
  · intro trimmed
    have own := isTrimmed_trimZeros bytes
    have shorter := trimmed.longest _ own.start own.ending
    have longer := own.longest _ trimmed.start trimmed.ending
    have inside := List.prefix_of_prefix_length_le own.start trimmed.start shorter
    exact inside.eq_of_length (Nat.le_antisymm shorter longer)
  · rintro rfl
    exact isTrimmed_trimZeros bytes

end CaseHarvest.Bytes
