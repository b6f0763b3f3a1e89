import Mathlib.Data.List.TakeWhile
import CaseHarvest.Proofs.Bytes.Hex
import CaseHarvest.Proofs.Json.Numeral
/-!
Reading JSON that was written. Main statement: a value is read back from its text, with any blanks
behind it (`parse?_pretty`), if it is one that can be written: all texts in it are texts, and all
numerals proper.
-/
namespace CaseHarvest.Json

/-! ## Texts -/

/-- Some characters are read as one piece, which stands for a character. -/
structure ReadsAs (written : List Char) (piece : Piece) (c : Char) : Prop where
  read : ∀ cs, pieces? (written ++ cs)
    = (pieces? cs).map fun (pieces, rest) => (piece :: pieces, rest)
  join : ∀ pieces, joinPieces? (piece :: pieces) = (joinPieces? pieces).map (c :: ·)

variable {c : Char}

theorem readsAs_short {e : Char} (hunit : e ≠ 'u') (hread : unescape? e = some c) :
    ReadsAs ['\\', e] (.plain c) c where
  read cs := by
    rw [List.cons_append, List.cons_append, List.nil_append, pieces?]
    · rw [hread]
      cases pieces? cs <;> rfl
    · rintro _ _ _ _ _ rfl
      exact absurd rfl hunit
  join _ := rfl

theorem readsAs_control (h : c.toNat < 0x20) :
    ReadsAs (escapeControl c) (.unit c.toNat) c where
  read cs := by
    have value : hexValues? ['0', '0', Bytes.hexDigit (c.toNat / 16),
        Bytes.hexDigit (c.toNat % 16)] = some c.toNat := by
      have high := Bytes.hexValue?_hexDigit (n := c.toNat / 16) (by omega)
      have low := Bytes.hexValue?_hexDigit (n := c.toNat % 16) (by omega)
      have zero : hexValue? '0' = some 0 := by decide
      simp only [hexValues?, List.foldlM_cons, List.foldlM_nil, high, low, zero, Option.bind_eq_bind,
        Option.bind_some, Option.pure_def, Option.some.injEq]
      omega
    simp only [escapeControl, List.cons_append, List.nil_append, pieces?, value]
    cases pieces? cs <;> rfl
  join pieces := by
    have high : isHighSurrogate c.toNat = false := by
      simp only [isHighSurrogate, Bool.and_eq_false_imp, decide_eq_true_eq]
      omega
    have low : isLowSurrogate c.toNat = false := by
      simp only [isLowSurrogate, Bool.and_eq_false_imp, decide_eq_true_eq]
      omega
    rw [joinPieces?.eq_def]
    simp [high, low, Char.ofNat_toNat]

theorem readsAs_plain (hquote : c ≠ '"') (hslash : c ≠ '\\') (h : ¬ c.toNat < 0x20) :
    ReadsAs [c] (.plain c) c where
  read cs := by
    rw [List.singleton_append, pieces?]
    · rw [if_neg h]
      cases pieces? cs <;> rfl
    · exact hquote
    · exact fun _ _ _ _ _ hc => absurd hc hslash
    · exact fun _ _ hc => absurd hc hslash
  join _ := rfl

theorem exists_readsAs (c : Char) : ∃ piece, ReadsAs (escapeChar c) piece c := by
  unfold escapeChar
  split
  · exact ⟨_, readsAs_short (by decide) rfl⟩
  · exact ⟨_, readsAs_short (by decide) rfl⟩
  · exact ⟨_, readsAs_short (by decide) rfl⟩
  · exact ⟨_, readsAs_short (by decide) rfl⟩
  · exact ⟨_, readsAs_short (by decide) rfl⟩
  · exact ⟨_, readsAs_short (by decide) rfl⟩
  · exact ⟨_, readsAs_short (by decide) rfl⟩
  · split
    · exact ⟨_, readsAs_control ‹_›⟩
    · exact ⟨_, readsAs_plain ‹_› ‹_› ‹_›⟩

/-- A text is read back from between its quotation marks. -/
theorem quoted?_renderText (s : String) (rest : List Char) :
    quoted? (s.toList.flatMap escapeChar ++ '"' :: rest) = some (some s, rest) := by
  have hpieces (cs : List Char) : ∃ pieces,
      pieces? (cs.flatMap escapeChar ++ '"' :: rest) = some (pieces, rest)
        ∧ joinPieces? pieces = some cs := by
    induction cs with
    | nil => exact ⟨[], rfl, rfl⟩
    | cons c cs ih =>
      obtain ⟨pieces, hread, hjoin⟩ := ih
      obtain ⟨piece, hpiece⟩ := exists_readsAs c
      refine ⟨piece :: pieces, ?_, ?_⟩
      · rw [List.flatMap_cons, List.append_assoc, hpiece.read, hread]
        rfl
      · rw [hpiece.join, hjoin]
        rfl
  obtain ⟨pieces, hread, hjoin⟩ := hpieces s.toList
  simp [quoted?, hread, hjoin]

/-! ## Blanks -/

@[simp] theorem skipBlank_newline (level : Nat) (cs : List Char) :
    skipBlank (newline level ++ cs) = skipBlank cs := by
  have blanks (n : Nat) : skipBlank (List.replicate n ' ' ++ cs) = skipBlank cs := by
    induction n with
    | zero => rfl
    | succ n ih => exact ih
  exact blanks _

theorem skipBlank_cons (h : isBlank c = false) (cs : List Char) :
    skipBlank (c :: cs) = c :: cs := by
  simp [skipBlank, h]

/-! ## Values -/

/-- Values that can be written: texts are texts, and numerals are proper. -/
inductive IsWritable : Json → Prop where
  | null : IsWritable .null
  | bool (b : Bool) : IsWritable (.bool b)
  | number {n : Numeral} (h : n.IsProper) : IsWritable (.number n)
  | text (s : String) : IsWritable (.text s)
  | array {items : List Json} (h : ∀ item ∈ items, IsWritable item) : IsWritable (.array items)
  | members {members : List (String × Json)} (h : ∀ m ∈ members, IsWritable m.2) :
      IsWritable (.ofMembers members)

/-- What is written of a value is not blank, does not close a list, and is read as the value. -/
structure ReadsBack (j : Json) : Prop where
  opens : ∀ level, ∃ c cs, render level j = c :: cs ∧ isBlank c = false ∧ c ≠ ']'
  read : ∀ level fuel cs rest, skipBlank cs = render level j ++ rest →
    (render level j).length ≤ fuel → Numeral.Ends rest → value? fuel cs = some (j, rest)

variable {j : Json} {level : Nat} {rest : List Char}

theorem ReadsBack.skipBlank_render (h : ReadsBack j) (level : Nat) (rest : List Char) :
    skipBlank (render level j ++ rest) = render level j ++ rest := by
  obtain ⟨c, cs, hrender, hblank, -⟩ := h.opens level
  rw [hrender, List.cons_append, skipBlank_cons hblank]

theorem ends_newline (level : Nat) (rest : List Char) : Numeral.Ends (newline level ++ rest) := by
  rintro c ⟨⟩
  decide

theorem ends_comma (rest : List Char) : Numeral.Ends (',' :: rest) := by
  rintro c ⟨⟩
  decide

/-- Items are read one after the other, up to the bracket on a line of its own. -/
theorem items?_renderItems {item : Json} {items : List Json} {outer fuel : Nat} {cs : List Char}
    (h : ∀ i ∈ item :: items, ReadsBack i)
    (hcs : skipBlank cs
      = render level item ++ (renderItems level items ++ (newline outer ++ ']' :: rest)))
    (hfuel : (render level item).length + (renderItems level items).length < fuel) :
    items? fuel cs = some (item :: items, rest) := by
  induction items generalizing item fuel cs with
  | nil =>
    obtain ⟨fuel, rfl⟩ : ∃ n, fuel = n + 1 := ⟨fuel - 1, by omega⟩
    have hread := (h item List.mem_cons_self).read level fuel cs _ hcs (by omega)
      (ends_newline outer _)
    simp [items?, hread, skipBlank_cons, isBlank, renderItems]
  | cons next items ih =>
    obtain ⟨fuel, rfl⟩ : ∃ n, fuel = n + 1 := ⟨fuel - 1, by omega⟩
    simp only [renderItems, List.cons_append, List.append_assoc, List.length_cons,
      List.length_append] at hcs hfuel
    have hread := (h item List.mem_cons_self).read level fuel cs _ hcs (by omega) (ends_comma _)
    have hblank : skipBlank (newline level ++ (render level next ++ (renderItems level items
        ++ (newline outer ++ ']' :: rest)))) = _ :=
      (skipBlank_newline level _).trans ((h next (by simp)).skipBlank_render level _)
    have hothers := ih (fun i hi => h i (List.mem_cons_of_mem _ hi)) hblank
      (by omega : _ < fuel)
    simp [items?, hread, skipBlank_cons, isBlank, hothers]

/-- Members as they are kept. -/
def named (members : List (String × Json)) : List (Option String × Json) :=
  members.map fun (key, value) => (some key, value)

theorem ofMembers_eq (members : List (String × Json)) : ofMembers members = .object (named members) :=
  rfl

@[simp] theorem named_nil : named [] = [] := rfl

@[simp] theorem named_cons (key : String) (value : Json) (members : List (String × Json)) :
    named ((key, value) :: members) = (some key, value) :: named members := rfl

/-- One member is read up to the character that tells whether there are more. -/
theorem members?_step {key : String} {value : Json} {fuel : Nat} {cs : List Char}
    (h : ReadsBack value)
    (hcs : skipBlank cs
      = renderText key ++ (':' :: ' ' :: (render level value ++ rest)))
    (hfuel : (render level value).length ≤ fuel) (hends : Numeral.Ends rest) :
    members? (fuel + 1) cs = match skipBlank rest with
      | '\x7d' :: rest => some ([(some key, value)], rest)
      | ',' :: rest => do
        let (others, rest) ← members? fuel rest
        return ((some key, value) :: others, rest)
      | _ => none := by
  have hblank : skipBlank (' ' :: (render level value ++ rest)) = render level value ++ rest :=
    h.skipBlank_render level rest
  have hread := h.read level fuel _ rest hblank hfuel hends
  simp only [renderText, List.cons_append, List.append_assoc, List.nil_append] at hcs
  simp only [members?, hcs, quoted?_renderText, skipBlank_cons (c := ':') rfl, hread,
    Option.bind_eq_bind, Option.bind_some]
  rfl

/-- Members are read one after the other, up to the brace on a line of its own. -/
theorem members?_renderMembers {key : String} {value : Json} {members : List (String × Json)}
    {outer fuel : Nat} {cs : List Char} (h : ∀ m ∈ (key, value) :: members, ReadsBack m.2)
    (hcs : skipBlank cs = renderText key ++ (':' :: ' ' :: (render level value
      ++ (renderMembers level (named members) ++ (newline outer ++ '\x7d' :: rest)))))
    (hfuel : (render level value).length + (renderMembers level (named members)).length < fuel) :
    members? fuel cs = some ((some key, value) :: named members, rest) := by
  induction members generalizing key value fuel cs with
  | nil =>
    obtain ⟨fuel, rfl⟩ : ∃ n, fuel = n + 1 := ⟨fuel - 1, by omega⟩
    have hvalue : ReadsBack value := h (key, value) List.mem_cons_self
    rw [members?_step hvalue hcs (by omega) (ends_newline outer _)]
    simp [renderMembers, skipBlank_cons, isBlank]
  | cons next members ih =>
    obtain ⟨fuel, rfl⟩ : ∃ n, fuel = n + 1 := ⟨fuel - 1, by omega⟩
    obtain ⟨nextKey, nextValue⟩ := next
    have hvalue : ReadsBack value := h (key, value) List.mem_cons_self
    simp only [named_cons, renderMembers, List.cons_append, List.append_assoc,
      List.length_cons, List.length_append, Option.getD_some] at hcs hfuel
    rw [members?_step hvalue hcs (by omega) (ends_comma _)]
    have hblank : skipBlank (newline level ++ (renderText nextKey ++ (':' :: ' '
        :: (render level nextValue ++ (renderMembers level (named members)
          ++ (newline outer ++ '\x7d' :: rest)))))) = _ :=
      (skipBlank_newline level _).trans (skipBlank_cons rfl _)
    have hothers := ih (fun m hm => h m (List.mem_cons_of_mem _ hm)) hblank (by omega : _ < fuel)
    simp [skipBlank_cons, isBlank, hothers]

/-- Fuel that is enough for a text is never used up. -/
theorem ReadsBack.intro (opens : ∀ level, ∃ c cs, render level j = c :: cs ∧ isBlank c = false
      ∧ c ≠ ']')
    (read : ∀ level fuel cs rest, skipBlank cs = render level j ++ rest →
      (render level j).length ≤ fuel + 1 → Numeral.Ends rest →
      value? (fuel + 1) cs = some (j, rest)) : ReadsBack j where
  opens := opens
  read level fuel cs rest hcs hfuel hends := by
    obtain ⟨c, tail, hrender, -⟩ := opens level
    cases fuel with
    | zero =>
      rw [hrender] at hfuel
      cases hfuel
    | succ fuel => exact read level fuel cs rest hcs hfuel hends

theorem readsBack_null : ReadsBack .null := by
  refine .intro (fun level => ⟨_, _, rfl, by decide, by decide⟩) fun level fuel cs rest hcs _ _ => ?_
  simp only [render, List.cons_append, List.nil_append] at hcs
  simp [value?, hcs]

theorem readsBack_bool (b : Bool) : ReadsBack (.bool b) := by
  cases b
  all_goals
    refine .intro (fun level => ⟨_, _, rfl, by decide, by decide⟩)
      fun level fuel cs rest hcs _ _ => ?_
    simp only [render, List.cons_append, List.nil_append] at hcs
    simp [value?, hcs]

theorem readsBack_text (s : String) : ReadsBack (.text s) := by
  refine .intro (fun level => ⟨_, _, rfl, by decide, by decide⟩) fun level fuel cs rest hcs _ _ => ?_
  simp only [text, render, renderText, Option.getD_some, List.cons_append, List.append_assoc,
    List.nil_append] at hcs
  simp [value?, hcs, quoted?_renderText, text]

/-- A numeral begins with a sign or with a digit. -/
theorem exists_render_cons {n : Numeral} (h : n.IsProper) :
    ∃ c cs, n.render = c :: cs ∧ (c = '-' ∨ (digitValue? c).isSome) := by
  rw [Numeral.render_eq, List.append_assoc, List.append_assoc]
  obtain ⟨hne, hds⟩ := h.whole
  cases hneg : n.negative with
  | true => exact ⟨_, _, rfl, .inl rfl⟩
  | false =>
    cases hwhole : n.whole with
    | nil => exact absurd hwhole hne
    | cons d ds =>
      refine ⟨_, _, rfl, .inr ?_⟩
      rw [digitValue?_digitChar (hds d (hwhole ▸ List.mem_cons_self))]
      rfl

/-- What begins with a sign or with a digit can only be a numeral. -/
theorem value?_of_numeral {c : Char} {cs tail : List Char} {fuel : Nat}
    (hc : c = '-' ∨ (digitValue? c).isSome) (hcs : skipBlank cs = c :: tail) :
    value? (fuel + 1) cs = (numeral? (c :: tail)).map fun (n, rest) => (.number n, rest) := by
  have hother (d : Char) (hd : d ≠ '-' ∧ digitValue? d = none) (rest : List Char) :
      c :: tail ≠ d :: rest := by
    rintro ⟨⟩
    simp [hd] at hc
  rw [value?, hcs]
  split
  · exact absurd ‹_› (hother _ (by decide) _)
  · exact absurd ‹_› (hother _ (by decide) _)
  · exact absurd ‹_› (hother _ (by decide) _)
  · exact absurd ‹_› (hother _ (by decide) _)
  · exact absurd ‹_› (hother _ (by decide) _)
  · exact absurd ‹_› (hother _ (by decide) _)
  · cases numeral? (c :: tail) <;> rfl

theorem readsBack_number {n : Numeral} (h : n.IsProper) : ReadsBack (.number n) := by
  obtain ⟨c, tail, hrender, hc⟩ := exists_render_cons h
  have hother (d : Char) (hd : d ≠ '-' ∧ digitValue? d = none) : c ≠ d := by
    rintro rfl
    simp [hd] at hc
  have hblank : isBlank c = false := by
    simp only [isBlank, Bool.or_eq_false_iff, decide_eq_false_iff_not]
    exact ⟨⟨⟨hother _ (by decide), hother _ (by decide)⟩, hother _ (by decide)⟩,
      hother _ (by decide)⟩
  refine .intro (fun level => ⟨c, tail, hrender, hblank, hother _ (by decide)⟩)
    fun level fuel cs rest hcs _ hends => ?_
  have hread := Numeral.numeral?_render h hends
  rw [hrender, List.cons_append] at hread
  rw [render, hrender, List.cons_append] at hcs
  rw [value?_of_numeral hc hcs, hread]
  rfl

/-- An item never begins with the bracket that would make the list an empty one. -/
theorem readsBack_array {items : List Json} (h : ∀ item ∈ items, ReadsBack item) :
    ReadsBack (.array items) := by
  cases items with
  | nil =>
    refine .intro (fun level => ⟨_, _, rfl, by decide, by decide⟩)
      fun level fuel cs rest hcs _ _ => ?_
    simp only [render, List.cons_append, List.nil_append] at hcs
    simp [value?, hcs, skipBlank_cons, isBlank]
  | cons item items =>
    have hitem := h item List.mem_cons_self
    refine .intro (fun level => ⟨_, _, by rw [render]; rfl, by decide, by decide⟩)
      fun level fuel cs rest hcs hfuel _ => ?_
    simp only [render, List.cons_append, List.append_assoc, List.length_cons, List.length_append,
      List.nil_append] at hcs hfuel
    have hblank := hitem.skipBlank_render (level + 1)
      (renderItems (level + 1) items ++ (newline level ++ ']' :: rest))
    have hitems := items?_renderItems h hblank (by omega : _ < fuel)
    obtain ⟨c, tail, hrender, -, hclose⟩ := hitem.opens (level + 1)
    simp only [value?, hcs, skipBlank_newline, hblank]
    split
    · rename_i hclosed
      rw [hrender] at hclosed
      exact absurd (List.cons.inj hclosed).1 hclose
    · rw [hitems]
      rfl

theorem readsBack_members {members : List (String × Json)} (h : ∀ m ∈ members, ReadsBack m.2) :
    ReadsBack (.ofMembers members) := by
  rw [ofMembers_eq]
  cases members with
  | nil =>
    refine .intro (fun level => ⟨_, _, rfl, by decide, by decide⟩)
      fun level fuel cs rest hcs _ _ => ?_
    simp only [named_nil, render, List.cons_append, List.nil_append] at hcs
    simp [value?, hcs, skipBlank_cons, isBlank]
  | cons member members =>
    obtain ⟨key, value⟩ := member
    refine .intro (fun level => ⟨_, _, by rw [named_cons, render]; rfl, by decide, by decide⟩)
      fun level fuel cs rest hcs hfuel _ => ?_
    simp only [named_cons, render, List.cons_append, List.append_assoc, List.length_cons,
      List.length_append, List.nil_append, Option.getD_some] at hcs hfuel
    have hblank (cs : List Char) : skipBlank (renderText key ++ cs) = renderText key ++ cs :=
      skipBlank_cons rfl _
    have hmembers := members?_renderMembers h
      (hblank (':' :: ' ' :: (render (level + 1) value ++ (renderMembers (level + 1) (named members)
        ++ (newline level ++ '\x7d' :: rest))))) (by omega : _ < fuel)
    simp only [value?, hcs, skipBlank_newline, hblank]
    split
    · rename_i hclosed
      exact absurd (List.cons.inj hclosed).1 (by decide)
    · rw [hmembers]
      rfl

/-- What can be written is read back. -/
theorem IsWritable.readsBack (h : IsWritable j) : ReadsBack j := by
  induction h with
  | null => exact readsBack_null
  | bool b => exact readsBack_bool b
  | number h => exact readsBack_number h
  | text s => exact readsBack_text s
  | array _ ih => exact readsBack_array ih
  | members _ ih => exact readsBack_members ih

theorem skipBlank_eq_nil {blanks : List Char} (h : ∀ c ∈ blanks, isBlank c) :
    skipBlank blanks = [] := List.dropWhile_eq_nil_iff.2 h

theorem ends_blanks {blanks : List Char} (h : ∀ c ∈ blanks, isBlank c) : Numeral.Ends blanks := by
  intro c hc
  have hblank := h c (List.mem_of_mem_head? hc)
  simp only [isBlank, Bool.or_eq_true, decide_eq_true_eq] at hblank
  rcases hblank with ((rfl | rfl) | rfl) | rfl <;> decide

/-- A written value is read back from its text, with any blanks behind it. -/
theorem parse?_pretty (h : IsWritable j) {blanks : String}
    (hblanks : ∀ c ∈ blanks.toList, isBlank c) : parse? (pretty j ++ blanks) = some j := by
  have htext : (pretty j ++ blanks).toList = render 0 j ++ blanks.toList := by
    rw [String.toList_append, pretty, String.toList_ofList]
  have hlength : (render 0 j).length ≤ 2 * (pretty j ++ blanks).length + 2 := by
    rw [← String.length_toList, htext, List.length_append]
    omega
  have hstart : skipBlank (pretty j ++ blanks).toList = render 0 j ++ blanks.toList := by
    rw [htext]
    exact h.readsBack.skipBlank_render 0 _
  have hread := h.readsBack.read 0 _ _ _ hstart hlength (ends_blanks hblanks)
  rw [parse?, hread]
  exact if_pos (skipBlank_eq_nil hblanks)

end CaseHarvest.Json
