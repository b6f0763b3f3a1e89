import Mathlib.Data.List.Nodup
import CaseHarvest.Proofs.Files.Move
/-!
The same files with directories that deliver their entries in another order. Main statements: each order
of what is directly in a directory is one in which it can be delivered (`exists_delivering`), what stands
where does not depend on it (`reordered_iff`), and so where a path leads and what is read there does not
either; what is changed is changed in both (`Reordered.put`, `Reordered.removeTree`).
-/
namespace CaseHarvest

/-- Two outcomes with one fault, or with results that are related. -/
inductive SameOutcome {ε α β : Type} (R : α → β → Prop) : Except ε α → Except ε β → Prop
  | ok {a : α} {b : β} (h : R a b) : SameOutcome R (.ok a) (.ok b)
  | error (e : ε) : SameOutcome R (.error e) (.error e)

theorem SameOutcome.map_eq {ε α β : Type} {R : α → β → Prop} {x : Except ε α} {y : Except ε β}
    (h : SameOutcome R x y) : (x.map fun _ => ()) = y.map fun _ => () := by
  cases h <;> rfl

theorem SameOutcome.bind {ε α β γ : Type} {R : α → β → Prop} (x : Except ε γ) {f : γ → Except ε α}
    {g : γ → Except ε β} (h : ∀ c, SameOutcome R (f c) (g c)) :
    SameOutcome R (x >>= f) (x >>= g) := by
  cases x with
  | error e => exact .error e
  | ok c => exact h c

namespace Entries

variable {entries entries' : Entries}

theorem find?_of_perm (h : entries.Perm entries') (hnodup : entries.locations.Nodup) (l : Location) :
    entries.find? l = entries'.find? l := by
  by_cases hl : l = []
  · rw [hl]
    rfl
  · have hnodup' : entries'.locations.Nodup := (h.map _).nodup_iff.1 hnodup
    apply Option.ext
    intro e
    rw [find?_eq_some_iff hnodup hl, find?_eq_some_iff hnodup' hl]
    exact h.mem_iff

theorem WellPlaced.of_perm (h : entries.WellPlaced) (hperm : entries.Perm entries') :
    entries'.WellPlaced := by
  have hlocations : entries.locations.Perm entries'.locations := hperm.map _
  refine ⟨hlocations.nodup_iff.1 h.distinct, fun l hl => ?_, fun l hl => ?_⟩
  · exact h.named l (hlocations.mem_iff.2 hl)
  · obtain ⟨hroot, hparent⟩ := h.rooted l (hlocations.mem_iff.2 hl)
    rw [find?_of_perm hperm h.distinct] at hparent
    exact ⟨hroot, hparent⟩

end Entries

namespace FileTree

/-- The same entries in another order of delivery. -/
def Reordered (t t' : FileTree) : Prop := t.entries.Perm t'.entries

variable {t t' : FileTree} {cwd place : Location} {path : String}

theorem nodup_entries (t : FileTree) : t.entries.Nodup := t.wellPlaced.distinct.of_map

theorem reordered_iff : t.Reordered t' ↔ ∀ l, t.lookup l = t'.lookup l := by
  constructor
  · intro h l
    exact Entries.find?_of_perm h t.wellPlaced.distinct l
  · intro h
    refine (List.perm_ext_iff_of_nodup t.nodup_entries t'.nodup_entries).2 fun ⟨l, e⟩ => ?_
    by_cases hl : l = []
    · -- The root is among the entries of neither.
      subst hl
      have hroot (t : FileTree) : ([], e) ∉ t.entries := fun hmem =>
        (t.wellPlaced.rooted [] (List.mem_map_of_mem hmem)).1 rfl
      exact ⟨fun hmem => absurd hmem (hroot t), fun hmem => absurd hmem (hroot t')⟩
    · rw [← lookup_eq_some_iff hl, ← lookup_eq_some_iff hl, h l]

namespace Reordered

theorem refl (t : FileTree) : t.Reordered t := List.Perm.refl _

theorem lookup (h : t.Reordered t') (l : Location) : t.lookup l = t'.lookup l := reordered_iff.1 h l

theorem isDirectory (h : t.Reordered t') (l : Location) : t.isDirectory l = t'.isDirectory l := by
  unfold FileTree.isDirectory
  rw [h.lookup]

theorem sameShape (h : t.Reordered t') : SameShape t t' where
  directory := h.isDirectory
  taken l := by rw [h.lookup]

theorem children (h : t.Reordered t') (dir : Location) : (t.children dir).Perm (t'.children dir) :=
  h.filterMap _

/-! ## Looking -/

theorem resolve (h : t.Reordered t') (cwd : Location) (path : String) :
    t.resolve cwd path = t'.resolve cwd path := by
  unfold FileTree.resolve
  rw [h.sameShape.walk]

theorem exists? (h : t.Reordered t') (cwd : Location) (path : String) :
    t.exists? cwd path = t'.exists? cwd path := by
  unfold FileTree.exists?
  rw [h.resolve]

theorem read (h : t.Reordered t') (cwd : Location) (path : String) :
    t.read cwd path = t'.read cwd path := by
  unfold FileTree.read
  rw [h.resolve]
  simp only [h.lookup]

theorem list (h : t.Reordered t') (cwd : Location) (path : String) :
    SameOutcome List.Perm (t.list cwd path) (t'.list cwd path) := by
  unfold FileTree.list
  rw [h.resolve]
  refine .bind _ fun l => ?_
  rw [h.isDirectory]
  split
  · exact .ok (h.children l)
  · exact .error _

/-! ## Changing -/

theorem put (h : t.Reordered t') (place : Location) (e : Entry) :
    (t.put place e).Reordered (t'.put place e) := by
  have hadmits := admits_congr (e := e) (h.lookup place) (h.lookup place.dropLast)
  refine reordered_iff.2 fun l => ?_
  rw [lookup_put_eq, lookup_put_eq, h.lookup]
  simp only [hadmits]

/-- What is put next to something can as well be put before it. -/
theorem put_put (h : t.Reordered t') {l k : Location} (hne : l ≠ k) (hl : k.dropLast ≠ l)
    (hk : l.dropLast ≠ k) (e e' : Entry) :
    ((t.put l e).put k e').Reordered ((t'.put k e').put l e) := by
  have hfirst : t'.Admits l e ↔ t.Admits l e := admits_congr (h.lookup _).symm (h.lookup _).symm
  have hbehind : (t'.put k e').Admits l e ↔ t'.Admits l e :=
    admits_congr (lookup_put_of_ne hne) (lookup_put_of_ne hk)
  have hsecond : (t.put l e).Admits k e' ↔ t'.Admits k e' :=
    admits_congr ((lookup_put_of_ne hne.symm).trans (h.lookup _))
      ((lookup_put_of_ne hl).trans (h.lookup _))
  refine reordered_iff.2 fun j => ?_
  simp only [lookup_put_eq, hfirst, hbehind, hsecond, h.lookup]
  by_cases hj : j = k
  · subst hj
    simp [hne.symm]
  · simp [hj]

theorem erase (h : t.Reordered t') (place : Location) : (t.erase place).Reordered (t'.erase place) :=
  h.filter _

theorem removeTree (h : t.Reordered t') (cwd : Location) (path : String) :
    SameOutcome Reordered (t.removeTree cwd path) (t'.removeTree cwd path) := by
  unfold FileTree.removeTree
  rw [h.resolve]
  refine .bind _ fun l => ?_
  rw [h.lookup]
  split
  · exact .ok (h.erase l)
  · exact .ok (h.erase l)
  · exact .error _

theorem move (h : t.Reordered t') (cwd source : Location) (path : String) :
    SameOutcome Reordered (t.move cwd source path) (t'.move cwd source path) := by
  unfold FileTree.move
  rw [h.sameShape.resolveMove]
  refine .bind _ fun target => ?_
  rw [h.lookup]
  split
  · exact .error _
  · exact .ok ((h.erase source).put target _)

end Reordered

/-! ## Orders of one directory -/

/-- The entries of what is directly in a directory. -/
def childEntries (place : Location) (children : List (String × Entry)) : Entries :=
  children.map fun (name, e) => (place ++ [name], e)

theorem childEntries_children (t : FileTree) (place : Location) :
    childEntries place (t.children place) = t.entries.filter fun (l, _) => (childName? place l).isSome := by
  unfold childEntries FileTree.children
  induction t.entries with
  | nil => rfl
  | cons head rest ih =>
    obtain ⟨l, e⟩ := head
    cases hname : childName? place l with
    | none => simpa [List.filterMap_cons, List.filter_cons, hname] using ih
    | some name =>
      obtain rfl := childName?_eq_some_iff.1 hname
      simpa [List.filterMap_cons, List.filter_cons, hname] using ih

/-- A directory delivers each name once. -/
theorem nodup_names_children (t : FileTree) (place : Location) :
    ((t.children place).map (·.1)).Nodup := by
  have hlocations : (childEntries place (t.children place)).locations.Nodup := by
    rw [childEntries_children]
    exact t.wellPlaced.distinct.sublist (List.filter_sublist.map _)
  have hnames : (childEntries place (t.children place)).locations
      = ((t.children place).map (·.1)).map fun name => place ++ [name] := by
    simp [childEntries, Entries.locations]
  rw [hnames] at hlocations
  exact hlocations.of_map

/-- Each order in which a directory could deliver what is in it is the one of some tree. -/
theorem exists_delivering {order : List (String × Entry)} (h : (t.children place).Perm order) :
    ∃ t', t.Reordered t' ∧ t'.children place = order := by
  -- All other entries come behind those of the directory.
  let others := t.entries.filter fun (l, _) => !(childName? place l).isSome
  have hperm : t.entries.Perm (childEntries place order ++ others) := by
    have hsplit := List.filter_append_perm (fun (l, _) => (childName? place l).isSome) t.entries
    rw [← childEntries_children] at hsplit
    exact hsplit.symm.trans ((h.map _).append_right others)
  refine ⟨⟨_, t.wellPlaced.of_perm hperm⟩, hperm, ?_⟩
  have hothers : others.filterMap (fun (l, e) => (childName? place l).map fun name => (name, e)) = [] := by
    refine List.filterMap_eq_nil_iff.2 fun ⟨l, e⟩ hmem => ?_
    have hnot := (List.mem_filter.1 hmem).2
    simpa using hnot
  unfold FileTree.children
  rw [List.filterMap_append, hothers, List.append_nil, childEntries, List.filterMap_map]
  have hback : ((fun (l, e) => (childName? place l).map fun name => (name, e)) ∘
      fun (name, e) => (place ++ [name], e)) = (some : String × Entry → _) := by
    funext ⟨name, e⟩
    show (childName? place (place ++ [name])).map _ = _
    rw [childName?_eq_some_iff.2 rfl]
    rfl
  rw [hback, List.filterMap_some]

end FileTree

end CaseHarvest
