import CaseHarvest.Files.Tree
/-!
What the place of every entry in a directory says about a tree: what is above an entry, what is
below something that is no directory, and what a directory delivers.
-/
namespace CaseHarvest

/-- What can be read of an entry. -/
def Entry.content? : Entry → Option Bytes
  | directory => none
  | file content _ => some content
  | link content => some content
  | pipe => some []

namespace Entries

variable {place : Location} {entries : Entries}

/-- Of two entries that are put at one location the second one is kept. -/
theorem put_put (place : Location) (e e' : Entry) (entries : Entries) :
    put place e' (put place e entries) = put place e' entries := by
  induction entries with
  | nil => simp [put]
  | cons head rest ih =>
    obtain ⟨k, x⟩ := head
    by_cases hk : k = place
    · simp [put, hk]
    · simp [put, hk, ih]

/-- What is put where nothing is, nor below it, can be taken away again. -/
theorem drop_put (h : ∀ l ∈ entries.locations, ¬ place <+: l) (e : Entry) :
    drop place (put place e entries) = entries := by
  induction entries with
  | nil => simp [put, drop]
  | cons head rest ih =>
    obtain ⟨k, x⟩ := head
    have hhead : ¬ place <+: k := h k List.mem_cons_self
    have hne : k ≠ place := fun same => hhead (same ▸ List.prefix_refl k)
    have hkept : place.isPrefixOf k = false :=
      Bool.eq_false_iff.2 fun hp => hhead (List.isPrefixOf_iff_prefix.1 hp)
    have hrest : drop place (put place e rest) = rest :=
      ih fun l hl => h l (List.mem_cons_of_mem _ hl)
    unfold drop at hrest ⊢
    rw [put, if_neg hne, List.filter_cons_of_pos (by simp [hkept]), hrest]

/-- Where each location occurs once, what is found at one is what is entered there. -/
theorem find?_eq_some_iff {l : Location} {e : Entry} (hnodup : entries.locations.Nodup) (hl : l ≠ []) :
    entries.find? l = some e ↔ (l, e) ∈ entries := by
  unfold find?
  rw [if_neg hl]
  induction entries with
  | nil => simp
  | cons head rest ih =>
    obtain ⟨k, x⟩ := head
    obtain ⟨hfresh, hrest⟩ := List.nodup_cons.1 hnodup
    by_cases hk : l = k
    · subst hk
      have hnot : (l, e) ∉ rest := fun hm => hfresh (List.mem_map.2 ⟨_, hm, rfl⟩)
      simp [hnot, eq_comm]
    · simp [List.lookup_cons, beq_false_of_ne hk, hk, ih hrest]

end Entries

namespace FileTree

variable {t t' : FileTree} {place l : Location}

theorem eq_of_entries (h : t.entries = t'.entries) : t = t' := by
  cases t
  cases t'
  cases h
  rfl

theorem isDirectory_iff : t.isDirectory l = true ↔ t.lookup l = some .directory := by
  simp [isDirectory]

theorem mem_locations_of_lookup (hl : l ≠ []) (h : (t.lookup l).isSome) :
    l ∈ t.entries.locations := by
  unfold lookup Entries.find? at h
  rw [if_neg hl, List.lookup_isSome_iff] at h
  obtain ⟨⟨k, e⟩, hmem, hk⟩ := h
  obtain rfl : l = k := by simpa using hk
  exact List.mem_map.2 ⟨_, hmem, rfl⟩

theorem isName_of_lookup (h : (t.lookup l).isSome) : ∀ piece ∈ l, Path.isName piece := by
  by_cases hl : l = []
  · simp [hl]
  · exact t.wellPlaced.named l (mem_locations_of_lookup hl h)

theorem lookup_dropLast (h : (t.lookup l).isSome) : t.lookup l.dropLast = some .directory := by
  by_cases hl : l = []
  · subst hl
    rfl
  · exact (t.wellPlaced.rooted l (mem_locations_of_lookup hl h)).2

/-- All that is above an entry are directories. -/
theorem lookup_above (h : (t.lookup l).isSome) (hpre : place <+: l) (hne : place ≠ l) :
    t.lookup place = some .directory := by
  obtain ⟨rest, rfl⟩ := hpre
  induction rest generalizing place with
  | nil => simp at hne
  | cons piece rest ih =>
    rw [List.append_cons] at h
    have hnext : (t.lookup (place ++ [piece])).isSome := by
      by_cases hrest : place ++ [piece] = place ++ [piece] ++ rest
      · rwa [hrest]
      · rw [ih h hrest]
        rfl
    have hparent := lookup_dropLast hnext
    rwa [List.dropLast_concat] at hparent

theorem lookup_below (h : t.lookup place = none) (hpre : place <+: l) : t.lookup l = none := by
  by_cases hne : place = l
  · rwa [← hne]
  · cases hl : t.lookup l with
    | none => rfl
    | some e =>
      have habove := lookup_above (by rw [hl]; rfl) hpre hne
      rw [h] at habove
      cases habove

theorem lookup_eq_some_iff {e : Entry} (hl : l ≠ []) : t.lookup l = some e ↔ (l, e) ∈ t.entries :=
  Entries.find?_eq_some_iff t.wellPlaced.distinct hl

theorem childName?_eq_some_iff {l : Location} {name : String} :
    childName? place l = some name ↔ l = place ++ [name] := by
  unfold childName?
  constructor
  · intro h
    split at h
    · rename_i hparent
      obtain ⟨init, rfl⟩ := List.getLast?_eq_some_iff.1 h
      rw [List.dropLast_concat] at hparent
      rw [hparent]
    · cases h
  · rintro rfl
    rw [List.dropLast_concat, if_pos rfl, List.getLast?_concat]

/-- A directory delivers what stands directly below it, by name. -/
theorem mem_children_iff {name : String} {e : Entry} :
    (name, e) ∈ t.children place ↔ t.lookup (place ++ [name]) = some e := by
  rw [lookup_eq_some_iff (by simp), children, List.mem_filterMap]
  constructor
  · rintro ⟨⟨k, x⟩, hmem, hname⟩
    obtain ⟨name, hchild, rfl, rfl⟩ : ∃ n, childName? place k = some n ∧ n = name ∧ x = e := by
      simpa using hname
    rwa [← childName?_eq_some_iff.1 hchild]
  · intro hmem
    exact ⟨_, hmem, by simp [childName?]⟩

theorem entries_put {e : Entry} (h : t.Admits place e) :
    (t.put place e).entries = Entries.put place e t.entries := by
  rw [put, dif_pos h]

/-- Where nothing is, nothing is below. -/
theorem not_prefix_of_mem_locations (h : t.lookup place = none) (hl : l ∈ t.entries.locations) :
    ¬ place <+: l := by
  intro hpre
  obtain ⟨⟨k, e⟩, hmem, rfl⟩ := List.mem_map.1 hl
  have hne : k ≠ [] := (t.wellPlaced.rooted k hl).1
  have hentry : t.lookup k = some e := (lookup_eq_some_iff hne).2 hmem
  rw [lookup_below h hpre] at hentry
  cases hentry

theorem isName_of_mem_children {name : String} {e : Entry} (h : (name, e) ∈ t.children place) :
    Path.isName name :=
  isName_of_lookup (by rw [mem_children_iff.1 h]; rfl) name (by simp)

theorem admits_congr {e : Entry} (hplace : t.lookup place = t'.lookup place)
    (hparent : t.lookup place.dropLast = t'.lookup place.dropLast) :
    t.Admits place e ↔ t'.Admits place e := by
  unfold FileTree.Admits
  rw [hplace, hparent]

theorem lookup_put_eq (t : FileTree) (place : Location) (e : Entry) (l : Location) :
    (t.put place e).lookup l = if l = place ∧ t.Admits place e then some e else t.lookup l := by
  by_cases hadmits : t.Admits place e
  · simp only [lookup_put hadmits, hadmits, and_true]
  · rw [if_neg fun h => hadmits h.2, put, dif_neg hadmits]

theorem lookup_put_of_ne {e : Entry} (h : l ≠ place) : (t.put place e).lookup l = t.lookup l := by
  rw [lookup_put_eq, if_neg fun h' => h h'.1]

/-- The trees that differ from another one in what stands at a location. -/
def WithEntry (t : FileTree) (l : Location) (e : Entry) (t' : FileTree) : Prop :=
  ∀ k, t'.lookup k = if k = l then some e else t.lookup k

/-- A file where no directory was leaves all directories as they were. -/
theorem WithEntry.directory_iff {e : Entry} (h : WithEntry t l e t')
    (hl : t.lookup l ≠ some .directory) (he : e ≠ .directory) (k : Location) :
    t'.lookup k = some .directory ↔ t.lookup k = some .directory := by
  rw [h]
  by_cases hk : k = l
  · subst hk
    simp [hl, he]
  · rw [if_neg hk]

theorem lookup_erase_of_ne_root (hl : l ≠ []) :
    (t.erase place).lookup l = if place <+: l then none else t.lookup l := by
  unfold erase lookup Entries.find?
  simp only [if_neg hl, Entries.lookup_drop]

/-- Taking away what is at a location or below it changes nothing else. -/
theorem lookup_erase_of_not_prefix (h : ¬ place <+: l) : (t.erase place).lookup l = t.lookup l := by
  by_cases hl : l = []
  · rw [hl, lookup_root, lookup_root]
  · rw [lookup_erase_of_ne_root hl, if_neg h]

/-- Taking away leaves nothing that was not there. -/
theorem lookup_of_lookup_erase {e : Entry} (h : (t.erase place).lookup l = some e) :
    t.lookup l = some e := by
  by_cases hl : l = []
  · rwa [hl, lookup_root] at h ⊢
  · rw [lookup_erase_of_ne_root hl] at h
    split at h
    · cases h
    · exact h

end FileTree

end CaseHarvest
