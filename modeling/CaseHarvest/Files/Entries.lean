import CaseHarvest.Bytes
import CaseHarvest.Files.Path
/-!
Files and directories by their locations, in the order in which directories deliver them. Main
statements: putting an entry into a directory, dropping all that is below a location and changing what
links show keep each location once, each entry in a directory and each name one that a path can lead to.
-/
namespace CaseHarvest

/-- The names from the root down to a file or directory. -/
abbrev Location := List String

inductive Entry where
  | directory
  | file (content : Bytes) (executable : Bool)
  /-- A link to the file at a location, with the content that is seen through it. -/
  | link {target : Location} (content : Bytes)
  /-- A pipe with a name, which nobody writes to. -/
  | pipe
  deriving DecidableEq, Repr

namespace Entry

/-- The location that a link leads to. -/
def target? : Entry → Option Location
  | @link target _ => some target
  | _ => none

/-- An entry when the file at a location has a content: through a link to it that is seen. -/
def showing (at' : Location) (content : Bytes) (e : Entry) : Entry :=
  if e.target? = some at' then @link at' content else e

theorem showing_of_not_target {at' : Location} {e : Entry} (h : e.target? ≠ some at') (content : Bytes) :
    e.showing at' content = e := if_neg h

end Entry

abbrev Entries := List (Location × Entry)

namespace Entries

/-- What stands at a location. The root is always a directory and is not among the entries. -/
def find? (entries : Entries) (l : Location) : Option Entry :=
  if l = [] then some .directory else entries.lookup l

def locations (entries : Entries) : List Location := entries.map (·.1)

/-- Each location occurs once, consists of names, and lies in a directory. -/
structure WellPlaced (entries : Entries) : Prop where
  distinct : entries.locations.Nodup
  named : ∀ l ∈ entries.locations, ∀ piece ∈ l, Path.isName piece
  rooted : ∀ l ∈ entries.locations, l ≠ [] ∧ entries.find? l.dropLast = some .directory

/-- An entry in the place of the one at its location, or behind all. -/
def put (at' : Location) (entry : Entry) : Entries → Entries
  | [] => [(at', entry)]
  | (l, e) :: rest => if l = at' then (at', entry) :: rest else (l, e) :: put at' entry rest

/-- The entries when the file at a location has a content. -/
def showing (at' : Location) (content : Bytes) (entries : Entries) : Entries :=
  entries.map fun (l, e) => (l, e.showing at' content)

/-- The entries that are neither at a location nor below it. -/
def drop (at' : Location) (entries : Entries) : Entries :=
  entries.filter fun (l, _) => !at'.isPrefixOf l

theorem lookup_put (at' l : Location) (entry : Entry) (entries : Entries) :
    (put at' entry entries).lookup l = if l = at' then some entry else entries.lookup l := by
  induction entries with
  | nil => by_cases h : l = at' <;> simp [put, List.lookup_cons, h, beq_false_of_ne]
  | cons head rest ih =>
    obtain ⟨k, e⟩ := head
    by_cases hk : k = at'
    · subst hk
      by_cases h : l = k <;> simp [put, List.lookup_cons, h, beq_false_of_ne]
    · by_cases h : l = k
      · subst h
        simp [put, hk]
      · simp [put, List.lookup_cons, hk, beq_false_of_ne h, ih]

theorem mem_locations_put {at' l : Location} {entry : Entry} {entries : Entries} :
    l ∈ (put at' entry entries).locations ↔ l = at' ∨ l ∈ entries.locations := by
  induction entries with
  | nil => simp [put, locations]
  | cons head rest ih =>
    obtain ⟨k, e⟩ := head
    unfold locations at ih ⊢
    by_cases hk : k = at'
    · simp [put, hk]
    · rw [put, if_neg hk, List.map_cons, List.mem_cons, ih, List.map_cons, List.mem_cons]
      exact or_left_comm

theorem nodup_locations_put {at' : Location} {entry : Entry} {entries : Entries}
    (h : entries.locations.Nodup) : (put at' entry entries).locations.Nodup := by
  induction entries with
  | nil => simp [put, locations]
  | cons head rest ih =>
    obtain ⟨k, e⟩ := head
    obtain ⟨hfresh, hrest⟩ := List.nodup_cons.1 h
    by_cases hk : k = at'
    · rw [put, if_pos hk]
      exact List.nodup_cons.2 ⟨hk ▸ hfresh, hrest⟩
    · rw [put, if_neg hk]
      exact List.nodup_cons.2 ⟨fun hm => (mem_locations_put.1 hm).elim hk hfresh, ih hrest⟩

theorem find?_put {at' : Location} (hroot : at' ≠ []) (l : Location) (entry : Entry)
    (entries : Entries) :
    find? (put at' entry entries) l = if l = at' then some entry else find? entries l := by
  by_cases hl : l = []
  · simp [find?, hl, hroot.symm]
  · simp [find?, hl, lookup_put]

/-- An entry below a directory leaves all entries in directories, if it does not take the place of a
directory as a file. -/
theorem WellPlaced.put {entries : Entries} (h : WellPlaced entries) {at' : Location} {entry : Entry}
    (hroot : at' ≠ []) (hnamed : ∀ piece ∈ at', Path.isName piece)
    (hparent : entries.find? at'.dropLast = some .directory)
    (hkind : entries.find? at' = some .directory → entry = .directory) :
    WellPlaced (Entries.put at' entry entries) where
  distinct := nodup_locations_put h.distinct
  named l hl := (mem_locations_put.1 hl).elim (fun e => e ▸ hnamed) (h.named l)
  rooted l hl := by
    have keeps {d : Location} (hd : entries.find? d = some .directory) :
        (Entries.put at' entry entries).find? d = some .directory := by
      rw [find?_put hroot]
      split
      · rename_i hat
        rw [hkind (hat ▸ hd)]
      · exact hd
    rcases mem_locations_put.1 hl with rfl | hl
    · exact ⟨hroot, keeps hparent⟩
    · exact ⟨(h.rooted l hl).1, keeps (h.rooted l hl).2⟩

theorem locations_showing (at' : Location) (content : Bytes) (entries : Entries) :
    (showing at' content entries).locations = entries.locations := by
  simp [locations, showing, List.map_map, Function.comp_def]

theorem find?_showing (at' : Location) (content : Bytes) (entries : Entries) (l : Location) :
    (showing at' content entries).find? l = (entries.find? l).map (Entry.showing at' content) := by
  unfold find?
  split
  · rfl
  · induction entries with
    | nil => rfl
    | cons head rest ih =>
      obtain ⟨k, e⟩ := head
      unfold showing at ih ⊢
      by_cases hk : l = k
      · subst hk
        simp
      · simp only [List.map_cons, List.lookup_cons, beq_false_of_ne hk, ih]

/-- What is seen through links has no part in where things are. -/
theorem WellPlaced.showing {entries : Entries} (h : WellPlaced entries) (at' : Location)
    (content : Bytes) : WellPlaced (Entries.showing at' content entries) := by
  refine ⟨?_, fun l hl => ?_, fun l hl => ?_⟩
  · rw [locations_showing]
    exact h.distinct
  · rw [locations_showing] at hl
    exact h.named l hl
  · rw [locations_showing] at hl
    obtain ⟨hroot, hparent⟩ := h.rooted l hl
    exact ⟨hroot, by rw [find?_showing, hparent]; rfl⟩

theorem lookup_drop (at' l : Location) (entries : Entries) :
    (drop at' entries).lookup l = if at' <+: l then none else entries.lookup l := by
  induction entries with
  | nil => simp [drop]
  | cons head rest ih =>
    obtain ⟨k, e⟩ := head
    unfold drop at ih ⊢
    by_cases hk : at' <+: k
    · by_cases h : l = k
      · subst h
        simp [List.isPrefixOf_iff_prefix.2 hk, ih, hk]
      · simp [List.isPrefixOf_iff_prefix.2 hk, List.lookup_cons, beq_false_of_ne h, ih]
    · have hk' : at'.isPrefixOf k = false :=
        Bool.eq_false_iff.2 fun hp => hk (List.isPrefixOf_iff_prefix.1 hp)
      by_cases h : l = k
      · subst h
        simp [hk', hk]
      · simp [hk', List.lookup_cons, beq_false_of_ne h, ih]

theorem WellPlaced.drop {entries : Entries} (h : WellPlaced entries) (at' : Location) :
    WellPlaced (Entries.drop at' entries) where
  distinct := h.distinct.sublist (List.filter_sublist.map _)
  named l hl := h.named l ((List.filter_sublist.map _).subset hl)
  rooted l hl := by
    obtain ⟨⟨k, e⟩, hp, rfl⟩ := List.mem_map.1 hl
    obtain ⟨hmem, hkeep⟩ := List.mem_filter.1 hp
    obtain ⟨hne, hparent⟩ := h.rooted k (List.mem_map.2 ⟨_, hmem, rfl⟩)
    have habove : ¬ at' <+: k.dropLast := fun hpre => by
      simp [List.isPrefixOf_iff_prefix.2 (hpre.trans (List.dropLast_prefix k))] at hkeep
    refine ⟨hne, ?_⟩
    unfold find? at hparent ⊢
    split
    · rfl
    · rename_i hd
      rw [lookup_drop, if_neg habove]
      rwa [if_neg hd] at hparent

end Entries

end CaseHarvest
