import CaseHarvest.Files.Entries
/-!
The files of a machine as a value: what stands at which location. Main statements: what stands where
after an entry has been put into a tree, and after a location has been erased.
-/
namespace CaseHarvest

structure FileTree where
  entries : Entries
  wellPlaced : entries.WellPlaced
  deriving DecidableEq

namespace FileTree

def empty : FileTree :=
  ⟨[], ⟨List.nodup_nil, by simp [Entries.locations], by simp [Entries.locations]⟩⟩

def lookup (t : FileTree) (at' : Location) : Option Entry := t.entries.find? at'

def isDirectory (t : FileTree) (at' : Location) : Bool := t.lookup at' = some .directory

/-- Whether an entry can stand at a location: under a name, in a directory, and not as a file in the
place of a directory. -/
def Admits (t : FileTree) (at' : Location) (entry : Entry) : Prop :=
  at' ≠ [] ∧ (∀ piece ∈ at', Path.isName piece) ∧ t.lookup at'.dropLast = some .directory
    ∧ (t.lookup at' = some .directory → entry = .directory)

instance (t : FileTree) (at' : Location) (entry : Entry) : Decidable (t.Admits at' entry) :=
  inferInstanceAs (Decidable (_ ∧ _ ∧ _ ∧ _))

/-- Puts an entry at a location, in the place of one that is there, if the tree admits it. -/
def put (t : FileTree) (at' : Location) (entry : Entry) : FileTree :=
  if h : t.Admits at' entry then
    ⟨t.entries.put at' entry, t.wellPlaced.put h.1 h.2.1 h.2.2.1 h.2.2.2⟩
  else t

/-- The links to the file at a location show a content. -/
def showing (t : FileTree) (at' : Location) (content : Bytes) : FileTree :=
  ⟨t.entries.showing at' content, t.wellPlaced.showing at' content⟩

/-- Takes away what is at a location or below it. -/
def erase (t : FileTree) (at' : Location) : FileTree :=
  ⟨t.entries.drop at', t.wellPlaced.drop at'⟩

theorem lookup_root (t : FileTree) : t.lookup [] = some .directory := rfl

theorem lookup_put {t : FileTree} {at' : Location} {entry : Entry} (h : t.Admits at' entry)
    (l : Location) : (t.put at' entry).lookup l = if l = at' then some entry else t.lookup l := by
  simp only [put, h, dite_true]
  exact Entries.find?_put h.1 l entry t.entries

theorem lookup_showing (t : FileTree) (at' : Location) (content : Bytes) (l : Location) :
    (t.showing at' content).lookup l = (t.lookup l).map (Entry.showing at' content) :=
  Entries.find?_showing at' content t.entries l

theorem lookup_erase {t : FileTree} {at' : Location} (h : at' ≠ []) (l : Location) :
    (t.erase at').lookup l = if at' <+: l then none else t.lookup l := by
  unfold erase lookup Entries.find?
  by_cases hl : l = []
  · subst hl
    simp [h]
  · simp [hl, Entries.lookup_drop]

/-- The name of an entry of a directory, seen from the directory. -/
def childName? (dir l : Location) : Option String :=
  if l.dropLast = dir then l.getLast? else none

/-- What is directly in a directory, in the order of delivery. -/
def children (t : FileTree) (dir : Location) : List (String × Entry) :=
  t.entries.filterMap fun (l, e) => (childName? dir l).map fun name => (name, e)

end FileTree

end CaseHarvest
