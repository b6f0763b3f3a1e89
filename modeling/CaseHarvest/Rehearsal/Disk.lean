import CaseHarvest.Files.Access
import CaseHarvest.Rehearsal.Octets
/-!
Files with links that are followed, and how they look to a program that knows no links.
-/
namespace CaseHarvest.Rehearsal

/-- On a disk the content of a link is the path that it leads to. -/
structure Disk where
  tree : FileTree

namespace Disk

/-- A link as it is made. Where its path leads is only looked up when it is followed. -/
def linkTo (path : Bytes) : Entry := @Entry.link [] path

def lookup (d : Disk) (l : Location) : Option Entry := d.tree.lookup l

def isDirectory (d : Disk) (l : Location) : Bool := d.tree.isDirectory l

def put (d : Disk) (l : Location) (entry : Entry) : Disk := ⟨d.tree.put l entry⟩

def erase (d : Disk) (l : Location) : Disk := ⟨d.tree.erase l⟩

/-- The path that a link leads to. -/
def target? (d : Disk) (l : Location) : Option String :=
  match d.lookup l with
  | some (.link content) => some content.readable
  | _ => none

/-- How many links a path may lead through. -/
def maxLinks : Nat := 40

/-- Where pieces of a path lead from a location; there need not be anything. What leads on from a link
is given; one at the very end is only followed if that is asked for. -/
def walkWith (d : Disk) (follow : Bool) (jump : Location → List String → Except Fault Location) :
    Location → List String → Except Fault Location
  | at', [] => .ok at'
  | at', piece :: rest =>
    let next : Except Fault Location :=
      match d.tree.step at' piece with
      | .error .notFound => if rest = [] then .ok (at' ++ [piece]) else .error .notFound
      | next => next
    match next with
    | .error fault => .error fault
    | .ok next =>
      match d.target? next with
      | none => d.walkWith follow jump next rest
      | some target =>
        if rest = [] ∧ !follow then .ok next
        else jump (FileTree.origin at' target) (Path.pieces target ++ rest)

/-- Where pieces of a path lead through at most so many links. -/
def walk (d : Disk) (follow : Bool) : (links : Nat) → Location → List String → Except Fault Location
  | 0 => d.walkWith follow fun _ _ => .error .tooManyLinks
  | links + 1 => d.walkWith follow (d.walk follow links)

/-- Where a path leads, or would lead if something were there. -/
def place (d : Disk) (cwd : Location) (path : String) (follow : Bool) : Except Fault Location := do
  let path := Octets.toText path
  FileTree.checkPath path
  d.walk follow maxLinks (FileTree.origin cwd path) (Path.pieces path)

/-- Where a path leads, if there is something. -/
def resolve (d : Disk) (cwd : Location) (path : String) : Except Fault Location := do
  let l ← d.place cwd path true
  if (d.lookup l).isSome then .ok l else .error .notFound

def find? (d : Disk) (cwd : Location) (path : String) : Option Location :=
  (d.resolve cwd path).toOption

/-- What a path leads to. -/
def entry? (d : Disk) (cwd : Location) (path : String) : Option Entry :=
  d.find? cwd path >>= d.lookup

/-- A path without separators at its end. -/
def withoutSlash (path : String) : String :=
  match path.toList.reverse.dropWhile Path.isSeparator with
  | [] => path
  | cs => String.ofList cs.reverse

/-- Where a path that may end in separators has its last component, which is not followed. -/
def placeEntry? (d : Disk) (cwd : Location) (path : String) : Option Location :=
  (d.place cwd (withoutSlash path) false).toOption

/-- What a path names, be it a link. -/
def ownEntry? (d : Disk) (cwd : Location) (path : String) : Option Entry :=
  (d.place cwd path false).toOption >>= d.lookup

/-- Gives a file a content; a file that was there stays as executable as it was. -/
def write (d : Disk) (l : Location) (content : Bytes) : Disk :=
  match d.lookup l with
  | some (.file _ executable) => d.put l (.file content executable)
  | _ => d.put l (.file content false)

def content (d : Disk) (l : Location) : Bytes :=
  match d.lookup l with
  | some (.file content _) => content
  | _ => []

/-- The names in a directory, ascending by bytes. -/
def names (d : Disk) (dir : Location) : List String :=
  ((d.tree.children dir).map fun (name, _) => Octets.ofText name).mergeSort fun a b => a ≤ b

/-! ## How it looks to a program -/

/-- What is below a location, with its place seen from there. -/
def below (d : Disk) (l : Location) : List (Location × Entry) :=
  d.tree.entries.filterMap fun (k, entry) =>
    if l.isPrefixOf k && l ≠ k then some (k.drop l.length, entry) else none

/-- A link is shown as the file that it leads to, or as a directory of its own with copies; one that
leads nowhere is not shown. -/
def showLink (d : Disk) (t : FileTree) (l : Location) : FileTree :=
  match d.walk true maxLinks [] l with
  | .error _ => t.erase l
  | .ok shown =>
    match d.lookup shown with
    | none => t.erase l
    | some (.file content _) => t.put l (@Entry.link shown content)
    | some .directory =>
      (d.below shown).foldl (fun t (k, entry) => t.put (l ++ k) entry) (t.put l .directory)
    | some entry => t.put l entry

def links (d : Disk) : List Location :=
  d.tree.entries.filterMap fun (l, entry) =>
    match entry with
    | .link _ => some l
    | _ => none

/-- The files as a program sees them. -/
def view (d : Disk) : FileTree := d.links.foldl d.showLink d.tree

/-- Whether a program has taken something away, or replaced a directory. -/
def isGone (seen now : FileTree) (l : Location) : Bool :=
  match now.lookup l with
  | none => now.isDirectory l.dropLast
  | some _ => seen.isDirectory l && !now.isDirectory l

/-- The disk after a program has turned what it saw into something else. What it has written through a
link has changed the file that the link leads to. -/
def absorb (d : Disk) (now : FileTree) : Disk :=
  if d.links = [] then ⟨now⟩
  else
    let seen := d.view
    let gone := (seen.entries.map (·.1)).filter (isGone seen now)
    let new := now.entries.filter fun (l, entry) => seen.lookup l ≠ some entry && entry.target? = none
    let change (d : Disk) (l : Location) (f : Disk → Location → Disk) : Disk :=
      (d.walk false maxLinks [] l).toOption.elim d (f d)
    let d := gone.foldl (fun d l => change d l erase) d
    new.foldl (fun d (l, entry) => change d l fun d l => d.put l entry) d

end Disk

end CaseHarvest.Rehearsal
