import CaseHarvest.Files.Fault
import CaseHarvest.Files.Path
import CaseHarvest.Files.Tree
/-!
Files by their paths, which are followed piece by piece from the root or from the working directory:
reading, writing, moving and removing, and why each of these may be refused.
-/
namespace CaseHarvest.FileTree

/-- The longest name that a directory takes, and the longest path, in bytes. -/
def maxName : Nat := 255

def maxPath : Nat := 4095

/-- From a directory to what one piece of a path names in it. -/
def step (t : FileTree) (at' : Location) (piece : String) : Except Fault Location :=
  if !t.isDirectory at' then .error .notADirectory
  else if Path.isIdle piece then .ok at'
  else if piece = ".." then .ok at'.dropLast
  else if maxName < piece.utf8ByteSize then .error .nameTooLong
  else
    match t.lookup (at' ++ [piece]) with
    | none => .error .notFound
    | some _ => .ok (at' ++ [piece])

def walk (t : FileTree) : Location → List String → Except Fault Location
  | at', [] => .ok at'
  | at', piece :: rest => do t.walk (← t.step at' piece) rest

/-- Paths that no file can have. -/
def checkPath (path : String) : Except Fault Unit :=
  if path.toList.contains '\x00' then .error .embeddedNul
  else if path = "" then .error .notFound
  else if maxPath < path.utf8ByteSize then .error .nameTooLong
  else .ok ()

def origin (cwd : Location) (path : String) : Location := if Path.isAbsolute path then [] else cwd

/-- Where a path leads, if there is something. -/
def resolve (t : FileTree) (cwd : Location) (path : String) : Except Fault Location := do
  checkPath path
  t.walk (origin cwd path) (Path.pieces path)

def exists? (t : FileTree) (cwd : Location) (path : String) : Bool :=
  (t.resolve cwd path).toOption.isSome

/-- The content of a file. -/
def read (t : FileTree) (cwd : Location) (path : String) : Except Fault Bytes := do
  match t.lookup (← t.resolve cwd path) with
  | none => .error .notFound
  | some .directory => .error .isADirectory
  | some (.file content _) => .ok content
  | some (.link content) => .ok content
  | some .pipe => .ok []

/-- What is directly in the directory that a path leads to, in the order of delivery. -/
def list (t : FileTree) (cwd : Location) (path : String) :
    Except Fault (List (String × Entry)) := do
  let at' ← t.resolve cwd path
  if t.isDirectory at' then .ok (t.children at') else .error .notADirectory

/-- The directory in which a path names an entry, and the last piece of the path. -/
def resolveParent (t : FileTree) (cwd : Location) (path : String) :
    Except Fault (Location × String) := do
  checkPath path
  let pieces := Path.pieces path
  let dir ← t.walk (origin cwd path) pieces.dropLast
  if t.isDirectory dir then .ok (dir, pieces.getLastD "") else .error .notADirectory

/-- Where a file of this path can be written. -/
def resolveNew (t : FileTree) (cwd : Location) (path : String) : Except Fault Location := do
  let (dir, name) ← t.resolveParent cwd path
  if Path.isIdle name ∨ name = ".." then .error .isADirectory
  else if maxName < name.utf8ByteSize then .error .nameTooLong
  else if t.isDirectory (dir ++ [name]) then .error .isADirectory
  else .ok (dir ++ [name])

def executableAt (t : FileTree) (at' : Location) : Bool :=
  match t.lookup at' with
  | some (.file _ executable) => executable
  | _ => false

/-- Gives the file at a location a content, which is then seen through the links to it. A file that was
there stays as executable as it was. -/
def fill (t : FileTree) (at' : Location) (content : Bytes) : FileTree :=
  (t.put at' (.file content (t.executableAt at'))).showing at' content

/-- Writes to what is at a location. A link hands the bytes on to the file that it leads to, and a pipe
to whoever reads from it. -/
def writeAt (t : FileTree) (at' : Location) (content : Bytes) : Except Fault FileTree :=
  match t.lookup at' with
  | some (@Entry.link target _) =>
    if t.isDirectory target then .error .isADirectory
    else if t.isDirectory target.dropLast then .ok (t.fill target content)
    else .error .notFound
  | some .pipe => .ok t
  | _ => .ok (t.fill at' content)

def write (t : FileTree) (cwd : Location) (path : String) (content : Bytes) :
    Except Fault FileTree := do
  t.writeAt (← t.resolveNew cwd path) content

/-- Why a device breaks off the writing of a file, and how many bytes the file has by then. A file that
the device does not even open is left as it is. -/
structure Breakdown where
  fault : Fault
  reached : Option Nat
  deriving DecidableEq, Repr

/-- Gives a file a content on a device that may break the writing off. -/
def writeOn (t : FileTree) (breakdown : Option Breakdown) (cwd : Location) (path : String)
    (content : Bytes) : FileTree × Except Fault Unit :=
  match breakdown with
  | none =>
    match t.write cwd path content with
    | .ok written => (written, .ok ())
    | .error refusal => (t, .error refusal)
  | some ⟨fault, none⟩ => (t, .error fault)
  | some ⟨fault, some reached⟩ =>
    match t.write cwd path (content.take reached) with
    | .ok written => (written, .error fault)
    | .error refusal => (t, .error refusal)

/-- The directories on a path from a location, made where there are none. -/
def makeFrom (t : FileTree) : Location → List String → Except Fault FileTree
  | at', [] => if t.isDirectory at' then .ok t else .error .notADirectory
  | at', piece :: rest =>
    match t.step at' piece with
    | .ok next => t.makeFrom next rest
    | .error .notFound => (t.put (at' ++ [piece]) .directory).makeFrom (at' ++ [piece]) rest
    | .error fault => .error fault

/-- Makes a directory and those above it, as far as they are missing. -/
def makeDirectories (t : FileTree) (cwd : Location) (path : String) : Except Fault FileTree := do
  checkPath path
  t.makeFrom (origin cwd path) (Path.pieces path)

/-- Removes a directory with all that is below it. A link is removed, not what it leads to. -/
def removeTree (t : FileTree) (cwd : Location) (path : String) : Except Fault FileTree := do
  let at' ← t.resolve cwd path
  match t.lookup at' with
  | some .directory => .ok (t.erase at')
  | some (.link _) => .ok (t.erase at')
  | _ => .error .notADirectory

/-- Where a file that is moved to a path comes to stand. -/
def resolveMove (t : FileTree) (cwd : Location) (path : String) : Except Fault Location := do
  if path.toList.contains '\x00' then throw .invalidArgument
  checkPath path
  let pieces := ((Path.pieces path).reverse.dropWhile (· = "")).reverse
  let name := pieces.getLastD ""
  let dir ← t.walk (origin cwd path) pieces.dropLast
  if !t.isDirectory dir then .error .notADirectory
  else if Path.isIdle name ∨ name = ".." then .error .busy
  else if maxName < name.utf8ByteSize then .error .nameTooLong
  else if (Path.pieces path).getLastD "" = "" then .error .notADirectory
  else if t.isDirectory (dir ++ [name]) then .error .isADirectory
  else .ok (dir ++ [name])

/-- Moves the file at a location to a path, where it takes the place of a file. -/
def move (t : FileTree) (cwd : Location) (source : Location) (path : String) :
    Except Fault FileTree := do
  let target ← t.resolveMove cwd path
  match t.lookup source with
  | none => .error .notFound
  | some entry => .ok ((t.erase source).put target entry)

end CaseHarvest.FileTree
