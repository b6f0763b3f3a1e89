import CaseHarvest.Rehearsal.Program
/-!
The programs that make, copy, move and remove files. One that cannot do all that it is asked for
does the rest and fails.
-/
namespace CaseHarvest.Rehearsal

namespace FilePrograms

/-- The last name in a path. -/
def lastName (path : String) : String :=
  (Path.pieces (Disk.withoutSlash (Octets.toText path))).getLastD ""

/-- Whether a path leads to a directory itself, by a name that is none. -/
def isIdle (path : String) : Bool := lastName path = "." || lastName path = ".."

def endsInSlash (path : String) : Bool := path.toList.getLast?.any Path.isSeparator

/-! ## Making -/

def mkdirOptions : Options :=
  ⟨"pv", "mZ", [("parents", 'p'), ("verbose", 'v'), ("mode", 'm')]⟩

def makeDirectory (cwd : Location) (d : Disk) (path : String) : Attempted :=
  Attempted.ofOption d <| do
    let l ← d.placeEntry? cwd path
    if (d.lookup l).isSome then none else some (d.put l .directory)

/-- Makes the directories on a path as far as they are missing. -/
def makeDirectories : Disk → Location → List String → Attempted
  | d, _, [] => (d, true)
  | d, at', piece :: rest =>
    match d.walk true Disk.maxLinks at' [piece] with
    | .error _ => (d, false)
    | .ok l =>
      match d.lookup l with
      | some .directory => makeDirectories d l rest
      | some _ => (d, false)
      | none =>
        if (d.lookup (at' ++ [piece])).isSome then (d, false)
        else makeDirectories (d.put l .directory) l rest

def mkdir (s : Surroundings) (args : List String) : Effect :=
  match mkdirOptions.read? none args with
  | some (found, path :: paths) =>
    let make (d : Disk) (path : String) : Attempted :=
      if found.has 'p' then
        let path := Octets.toText path
        if path = "" then (d, false)
        else makeDirectories d (FileTree.origin s.cwd path) (Path.pieces path)
      else makeDirectory s.cwd d path
    (Attempted.forEach s.disk (path :: paths) make).effect
  | _ => s.leave 1

def mkfifo (s : Surroundings) (args : List String) : Effect :=
  match (Options.mk "" "mZ" [("mode", 'm')]).read? none args with
  | some (_, path :: paths) =>
    let make (d : Disk) (path : String) : Attempted :=
      Attempted.ofOption d <| do
        let l ← d.placeEntry? s.cwd path
        if (d.lookup l).isSome ∨ endsInSlash path then none else some (d.put l .pipe)
    (Attempted.forEach s.disk (path :: paths) make).effect
  | _ => s.leave 1

def touchOptions : Options :=
  ⟨"acfhm", "drt", [("no-create", 'c'), ("date", 'd'), ("reference", 'r'), ("time", 't'),
    ("no-dereference", 'h')]⟩

def touch (s : Surroundings) (args : List String) : Effect :=
  match touchOptions.read? none args with
  | some (found, path :: paths) =>
    let one (d : Disk) (path : String) : Attempted :=
      Attempted.ofOption d <| do
        let l ← (d.place s.cwd path true).toOption
        if (d.lookup l).isSome ∨ found.has 'c' then some d else some (d.write l [])
    (Attempted.forEach s.disk (path :: paths) one).effect
  | _ => s.leave 1

/-- Whether a file can be run after one part of a mode, where it could before or not. -/
def runnablePart (before : Bool) (part : List Char) : Bool :=
  let rights := part.dropWhile fun c => c ∉ ['+', '-', '=']
  match rights with
  | '+' :: rights => before || rights.contains 'x'
  | '-' :: rights => before && !rights.contains 'x'
  | '=' :: rights => rights.contains 'x'
  | _ => before

/-- Whether a file can be run after its mode has been changed. -/
def runnable (before : Bool) (mode : String) : Bool :=
  let cs := mode.toList
  if cs.all Char.isDigit then cs.any fun c => c.toNat % 2 = 1
  else (piecesBetween ',' cs).foldl runnablePart before

def chmod (s : Surroundings) (args : List String) : Effect :=
  match args.filter (· ∉ ["-R", "-f", "-v", "-c"]) with
  | mode :: path :: paths =>
    let one (d : Disk) (path : String) : Attempted :=
      Attempted.ofOption d <| do
        let l ← d.find? s.cwd path
        match d.lookup l with
        | some (.file content executable) =>
          some (d.put l (.file content (runnable executable mode)))
        | _ => some d
    (Attempted.forEach s.disk (path :: paths) one).effect
  | _ => s.leave 1

/-! ## Removing -/

def isEmptyDirectory (d : Disk) (l : Location) : Bool := (d.below l).isEmpty

def rmdir (s : Surroundings) (args : List String) : Effect :=
  let options : Options := ⟨"pv", "", [("parents", 'p'), ("verbose", 'v')]⟩
  match options.read? none args with
  | some (found, path :: paths) =>
    let one (d : Disk) (path : String) : Attempted :=
      Attempted.ofOption d <| do
        let l ← d.placeEntry? s.cwd path
        if l = [] ∨ isIdle path ∨ !d.isDirectory l ∨ !isEmptyDirectory d l then none
        else some (d.erase l)
    let above (path : String) : List String :=
      (List.range ((Path.names path).length - 1)).reverse.map fun n =>
        "/".intercalate ((Path.names path).take (n + 1))
    let all := (path :: paths).flatMap fun p => if found.has 'p' then p :: above p else [p]
    (Attempted.forEach s.disk all one).effect
  | _ => s.leave 1

def rmOptions : Options :=
  ⟨"fiIrRdv", "", [("force", 'f'), ("recursive", 'r'), ("dir", 'd'), ("verbose", 'v')]⟩

def remove (cwd : Location) (found : Found) (d : Disk) (path : String) : Attempted :=
  if isIdle path then (d, false)
  else
    match d.placeEntry? cwd path with
    | none => (d, found.has 'f')
    | some l =>
      match d.lookup l with
      | none => (d, found.has 'f')
      | some .directory =>
        if l ≠ [] ∧ (found.hasAny "rR" ∨ (found.has 'd' ∧ isEmptyDirectory d l)) then
          (d.erase l, true)
        else (d, false)
      | some _ => if endsInSlash path then (d, false) else (d.erase l, true)

def rm (s : Surroundings) (args : List String) : Effect :=
  match rmOptions.read? none args with
  | some (found, paths) =>
    if paths.isEmpty && !found.has 'f' then s.leave 1
    else (Attempted.forEach s.disk paths (remove s.cwd found)).effect
  | none => s.leave 1

/-! ## Copying, moving and linking -/

/-- Where something goes: into a directory under its old name, or to the place of the path. -/
def destination? (d : Disk) (cwd : Location) (found : Found) (source target : String) :
    Option Location :=
  match d.find? cwd target with
  | some l =>
    if d.isDirectory l && !found.has 'T' then
      if isIdle source ∨ lastName source = "" then some l else some (l ++ [lastName source])
    else d.placeEntry? cwd target
  | none => d.placeEntry? cwd target

/-- Sources and where each goes, if the operands fit together. -/
def pairs? (d : Disk) (cwd : Location) (found : Found) (operands : List String) :
    Option (List String × String) :=
  match found.value? 't' with
  | some dir =>
    if operands.isEmpty ∨ d.entry? cwd dir ≠ some .directory then none else some (operands, dir)
  | none =>
    match operands.reverse with
    | target :: source :: rest =>
      if rest ≠ [] ∧ d.entry? cwd target ≠ some .directory then none
      else some ((source :: rest).reverse, target)
    | _ => none

/-- Gives a file the content of another one. -/
def copyFile (d : Disk) (content : Bytes) (executable : Bool) (target : Location) : Attempted :=
  Attempted.ofOption d <| do
    let l ← (d.walk true Disk.maxLinks [] target).toOption
    match d.lookup l with
    | some .directory => none
    | some .pipe => some d
    | some _ => some (d.write l content)
    | none => if (d.lookup target).isSome then none else some (d.put l (.file content executable))

def copyEntry (d : Disk) (entry : Entry) (target : Location) : Attempted :=
  match entry with
  | .file content executable => copyFile d content executable target
  | .directory =>
    match (d.walk true Disk.maxLinks [] target).toOption >>= d.lookup with
    | some .directory => (d, true)
    | some _ => (d, false)
    | none => if d.isDirectory target.dropLast then (d.put target .directory, true) else (d, false)
  | other => if d.isDirectory target then (d, false) else (d.put target other, true)

/-- Copies what is at a location and below it, directories before what is in them. -/
def copyAll (d : Disk) (source target : Location) : Attempted :=
  let isInside (l : Location) : Bool := target.isPrefixOf l && source ≠ target
  let copied := (d.below source).filter fun (k, _) => !isInside (source ++ k)
  let copied := copied.mergeSort fun (k, _) (l, _) => k.length ≤ l.length
  let (d, ok) := copyEntry d .directory target
  if !ok then (d, false)
  else
    let (d, ok) := Attempted.forEach d copied fun d (k, entry) => copyEntry d entry (target ++ k)
    (d, ok && !source.isPrefixOf target)

def cpOptions : Options :=
  ⟨"abdfHilLnPpRrsTuvx", "tS", [("recursive", 'r'), ("archive", 'a'), ("force", 'f'),
    ("no-clobber", 'n'), ("verbose", 'v'), ("preserve", 'p'), ("target-directory", 't'),
    ("no-target-directory", 'T'), ("update", 'u'), ("dereference", 'L'), ("link", 'l'),
    ("symbolic-link", 's')]⟩

def copy (cwd : Location) (found : Found) (target : String) (d : Disk) (source : String) :
    Attempted :=
  let recursive := found.hasAny "rRa"
  let source? := if recursive && !found.hasAny "LH" || found.hasAny "Pd" then
      (d.place cwd source false).toOption
    else d.find? cwd source
  match source?, destination? d cwd found source target with
  | some from', some onto =>
    let same := (d.walk true Disk.maxLinks [] onto).toOption = some from'
    if found.has 'n' && (d.lookup onto).isSome then (d, true)
    else
      match d.lookup from' with
      | none => (d, false)
      | some .directory => if recursive && !same then copyAll d from' onto else (d, false)
      | some entry =>
        if same ∨ (endsInSlash target ∧ d.find? cwd target = none) then (d, false)
        else if entry = .pipe ∧ !recursive then copyFile d [] false onto
        else copyEntry d entry onto
  | _, _ => (d, false)

def cp (s : Surroundings) (args : List String) : Effect :=
  match cpOptions.read? none args with
  | none => s.leave 1
  | some (found, operands) =>
    match pairs? s.disk s.cwd found operands with
    | none => s.leave 1
    | some (sources, target) =>
      (Attempted.forEach s.disk sources (copy s.cwd found target)).effect

/-- Moves what is at a location and below it. -/
def moveAll (d : Disk) (source target : Location) : Disk :=
  let moved := ((d.lookup source).toList.map (([], ·))) ++
    (d.below source).mergeSort fun (k, _) (l, _) => k.length ≤ l.length
  moved.foldl (fun d (k, entry) => d.put (target ++ k) entry) ((d.erase target).erase source)

def move (cwd : Location) (found : Found) (target : String) (d : Disk) (source : String) :
    Attempted :=
  match d.placeEntry? cwd source, destination? d cwd found source target with
  | some from', some onto =>
    let isDirectory := d.isDirectory from'
    let admitted : Bool := match d.lookup onto with
      | none => isDirectory || !endsInSlash target || d.find? cwd target ≠ none
      | some .directory => isDirectory && isEmptyDirectory d onto
      | some _ => !isDirectory
    if (d.lookup from').isNone ∨ isIdle source then (d, false)
    else if from'.isPrefixOf onto ∨ onto.isPrefixOf from' then (d, false)
    else if found.has 'n' && (d.lookup onto).isSome then (d, true)
    else if admitted then (moveAll d from' onto, true)
    else (d, false)
  | _, _ => (d, false)

def mvOptions : Options :=
  ⟨"bfinTuvZ", "tS", [("force", 'f'), ("no-clobber", 'n'), ("verbose", 'v'),
    ("target-directory", 't'), ("no-target-directory", 'T'), ("update", 'u')]⟩

def mv (s : Surroundings) (args : List String) : Effect :=
  match mvOptions.read? none args with
  | none => s.leave 1
  | some (found, operands) =>
    match pairs? s.disk s.cwd found operands with
    | none => s.leave 1
    | some (sources, target) =>
      (Attempted.forEach s.disk sources (move s.cwd found target)).effect

def lnOptions : Options :=
  ⟨"bdfFiLnPrsTv", "tS", [("symbolic", 's'), ("force", 'f'), ("no-dereference", 'n'),
    ("verbose", 'v'), ("target-directory", 't'), ("no-target-directory", 'T')]⟩

/-- A link holds the path that it was made with. Another name for a file is a second file with the
same content. -/
def link (cwd : Location) (found : Found) (target : String) (d : Disk) (source : String) :
    Attempted :=
  let onto? := if found.has 'n' && (d.ownEntry? cwd target).any (· ≠ .directory) then
      d.placeEntry? cwd target
    else destination? d cwd found source target
  let entry? : Option Entry :=
    if found.has 's' then some (Disk.linkTo (Octets.toBytes source)) else d.ownEntry? cwd source
  match onto?, entry? with
  | some onto, some entry =>
    if entry = .directory ∨ (found.has 's' ∧ source = "") then (d, false)
    else
      match d.lookup onto with
      | none => if endsInSlash target ∧ d.find? cwd target = none then (d, false)
        else (d.put onto entry, true)
      | some .directory => (d, false)
      | some _ =>
        if found.has 'f' ∧ d.placeEntry? cwd source ≠ some onto then (d.put onto entry, true)
        else (d, false)
  | _, _ => (d, false)

def ln (s : Surroundings) (args : List String) : Effect :=
  match lnOptions.read? none args with
  | none => s.leave 1
  | some (found, operands) =>
    match found.value? 't', operands with
    | none, [source] => (link s.cwd found "." s.disk source).effect
    | _, operands =>
      match pairs? s.disk s.cwd found operands with
      | none => s.leave 1
      | some (sources, target) =>
        (Attempted.forEach s.disk sources (link s.cwd found target)).effect

end FilePrograms

end CaseHarvest.Rehearsal
