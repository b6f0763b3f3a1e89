import CaseHarvest.Rehearsal.Condition
import CaseHarvest.Rehearsal.FilePrograms
import CaseHarvest.Rehearsal.Format
import CaseHarvest.Rehearsal.TextPrograms
/-!
The programs of the machine, where they are, and what starting a file comes to.
-/
namespace CaseHarvest.Rehearsal.Programs

/-- Programs that work at once, by their names. -/
def known : List (String × (Surroundings → List String → Effect)) :=
  [("true", fun s _ => s.leave 0), ("false", fun s _ => s.leave 1), ("echo", Format.echo),
    ("printf", Format.printf), ("test", Condition.test), ("[", Condition.bracket),
    ("mkdir", FilePrograms.mkdir), ("rmdir", FilePrograms.rmdir), ("rm", FilePrograms.rm),
    ("cp", FilePrograms.cp), ("mv", FilePrograms.mv), ("ln", FilePrograms.ln),
    ("touch", FilePrograms.touch), ("mkfifo", FilePrograms.mkfifo),
    ("chmod", FilePrograms.chmod), ("cat", TextPrograms.cat), ("head", TextPrograms.head),
    ("tail", TextPrograms.tail), ("wc", TextPrograms.wc), ("sort", TextPrograms.sort),
    ("seq", TextPrograms.seq), ("basename", TextPrograms.basename),
    ("dirname", TextPrograms.dirname), ("ls", TextPrograms.ls), ("tee", TextPrograms.tee)]

/-- Programs that run others, or take time. -/
def others : List String :=
  ["sh", "dash", "bash", "env", "nohup", "setsid", "sleep", "kill", "pwd"]

def names : List String := known.map (·.1) ++ others

/-- Programs that may read what is put in. -/
def readers : List String := ["cat", "head", "tail", "wc", "sort", "tee"]

/-- The directories with the programs. -/
def dirs : List Location := [["usr", "bin"], ["bin"]]

/-- The device that takes everything and gives nothing. -/
def nothing : Location := ["dev", "null"]

/-- What stands in a program that is no script. -/
def content : Bytes := [0x7f, 0x45, 0x4c, 0x46]

/-- Files with the machine's directories and programs. -/
def install (files : FileTree) : FileTree :=
  let directories : List Location := [["usr"], ["usr", "bin"], ["bin"], ["dev"], ["tmp"], ["root"]]
  let files := directories.foldl (fun t l => t.put l .directory) files
  let files := files.put nothing .pipe
  (dirs.flatMap fun dir => names.map fun name => dir ++ [name]).foldl
    (fun t l => t.put l (.file content true)) files

/-! ## Scripts as programs -/

/-- How many bytes of a file are looked at for an interpreter. -/
def headLength : Nat := 256

def isBlank (b : UInt8) : Bool := b = 32 || b = 9

/-- The interpreter in a first line, and its argument if there is one. A line that is cut off has to
have a blank behind the interpreter. -/
def interpreterIn? (cut : Bool) (line : Bytes) : Option (Bytes × Option Bytes) :=
  let line := line.dropWhile isBlank
  let isEnd (b : UInt8) : Bool := isBlank b || b = 0
  let name := line.takeWhile fun b => !isEnd b
  let rest := line.drop name.length
  let argument := (rest.dropWhile isBlank).takeWhile (· ≠ 0)
  if name = [] ∨ (cut ∧ rest = []) then none
  else some (name, if argument = [] then none else some argument)

/-- The interpreter that a script asks for in its first line. -/
def interpreter? (content : Bytes) : Option (Bytes × Option Bytes) :=
  match content with
  | 0x23 :: 0x21 :: rest =>
    let rest := rest.take (headLength - 2)
    let line := rest.takeWhile (· ≠ 10)
    if line.length < rest.length ∨ content.length < headLength then
      interpreterIn? false (line.reverse.dropWhile isBlank).reverse
    else interpreterIn? true (line.take (headLength - 3))
  | _ => none

/-- Where an executable file is. -/
def locate (d : Disk) (cwd : Location) (path : String) : Except Fault (Location × Bytes) := do
  let l ← d.resolve cwd path
  match d.lookup l with
  | some (.file content true) => return (l, content)
  | _ => throw .permissionDenied

/-- How many scripts may be run by one another. -/
def maxScripts : Nat := 5

/-- The machine's program that is behind a path, with its arguments. -/
def image (d : Disk) (cwd : Location) : (scripts : Nat) → (path : String) → List String →
    Except Fault (String × List String)
  | scripts, path, args => do
    let (l, content) ← locate d cwd path
    if l.dropLast ∈ dirs then return (l.getLastD "", args)
    match interpreter? content, scripts with
    | none, _ => throw .notExecutable
    | some _, 0 => throw .tooManyLinks
    | some (interpreter, argument), scripts + 1 =>
      image d cwd scripts (Octets.ofBytes interpreter)
        ((argument.map Octets.ofBytes).toList ++ path :: args)

/-- The paths at which a name may be found. A path stands for itself. -/
def candidates (searchPath : Option String) (name : String) : List String :=
  if name.toList.any Path.isSeparator then [name]
  else
    ((searchPath.map fun p => piecesBetween ':' p.toList).getD []).map fun dir =>
      if dir.isEmpty then name else Path.join (String.ofList dir) name

/-- The path of the program with a name, or the code that a shell gives for not finding it. -/
def find (d : Disk) (cwd : Location) (searchPath : Option String) (name : String) :
    Except Nat String :=
  let paths := candidates searchPath name
  match paths.find? fun path => (locate d cwd path).toOption.isSome with
  | some path => if name = "" then .error 127 else .ok path
  | none =>
    let isThere := name.toList.any Path.isSeparator && (d.find? cwd name).isSome
    .error (if isThere then 126 else 127)

end CaseHarvest.Rehearsal.Programs
