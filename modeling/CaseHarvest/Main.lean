import CaseHarvest.CommandLine.Run
import CaseHarvest.Rehearsal.Launch
/-!
The program. It reads what is below the working directory, runs the command line on that in
rehearsal, puts back what has changed, and prints.
-/
namespace CaseHarvest

/-- Whether a file can be started: only scripts can, and they say so. -/
def isScript (content : Bytes) : Bool := (Rehearsal.Programs.interpreter? content).isSome

/-- Adds what directory entries hold, at a location. -/
partial def loadEntries (at' : Location) (entries : Array IO.FS.DirEntry) (files : FileTree) :
    IO FileTree := do
  let mut files := files
  for entry in entries do
    let here := at' ++ [entry.fileName]
    if ← entry.path.isDir then
      files ← loadEntries here (← entry.path.readDir) (files.put here .directory)
    else
      let content := (← IO.FS.readBinFile entry.path).toList
      files := files.put here (.file content (isScript content))
  return files

/-- Directories from the root down to a location. -/
def withParents (files : FileTree) (l : Location) : FileTree :=
  (List.range l.length).foldl (fun t n => t.put (l.take (n + 1)) .directory) files

/-- Whether a file is still a file, or a directory a directory. -/
def keepsKind (after : FileTree) (l : Location) (entry : Entry) : Bool :=
  match after.lookup l, entry with
  | some .directory, .directory => true
  | some (.file _ _), .file _ _ => true
  | some (.link _), .file _ _ => true
  | _, _ => false

def storeFile (l : Location) (content : Bytes) : IO Unit := do
  IO.FS.createDirAll (Machine.absolutePath l.dropLast)
  IO.FS.writeBinFile (Machine.absolutePath l) (ByteArray.mk content.toArray)

/-- Puts back what has changed below a location: first what is gone, then what is new or
different. -/
def storeChanges (root : Location) (before after : FileTree) : IO Unit := do
  for (l, entry) in before.entries do
    if root.isPrefixOf l && !keepsKind after l entry && after.isDirectory l.dropLast then
      match entry with
      | .directory => IO.FS.removeDirAll (Machine.absolutePath l)
      | _ => IO.FS.removeFile (Machine.absolutePath l)
  for (l, entry) in after.entries do
    if root.isPrefixOf l && before.lookup l ≠ some entry then
      match entry with
      | .directory => IO.FS.createDirAll (Machine.absolutePath l)
      | .file content _ => storeFile l content
      | .link content => storeFile l content
      | .pipe => pure ()

/-- A line of the log. -/
def logLine (n : Notice) : String :=
  "[" ++ n.level.label ++ " " ++ n.source ++ "] " ++ n.text

end CaseHarvest

open CaseHarvest in
def main (args : List String) : IO UInt32 := do
  let here ← IO.currentDir
  let root := Path.names here.toString
  let before ← loadEntries root (← here.readDir) (withParents (Rehearsal.Programs.install .empty) root)
  let engine ← IO.getEnv engineVariable
  let filter ← IO.getEnv CommandLine.filterVariable
  let machine := Rehearsal.machine root []
  let result := CommandLine.execute machine { engine, filter } machine.idle before args
  storeChanges root before result.files
  IO.print result.printed
  for n in result.shown do
    IO.eprintln (logLine n)
  IO.eprint (CommandLine.failureText result.failure)
  if result.exitCode = 2 then IO.eprint CommandLine.helpText
  return UInt32.ofNat result.exitCode
