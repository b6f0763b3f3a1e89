import CaseHarvest.Machine.Activity
import CaseHarvest.Rehearsal.Parser
import CaseHarvest.Rehearsal.Program
/-!
Processes that run side by side on one disk, each with a stack of what it has left to do.
-/
namespace CaseHarvest.Rehearsal

/-- What a channel of a process leads to. -/
inductive Stream where
  /-- Ends at once, and takes everything. -/
  | nothing
  | file (at' : Location) (position : Nat) (append : Bool)
  /-- What has been written to a pipe and not been read yet. -/
  | pipe (content : Bytes)

structure Channel where
  /-- The number of the stream. Several channels may lead to one. -/
  stream : Nat
  writes : Bool

/-- What a shell knows. -/
structure Shell where
  /-- Whether only the standard forms are known. -/
  strict : Bool
  /-- What the script calls itself. -/
  name : String
  args : List String
  vars : Variables
  exported : List String := []
  constant : List String := []
  functions : List (String × Statement) := []
  options : List Char := []
  /-- Scripts to be run when a signal comes, or at the end. -/
  traps : List (String × String) := []
  /-- The exit code of the last command. -/
  status : Nat := 0
  /-- The exit code of the last script whose output went into a word of this command. -/
  outputStatus : Nat := 0
  /-- What the script knows its own process by. -/
  processId : Nat := 0
  /-- The statements that were not waited for, the last one first. -/
  jobs : List Nat := []
  /-- What the variables were that the functions under way have of their own, innermost first. -/
  hidden : List (List (String × Option String)) := []

/-- What a process has left to do. -/
inductive Frame where
  /-- The rest of a script. -/
  | lines (tokens : List Token)
  | script (s : Script)
  /-- A statement, with the outputs of scripts in its words that are already there. -/
  | statement (s : Statement) (outputs : List String)
  | andThen (s : Statement)
  | orElse (s : Statement)
  | negate
  | branch (yes no : Script)
  | loop (untilSuccess : Bool) (condition body : Script)
  /-- The condition of a loop has been run; the body had this code before. -/
  | decide (untilSuccess : Bool) (condition body : Script) (last : Nat)
  | each (name : String) (values : List String) (body : Script)
  /-- The end of a function, with the arguments of the caller. -/
  | callEnd (args : List String)
  /-- The end of a script that was read in. -/
  | sourceEnd
  | restoreChannels (channels : List (Nat × Channel))
  /-- Variables were set for a while; what they were, and whether programs saw them. -/
  | restoreVars (old : List (String × Option String × Bool))
  | restoreStatus (status : Nat)
  /-- Failures matter again. -/
  | unguard
  /-- A failure ends the process, if it shall and failures matter. -/
  | check
  | awaitChild (id : Nat)
  | awaitJobs (ids : List Nat)
  | sleep (until' : Nat)
  /-- All output of a script in a word has come. -/
  | collect (stream child : Nat) (s : Statement) (outputs : List String)
  /-- Reads a line into variables. -/
  | readLine (raw : Bool) (names : List String)
  /-- Another program takes over the process. -/
  | start (words : List String)
  /-- A small program does its work. -/
  | program (name : String) (args : List String)
  /-- The end of a shell. -/
  | farewell
  /-- Nothing will ever happen. -/
  | stuck

structure Process where
  id : Nat
  group : Nat
  cwd : Location
  channels : List (Nat × Channel)
  shell : Shell
  todo : List Frame
  /-- In how many places around failures do not matter. -/
  guards : Nat := 0
  /-- Whether it does nothing but go round in circles. -/
  spinning : Bool := false

/-- A process that is no more. -/
structure Past where
  id : Nat
  time : Nat
  status : ExitStatus
  /-- What a shell makes of the status. -/
  code : Nat

structure World where
  disk : Disk
  now : Nat
  processes : List Process
  past : List Past
  /-- The streams by their numbers. Number zero leads to nothing. -/
  streams : Array Stream
  nextId : Nat
  /-- The steps since the time went on. -/
  steps : Nat

namespace Shell

def lookup? (s : Shell) (name : String) : Option String := s.vars.lookup name

def set (s : Shell) (name value : String) : Shell :=
  let vars := (name, value) :: s.vars.filter (·.1 ≠ name)
  let exported := if s.options.contains 'a' && name ∉ s.exported then name :: s.exported
    else s.exported
  { s with vars, exported }

def unset (s : Shell) (name : String) : Shell :=
  { s with vars := s.vars.filter (·.1 ≠ name), exported := s.exported.filter (· ≠ name) }

def share (s : Shell) (name : String) : Shell :=
  if name ∈ s.exported then s else { s with exported := name :: s.exported }

def withStatus (s : Shell) (status : Nat) : Shell := { s with status }

def has (s : Shell) (option : Char) : Bool := s.options.contains option

/-- The variables that other programs get to see. -/
def environment (s : Shell) : Variables := s.vars.filter (·.1 ∈ s.exported)

/-- Gives a variable back what it was before a function had one of its own. -/
def reveal (s : Shell) : Shell :=
  match s.hidden with
  | [] => s
  | here :: hidden =>
    here.foldl (fun s (name, old) => old.elim (s.unset name) (s.set name)) { s with hidden }

/-- Gives a variable back what it was, and shows it to programs only if they saw it before. -/
def restore (s : Shell) (old : String × Option String × Bool) : Shell :=
  let (name, value, shown) := old
  let s := value.elim (s.unset name) (s.set name)
  if shown then s.share name else { s with exported := s.exported.filter (· ≠ name) }

/-- The shell that a part of the script has as a process of its own. Only signals that are let pass
are still heeded. -/
def forked (s : Shell) : Shell := { s with jobs := [], traps := s.traps.filter (·.2 = "") }

end Shell

namespace Process

def withStatus (p : Process) (status : Nat) : Process :=
  { p with shell := p.shell.withStatus status }

def push (p : Process) (frames : List Frame) : Process := { p with todo := frames ++ p.todo }

def setChannel (p : Process) (number : Nat) (channel : Channel) : Process :=
  { p with channels := (number, channel) :: p.channels.filter (·.1 ≠ number) }

def closeChannel (p : Process) (number : Nat) : Process :=
  { p with channels := p.channels.filter (·.1 ≠ number) }

/-- What leaving a frame behind brings back. -/
def undo (p : Process) : Frame → Process
  | .callEnd args => { p with shell := { p.shell.reveal with args } }
  | .restoreChannels channels => { p with channels }
  | .restoreVars old => { p with shell := old.foldl Shell.restore p.shell }
  | .unguard => { p with guards := p.guards - 1 }
  | _ => p

/-- Leaves frames behind up to one that passes a test. -/
def unwind (stop : Frame → Bool) (p : Process) : (todo : List Frame) → Process
  | [] => { p with todo := [] }
  | frame :: rest =>
    if stop frame then { p with todo := frame :: rest } else unwind stop (p.undo frame) rest

def isFarewell : Frame → Bool
  | .farewell => true
  | _ => false

/-- Ends the shell of a process with a code. -/
def exit (p : Process) (code : Nat) : Process :=
  (unwind isFarewell p p.todo).withStatus (code % 256)

def writesTo (p : Process) (stream : Nat) : Bool :=
  p.channels.any fun (_, c) => c.stream = stream && c.writes

end Process

namespace World

def stream (w : World) (number : Nat) : Stream := w.streams.getD number .nothing

def setStream (w : World) (number : Nat) (s : Stream) : World :=
  { w with streams := w.streams.setIfInBounds number s }

/-- A new stream, with its number. -/
def addStream (w : World) (s : Stream) : World × Nat :=
  ({ w with streams := w.streams.push s }, w.streams.size)

/-- Puts back a process that has changed. -/
def update (w : World) (p : Process) : World :=
  { w with processes := w.processes.map fun q => if q.id = p.id then p else q }

/-- Adds a process that goes on like another one, but with its own things to do. -/
def fork (w : World) (p : Process) (todo : List Frame) : World × Nat :=
  let child : Process :=
    { p with id := w.nextId, shell := p.shell.forked, todo, spinning := false }
  ({ w with processes := w.processes ++ [child], nextId := w.nextId + 1 }, w.nextId)

/-- Takes a process out of those that run. -/
def finish (w : World) (p : Process) (status : ExitStatus) (code : Nat) : World :=
  { w with
    processes := w.processes.filter (·.id ≠ p.id)
    past := ⟨p.id, w.now, status, code⟩ :: w.past }

def past? (w : World) (id : Nat) : Option Past := w.past.find? (·.id = id)

/-- Whether something may still be written to a pipe. -/
def isOpen (w : World) (number : Nat) : Bool :=
  match w.stream number with
  | .pipe _ => w.processes.any (·.writesTo number)
  | _ => false

/-! ## Reading and writing -/

/-- The bytes that can be read from a stream now. -/
def available (w : World) (stream : Nat) : Bytes :=
  match w.stream stream with
  | .nothing => []
  | .file l position _ => (w.disk.content l).drop position
  | .pipe content => content

/-- Takes bytes from the front of a stream. -/
def skip (w : World) (stream count : Nat) : World :=
  match w.stream stream with
  | .nothing => w
  | .file l position append => w.setStream stream (.file l (position + count) append)
  | .pipe content => w.setStream stream (.pipe (content.drop count))

/-- Puts bytes into a file from a position on, behind zeros if the file ends before that. -/
def spliced (content : Bytes) (position : Nat) (bytes : Bytes) : Bytes :=
  content.take position ++ List.replicate (position - content.length) 0 ++ bytes
    ++ content.drop (position + bytes.length)

def write (w : World) (stream : Nat) (bytes : Bytes) : World :=
  match w.stream stream, bytes with
  | .nothing, _ => w
  | _, [] => w
  | .pipe content, bytes => w.setStream stream (.pipe (content ++ bytes))
  | .file l position append, bytes =>
    match w.disk.lookup l with
    | some (.file content executable) =>
      let position := if append then content.length else position
      let written := Entry.file (spliced content position bytes) executable
      { w with disk := w.disk.put l written }.setStream stream
        (.file l (position + bytes.length) append)
    | _ => w

/-- Writes to a channel of a process, if it has it. -/
def print? (w : World) (p : Process) (channel : Nat) (bytes : Bytes) : Option World :=
  match p.channels.lookup channel with
  | some c => if c.writes then some (w.write c.stream bytes) else none
  | none => none

end World

end CaseHarvest.Rehearsal
