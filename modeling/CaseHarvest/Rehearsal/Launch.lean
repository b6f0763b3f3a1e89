import CaseHarvest.Rehearsal.Step
/-!
A machine on which engines are shell scripts: starting one tells at once what it and all others will
do over time.
-/
namespace CaseHarvest.Rehearsal

/-- The world in which nothing runs. -/
def World.idle : World where
  disk := ⟨.empty⟩
  now := 0
  processes := []
  past := []
  streams := #[.nothing]
  nextId := 2
  steps := 0

/-- How many steps a world is watched for. What has not ended then is taken never to end. -/
def foresight : Nat := 120000

/-- How long a process takes before it does anything, in nanoseconds. -/
def startDelay : Nat := 1000000

/-- The path that a program is started from, which may not be a file that can be started. -/
def programPath (d : Disk) (cwd : Location) (searchPath program : String) : Except Fault String :=
  if program.toList.any Path.isSeparator then .ok program
  else if program = "" then .error .notFound
  else
    let paths := Programs.candidates (some searchPath) program
    match paths.find? fun path => (Programs.locate d cwd path).toOption.isSome with
    | some path => .ok path
    | none => .error (if paths.any fun path => (d.find? cwd path).isSome then .permissionDenied
        else .notFound)

/-- A process that is about to start a program, in a group of its own. Its channels lead nowhere. -/
def leader (w : World) (cwd : Location) (env : Variables) (words : List String) : Process where
  id := w.nextId
  group := w.nextId
  cwd := cwd
  channels := [(0, ⟨0, false⟩), (1, ⟨0, true⟩), (2, ⟨0, true⟩)]
  shell := { strict := true, name := "", args := [], vars := env, exported := env.map (·.1) }
  todo := [.sleep (w.now + startDelay), .start words]

/-- Adds a process that is started from outside. -/
def World.begin (w : World) (p : Process) : World :=
  { w with processes := w.processes ++ [p], nextId := w.nextId + 1 }

/-- Takes all processes of a group out of those that run. The kill is taken as instantaneous: none of
them takes another step. -/
def World.killGroup (w : World) (group : Nat) : World :=
  { w with processes := w.processes.filter (·.group ≠ group) }

/-- The world a while later. -/
def World.after (w : World) (time : Nat) : World :=
  { run (some (w.now + time)) foresight w with now := w.now + time }

/-- What a group of processes does beside all others. -/
def activityOf (w : World) (group : Nat) : Activity World :=
  { ending := ((World.runUntilOver group foresight w).past? group).map fun p => (p.time - w.now, p.status)
    files := fun time => (w.after time).disk.view
    running := w.after
    spared := fun time => (w.after time).killGroup group }

/-- What starting a command leads to. Waiting for it may be made to fail. -/
def launch (cwd : Location) (env : Variables) (failing : World → Command → Option (Nat × Fault))
    (w : World) (files : FileTree) (command : Command) : Except Fault (Activity World) := do
  if (command.program :: command.args).any (·.toList.contains '\x00') then
    throw .embeddedNulInCommand
  let failing := failing w command
  let w := { w with disk := w.disk.absorb files }
  let args := command.args.map Octets.ofText
  let path ← programPath w.disk cwd ((env.lookup "PATH").getD "") (Octets.ofText command.program)
  let _ ← Programs.image w.disk cwd Programs.maxScripts path args
  let p := leader w cwd env (path :: args)
  return { activityOf (w.begin p) p.id with failing }

/-- What programs find in their environment unless it is given. -/
def usualEnvironment : Variables := [("PATH", "/usr/bin:/bin"), ("HOME", "/root")]

/-- The machine, with a working directory and an environment. -/
def machine (cwd : Location) (environment : List (String × String))
    (failing : World → Command → Option (Nat × Fault) := fun _ _ => none) : Machine :=
  let given := environment.map fun (name, value) => (Octets.ofText name, Octets.ofText value)
  let env := given ++ usualEnvironment.filter fun (name, _) => given.all (·.1 ≠ name)
  let value (name : String) : String := Octets.toText ((env.lookup name).getD "")
  { Running := World
    idle := .idle
    workingDir := cwd
    searchPath := Machine.searchDirs (value "HOME") (value "PATH")
    launch := launch cwd env failing }

end CaseHarvest.Rehearsal
