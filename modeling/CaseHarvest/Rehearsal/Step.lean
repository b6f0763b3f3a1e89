import CaseHarvest.Rehearsal.Builtin
/-!
One step of a process: it takes the first thing that it has left to do.
-/
namespace CaseHarvest.Rehearsal

/-- What opening a file for a channel comes to. -/
inductive Opened where
  | channel (w : World) (c : Channel)
  | closed
  | failed
  /-- A pipe with a name, whose other end nobody has. -/
  | blocked

namespace Opened

def nothing (w : World) (writes : Bool) : Opened := channel w ⟨0, writes⟩

def stream (w : World) (s : Stream) (writes : Bool) : Opened :=
  let (w, number) := w.addStream s
  channel w ⟨number, writes⟩

def copy (w : World) (p : Process) (target : String) : Opened :=
  if target = "-" then closed
  else
    match target.toNat? >>= fun n => p.channels.lookup n with
    | some c => channel w c
    | none => failed

/-- The channel that a path of a device stands for. -/
def device? (path : String) : Option String :=
  if path = "/dev/stdin" then some "0"
  else if path = "/dev/stdout" then some "1"
  else if path = "/dev/stderr" then some "2"
  else none

def read (w : World) (p : Process) (path : String) : Opened :=
  match w.disk.find? p.cwd path with
  | none => failed
  | some l =>
    match w.disk.lookup l with
    | some (.file _ _) => stream w (.file l 0 false) false
    | some .pipe => if l = Programs.nothing then nothing w false else blocked
    | _ => nothing w false

/-- Opens a file for output, which is made if it is not there. -/
def write (w : World) (p : Process) (path : String) (keep append : Bool) : Opened :=
  match w.disk.place p.cwd path true with
  | .error _ => failed
  | .ok l =>
    match w.disk.lookup l with
    | some .directory => failed
    | some .pipe => if l = Programs.nothing then nothing w true else blocked
    | some _ =>
      let disk := if keep then w.disk else w.disk.write l []
      stream { w with disk } (.file l 0 append) true
    | none => stream { w with disk := w.disk.write l [] } (.file l 0 append) true

/-- Whether output would take the place of a file that is protected. -/
def isProtected (w : World) (p : Process) (path : String) : Bool :=
  p.shell.has 'C' && (w.disk.entry? p.cwd path).any Condition.isFile

def of (w : World) (p : Process) (kind : RedirectionKind) (target : String) : Opened :=
  match device? target with
  | some number => if kind = .text then stream w (.pipe (Octets.toBytes target)) false
    else copy w p number
  | none =>
    match kind with
    | .input => read w p target
    | .output => if isProtected w p target then failed else write w p target false false
    | .overwrite => write w p target false false
    | .append => write w p target true true
    | .both => write w p target true false
    | .copy => copy w p target
    | .text => stream w (.pipe (Octets.toBytes target)) false

end Opened

/-- What has become of opening all files of a statement. -/
inductive Redirected where
  | done (w : World) (p : Process)
  | failed (w : World)
  | blocked

/-- Leads channels of a process to where they shall lead, in order. -/
def redirect (w : World) (p : Process) : List (Nat × RedirectionKind × String) → Redirected
  | [] => .done w p
  | (number, kind, target) :: rest =>
    match Opened.of w p kind target with
    | .channel w c => redirect w (p.setChannel number c) rest
    | .closed => redirect w (p.closeChannel number) rest
    | .failed => .failed w
    | .blocked => .blocked

namespace Step

open Builtin

/-- Starts a program in the process. -/
def start (w : World) (p : Process) (words : List String) : World :=
  w.update { p with todo := [.start words] }

/-- Runs a script for its output, and then goes on with the statement that needs it. -/
def forOutput (w : World) (p : Process) (source : List Char) (s : Statement)
    (outputs : List String) : World :=
  let (w, stream) := w.addStream (.pipe [])
  let child := { p.setChannel 1 ⟨stream, true⟩ with guards := 0 }
  let (w, id) := w.fork child [.lines (Token.ofText source), .farewell]
  w.update (p.push [.collect stream id s outputs])

/-- Expands words of a statement and goes on with what they stand for. -/
def expanding {α : Type} (w : World) (p : Process) (s : Statement) (outputs : List String)
    (e : Setting → Expand α) (go : α → Process → World) : World :=
  match (e ⟨w.disk, p.cwd, p.shell.strict⟩).run ⟨p.shell, outputs⟩ with
  | .ok (a, e) => go a { p with shell := e.shell }
  | .error (.failed code) => w.update (p.exit code)
  | .error (.output source) => forOutput w p source s outputs

/-- Where the channels of a statement shall lead. -/
def targets : List Redirection → Expand (List (Nat × RedirectionKind × String))
  | [] => return []
  | r :: rest => do
    let target ← Expand.whole r.target
    return (r.channel, r.kind, target) :: (← targets rest)

/-- The code for a redirection that fails. -/
def redirectionFailure (p : Process) : Nat := if p.shell.strict then 2 else 1

/-- Calls a function. -/
def call (w : World) (p : Process) (body : Statement) (args : List String) : World :=
  let shell := { p.shell with args, hidden := [] :: p.shell.hidden }
  w.update { p with shell, todo := .statement body [] :: .callEnd p.shell.args :: p.todo }

/-- Runs a program as a process of its own. -/
def spawn (w : World) (p : Process) (words : List String) : World :=
  let (w, id) := w.fork p [.start words]
  w.update (p.push [.awaitChild id])

/-- Tells where a command would be found. -/
def whereIs (w : World) (p : Process) (name : String) : World :=
  let missing := if p.shell.strict then 127 else 1
  let isOwn := (Builtin.find? p.shell.strict name).isSome || name ∈ ["command", "exec", "type"]
    || (p.shell.functions.lookup name).isSome || name ∈ Script.openers ++ Script.closers
  if isOwn then
    settle w p { disk := w.disk, output := Octets.toBytes (name ++ "\n") }
  else
    match Programs.find w.disk p.cwd (p.shell.lookup? "PATH") name with
    | .ok path => settle w p { disk := w.disk, output := Octets.toBytes (path ++ "\n") }
    | .error _ => conclude w p missing

/-- Runs a command: what the shell does itself, a function, or a program. -/
def invoke (functions : Bool) (w : World) (p : Process) : List String → World
  | [] => conclude w p 0
  | "command" :: "-v" :: name :: _ => whereIs w p name
  | "command" :: "-V" :: name :: _ => whereIs w p name
  | "command" :: rest => invoke false w p rest
  | "type" :: name :: _ => whereIs w p name
  | name :: args =>
    let function? := if functions then p.shell.functions.lookup name else none
    match Builtin.special.lookup name, function?, Builtin.find? p.shell.strict name with
    | some act, _, _ => act w p args
    | none, some body, _ => call w p body args
    | none, none, some act => act w p args
    | none, none, none => spawn w p (name :: args)

/-- What is there to be done once the words of a command are known. -/
structure Prepared where
  words : List String
  targets : List (Nat × RedirectionKind × String)

def prepare (assignments : List (String × Word)) (words : List Word)
    (redirections : List Redirection) (s : Setting) : Expand Prepared := do
  let words ← Expand.allFields s words
  let targets ← targets redirections
  Expand.assignments assignments
  return ⟨words, targets⟩

/-- Runs a command with its words. The variables that are set for it are there for a while, and
programs get to see them. -/
def command (w : World) (before p : Process) (names : List String) (ready : Prepared)
    (s : Statement) (outputs : List String) : World :=
  let name := ready.words.headD ""
  let keeps := p.shell.strict && (Builtin.special.lookup name).isSome
  let restored := if names.isEmpty ∨ keeps then []
    else [.restoreVars (names.map fun n =>
      (n, before.shell.lookup? n, before.shell.exported.contains n))]
  let channels := if ready.targets.isEmpty ∨ name = "exec" then []
    else [.restoreChannels p.channels]
  let p := p.push (channels ++ restored ++ [.check])
  match redirect w p ready.targets with
  | .blocked => w.update { before with todo := .stuck :: .statement s outputs :: before.todo }
  | .failed w =>
    if p.shell.strict && ((Builtin.special.lookup name).isSome || name = "exec") then
      w.update (p.exit 2)
    else conclude w p (redirectionFailure p)
  | .done w p =>
    match ready.words with
    | ["exec"] => conclude w p 0
    | "exec" :: words => start w p words
    | words =>
      let p := if keeps then p else { p with shell := names.foldl Shell.share p.shell }
      invoke true w p words

def simple (w : World) (p : Process) (assignments : List (String × Word)) (words : List Word)
    (redirections : List Redirection) (outputs : List String) : World :=
  let s := Statement.simple assignments words redirections
  expanding w p s outputs (prepare assignments words redirections) fun ready after =>
    if ready.words.isEmpty then
      match redirect w after ready.targets with
      | .blocked => w.update (p.push [.stuck])
      | .failed w => conclude w (after.push [.check]) (redirectionFailure p)
      | .done w _ =>
        conclude w (after.push [.check]) (if outputs.isEmpty then 0 else after.shell.outputStatus)
    else command w p after (assignments.map (·.1)) ready s outputs

/-- The stages of a pipeline side by side, each reading what the one before writes. -/
def pipeline (w : World) (p : Process) : (input : Option Channel) → List Statement → World × List Nat
  | _, [] => (w, [])
  | input, s :: rest =>
    let child := input.elim p (p.setChannel 0)
    let todo : List Frame := [.statement s [], .farewell]
    if rest.isEmpty then
      let (w, id) := w.fork child todo
      (w, [id])
    else
      let (w, stream) := w.addStream (.pipe [])
      let (w, id) := w.fork (child.setChannel 1 ⟨stream, true⟩) todo
      let (w, ids) := pipeline w p (some ⟨stream, false⟩) rest
      (w, id :: ids)

/-- A statement that is tested, so that its failure does not matter. -/
def guarded (p : Process) (frames after : List Frame) : Process :=
  { p.push (frames ++ .unguard :: after) with guards := p.guards + 1 }

def statement (w : World) (p : Process) (s : Statement) (outputs : List String) : World :=
  match s with
  | .simple assignments words redirections =>
    simple w p assignments words redirections outputs
  | .pipeline stages =>
    let (w, ids) := pipeline w p none stages
    w.update (p.push (ids.map Frame.awaitChild ++ [.check]))
  | .negated s => w.update (guarded p [.statement s []] [.negate])
  | .both a b => w.update (guarded p [.statement a []] [.andThen b])
  | .either a b => w.update (guarded p [.statement a []] [.orElse b])
  | .group body => w.update (p.push [.script body])
  | .subshell body =>
    let (w, id) := w.fork p [.script body, .farewell]
    w.update (p.push [.awaitChild id, .check])
  | .test condition yes no => w.update (guarded p [.script condition] [.branch yes no])
  | .loop untilSuccess condition body =>
    w.update (guarded p [.script condition] [.decide untilSuccess condition body 0])
  | .forEach name words body =>
    let values (c : Setting) : Expand (List String) :=
      match words with
      | none => return p.shell.args
      | some words => Expand.allFields c words
    expanding w p s outputs values fun values p =>
      w.update ((if values.isEmpty then p.withStatus 0 else p).push [.each name values body])
  | .choose word branches =>
    let chosen : Expand (Option Script) := do Expand.branch (← Expand.whole word) branches
    expanding w p s outputs (fun _ => chosen) fun body p =>
      match body with
      | some (first :: rest) => w.update (p.push [.script (first :: rest)])
      | _ => conclude w p 0
  | .define name body =>
    let functions := (name, body) :: p.shell.functions.filter (·.1 ≠ name)
    w.update { p with shell := { p.shell with functions, status := 0 } }
  | .redirected s' redirections =>
    expanding w p s outputs (fun _ => targets redirections) fun targets p =>
      match redirect w p targets with
      | .blocked => w.update (p.push [.stuck])
      | .failed w => conclude w (p.push [.check]) (redirectionFailure p)
      | .done w after =>
        w.update (after.push [.statement s' [], .restoreChannels p.channels])

/-! ## Programs -/

/-- The arguments of a shell: its options, the text of a script if that is given, and operands. The
error is the code that it ends with. -/
def shellArgs (strict : Bool) : (options : List Char) → (text : Bool) → List String →
    Except Nat (List Char × Bool × List String)
  | options, text, [] => .ok (options, text, [])
  | options, text, arg :: args =>
    if arg = "--" ∨ arg = "-" then .ok (options, text, args)
    else
      match arg.toList with
      | sign :: c :: letters =>
        if sign ≠ '-' ∧ sign ≠ '+' then .ok (options, text, arg :: args)
        else
          let letters := c :: letters
          let named := letters.contains 'o'
          let plain := letters.filter fun c => c ≠ 'o' && c ≠ 'c'
          if !plain.all (Builtin.isOptionLetter strict) ∨ (letters.contains 'c' ∧ sign = '+') then
            .error 2
          else
            let options := plain.foldl (Builtin.turn (sign = '-')) options
            let text := text || letters.contains 'c'
            if named then
              match args with
              | name :: args =>
                match Builtin.option? strict name with
                | some c => shellArgs strict (Builtin.turn (sign = '-') options c) text args
                | none => .error 2
              | [] => .error 2
            else shellArgs strict options text args
      | _ => .ok (options, text, arg :: args)

/-- A process in which a shell begins. -/
def shellProcess (p : Process) (strict : Bool) (options : List Char) (name : String)
    (args : List String) (text : List Char) : Process :=
  let vars := p.shell.environment
  let shell : Shell :=
    { strict, name, args, vars, exported := vars.map (·.1), options, processId := p.id
      traps := p.shell.traps.filter (·.2 = "") }
  { p with shell, guards := 0, todo := [.lines (Token.ofText text), .farewell] }

/-- The text that a shell reads from its input. -/
def inputText (w : World) (p : Process) : List Char :=
  (Octets.ofBytes (surroundings w p true).input).toList

/-- Begins a shell in a process. -/
def startShell (w : World) (p : Process) (program : String) (args : List String) : World :=
  let strict := program ≠ "bash"
  let ended (code : Nat) : World := w.update { p.withStatus code with todo := [] }
  match shellArgs strict [] false args with
  | .error code => ended code
  | .ok (options, true, text :: operands) =>
    w.update (shellProcess p strict options (operands.headD program) operands.tail text.toList)
  | .ok (_, true, []) => ended 2
  | .ok (options, false, operands) =>
    match operands, options.contains 's' with
    | [], _ => w.update (shellProcess p strict options program [] (inputText w p))
    | operands, true => w.update (shellProcess p strict options program operands (inputText w p))
    | path :: operands, false =>
      match w.disk.entry? p.cwd path with
      | some .directory => ended (if strict then 0 else 126)
      | none => ended (if strict then 2 else 127)
      | some _ =>
        let text := (script? w.disk p.cwd path).getD []
        w.update (shellProcess p strict options path operands text)

/-- Sets variables for a program and starts it, or prints the variables. -/
def startWithVariables (w : World) (p : Process) : List String → World
  | [] =>
    let lines := p.shell.environment.map fun (name, value) => name ++ "=" ++ value ++ "\n"
    settle w p { disk := w.disk, output := Octets.toBytes (String.join lines) }
  | arg :: args =>
    match Builtin.binding arg with
    | (name, some value) =>
      if arg.startsWith "-" then conclude w p 125
      else
        startWithVariables w { p with shell := (p.shell.set name value).share name } args
    | (_, none) =>
      if arg = "-i" ∨ arg = "-" then
        startWithVariables w { p with shell := { p.shell with exported := [] } } args
      else if arg = "-u" then
        match args with
        | name :: args => startWithVariables w { p with shell := p.shell.unset name } args
        | [] => conclude w p 125
      else if arg = "--" then start w p args
      else if arg.startsWith "-" then conclude w p 125
      else start w p (arg :: args)

def startSleep (w : World) (p : Process) (args : List String) : World :=
  let unit? (text : List Char) : Option (String × Nat) :=
    match text.reverse with
    | 's' :: cs => some (String.ofList cs.reverse, 1)
    | 'm' :: cs => some (String.ofList cs.reverse, 60)
    | 'h' :: cs => some (String.ofList cs.reverse, 3600)
    | 'd' :: cs => some (String.ofList cs.reverse, 86400)
    | cs => some (String.ofList cs.reverse, 1)
  let time? (arg : String) : Option (Option Nat) := do
    if arg = "infinity" ∨ arg = "inf" then return none
    let (number, unit) ← unit? arg.toList
    let secs ← Binary64.parse? number
    if secs.isPositive then return some ((Duration.ofSeconds secs).toNanos * unit)
    else if secs = .zero then return some 0
    else none
  let times := args.map time?
  if args.isEmpty ∨ times.any (·.isNone) then conclude w p 1
  else
    let times := times.filterMap id
    if times.any (·.isNone) then w.update (p.push [.stuck])
    else
      let total := (times.filterMap id).foldl (· + ·) 0
      w.update ((p.withStatus 0).push [.sleep (w.now + total)])

/-- Puts one of the machine's programs into a process. -/
def startProgram (w : World) (p : Process) (name : String) (args : List String) : World :=
  match name with
  | "sh" => startShell w p name args
  | "dash" => startShell w p name args
  | "bash" => startShell w p name args
  | "env" => startWithVariables w p args
  | "nohup" => if args.isEmpty then conclude w p 125 else start w p args
  | "setsid" => if args.isEmpty then conclude w p 1 else start w { p with group := p.id } args
  | "sleep" => startSleep w p args
  | "kill" => Builtin.kill w p args
  | "pwd" => settle w p (Builtin.pwd (surroundings w p false))
  | name => w.update (p.push [.program name args])

/-- Finds a program and puts it into the process. A file that says nothing about its interpreter is
taken for a script of the shell. -/
def startWords (w : World) (p : Process) (words : List String) : World :=
  let p := { p with todo := [] }
  match words with
  | [] => conclude w p 0
  | name :: args =>
    match Programs.find w.disk p.cwd (p.shell.lookup? "PATH") name with
    | .error code => conclude w p code
    | .ok path =>
      match Programs.image w.disk p.cwd Programs.maxScripts path args with
      | .ok (name, args) => startProgram w p name args
      | .error .notExecutable => startShell w p "sh" (path :: args)
      | .error .notFound => conclude w p 127
      | .error _ => conclude w p 126

/-- Whether a program reads a pipe with a name, to which nobody writes. -/
def waitsForPipe (s : Surroundings) (name : String) (args : List String) : Bool :=
  let isPipe (path : String) : Bool :=
    s.disk.entry? s.cwd path = some .pipe && s.disk.find? s.cwd path ≠ some Programs.nothing
  if name ∈ Programs.readers then args.any isPipe
  else name = "cp" && args.length = 2 && args.head?.any isPipe

def program (w : World) (p : Process) (name : String) (args : List String) : World :=
  match Programs.known.lookup name with
  | none => conclude w p 127
  | some f =>
    let s := surroundings w p false
    if waitsForPipe s name args then w.update (p.push [.stuck])
    else
    let w := settle w p (f s args)
    match p.channels.lookup 0 with
    | some c => if name ∈ Programs.readers then w.skip c.stream s.input.length else w
    | none => w

/-! ## Reading lines -/

/-- The bytes up to the end of a line; a backslash may take the end's place. -/
def line (raw : Bool) : Bytes → Bytes × Nat
  | [] => ([], 0)
  | 92 :: b :: rest =>
    if raw then
      if b = 10 then ([92], 2)
      else
        let (taken, count) := line raw (b :: rest)
        (92 :: taken, count + 1)
    else
      let (taken, count) := line raw rest
      (if b = 10 then taken else 92 :: b :: taken, count + 2)
  | b :: rest =>
    if b = 10 then ([], 1)
    else
      let (taken, count) := line raw rest
      (b :: taken, count + 1)

/-- The characters of a line as pieces; those behind a backslash are not separators. -/
def linePieces (raw : Bool) : List Char → List Piece
  | '\\' :: c :: rest =>
    if raw then .loose '\\' :: linePieces raw (c :: rest) else .char c true :: linePieces raw rest
  | c :: rest => .loose c :: linePieces raw rest
  | [] => []

/-- Cuts pieces behind some fields; the last one is the rest without blanks around it. -/
def lineFields (separators : List Char) : (count : Nat) → List Piece → List String
  | 0, _ => []
  | 1, pieces =>
    let isBlank (piece : Piece) : Bool :=
      match piece with
      | .loose c => separators.contains c && CharSet.spaces.contains c
      | _ => false
    [Expand.text ((pieces.dropWhile isBlank).reverse.dropWhile isBlank).reverse]
  | count + 2, pieces =>
    let isSeparator (piece : Piece) : Bool :=
      match piece with
      | .loose c => separators.contains c
      | _ => false
    let isBlank (piece : Piece) : Bool :=
      match piece with
      | .loose c => separators.contains c && CharSet.spaces.contains c
      | _ => false
    let pieces := pieces.dropWhile isBlank
    let field := pieces.takeWhile fun piece => !isSeparator piece
    let rest := (pieces.drop field.length).dropWhile isBlank
    let rest := match rest with
      | piece :: after => if isSeparator piece then after else rest
      | [] => []
    Expand.text field :: lineFields separators (count + 1) rest

def readLine (w : World) (p : Process) (raw : Bool) (names : List String) : World :=
  match p.channels.lookup 0 with
  | none => conclude w p 1
  | some c =>
    let input := w.available c.stream
    let (taken, count) := line raw input
    let ended := (input.take count).getLast? ≠ some 10
    let pieces := linePieces raw (Octets.ofBytes taken).toList
    let values := lineFields (Expand.separators p.shell) names.length pieces
    let shell := (names.zip values).foldl (fun s (name, value) => s.set name value) p.shell
    conclude (w.skip c.stream count) { p with shell } (if ended then 1 else 0)

/-- Whether a line is there, or no more can come. -/
def hasLine (w : World) (p : Process) : Bool :=
  match p.channels.lookup 0 with
  | none => true
  | some c => (w.available c.stream).contains 10 || !w.isOpen c.stream

/-! ## Steps -/

/-- Whether a process can take its next step. -/
def isReady (w : World) (p : Process) : Bool :=
  match p.todo with
  | .awaitChild id :: _ => (w.past? id).isSome
  | .awaitJobs ids :: _ => ids.all fun id => w.processes.all (·.id ≠ id)
  | .sleep until' :: _ => until' ≤ w.now
  | .collect stream child _ _ :: _ => !w.isOpen stream && (w.past? child).isSome
  | .readLine _ _ :: _ => hasLine w p
  | .program name _ :: _ =>
    name ∉ Programs.readers || (p.channels.lookup 0).all fun c => !w.isOpen c.stream
  | .stuck :: _ => false
  | _ => !p.spinning

/-- The text of an output without the line ends behind it. -/
def outputText (bytes : Bytes) : String :=
  Octets.ofBytes ((bytes.filter (· ≠ 0)).reverse.dropWhile (· = 10)).reverse

/-- Runs what is to be run at the end of a shell. -/
def farewell (w : World) (p : Process) : World :=
  match p.shell.traps.lookup "0" with
  | some action =>
    let traps := p.shell.traps.filter (·.1 ≠ "0")
    let frames := [.lines (Token.ofText action.toList), .restoreStatus p.shell.status, .farewell]
    w.update { p with shell := { p.shell with traps }, todo := frames }
  | none => w.update { p with todo := [] }

def act (w : World) (p : Process) : Frame → World
  | .lines tokens =>
    if (Script.skipNewlines tokens).isEmpty ∨ p.shell.has 'n' then w.update p
    else
      match Script.nextLine? tokens with
      | some (script, rest) => w.update (p.push [.script script, .lines rest])
      | none => w.update (p.exit 2)
  | .script [] => w.update p
  | .script ((s, false) :: rest) => w.update (p.push [.statement s [], .script rest])
  | .script ((s, true) :: rest) =>
    let (w, id) := w.fork (p.setChannel 0 ⟨0, false⟩) [.statement s [], .farewell]
    let shell := { p.shell with jobs := id :: p.shell.jobs, status := 0 }
    w.update ({ p with shell }.push [.script rest])
  | .statement s outputs => if p.shell.has 'n' then w.update p else statement w p s outputs
  | .andThen s => w.update (if p.shell.status = 0 then p.push [.statement s []] else p)
  | .orElse s => w.update (if p.shell.status = 0 then p else p.push [.statement s []])
  | .negate => conclude w p (if p.shell.status = 0 then 1 else 0)
  | .branch yes no =>
    if p.shell.status = 0 then w.update (p.push [.script yes])
    else w.update ((if no.isEmpty then p.withStatus 0 else p).push [.script no])
  | .loop untilSuccess condition body =>
    w.update (guarded p [.script condition] [.decide untilSuccess condition body p.shell.status])
  | .decide untilSuccess condition body last =>
    if (p.shell.status == 0) == untilSuccess then conclude w p last
    else w.update (p.push [.script body, .loop untilSuccess condition body])
  | .each _ [] _ => w.update p
  | .each name (value :: values) body =>
    if name ∈ p.shell.constant then w.update (p.exit 2)
    else
      let shell := p.shell.set name value
      w.update ({ p with shell }.push [.script body, .each name values body])
  | .restoreStatus status => conclude w p status
  | .check =>
    if p.shell.status ≠ 0 ∧ p.guards = 0 ∧ p.shell.has 'e' then w.update (p.exit p.shell.status)
    else w.update p
  | .awaitChild id => conclude w p ((w.past? id).elim 127 (·.code))
  | .awaitJobs ids =>
    conclude w p ((ids.getLast? >>= w.past?).elim (if ids.isEmpty then 0 else 127) (·.code))
  | .collect stream child s outputs =>
    let shell := { p.shell with outputStatus := (w.past? child).elim 0 (·.code) }
    let outputs := outputs ++ [outputText (w.available stream)]
    w.update ({ p with shell }.push [.statement s outputs])
  | .readLine raw names => readLine w p raw names
  | .start words => startWords w p words
  | .program name args => program w p name args
  | .farewell => farewell w p
  | frame => w.update (p.undo frame)

/-- One step of a process. A process with nothing left to do is over. -/
def step (w : World) (p : Process) : World :=
  match p.todo with
  | [] => w.finish p (.exited p.shell.status) p.shell.status
  | frame :: todo => act w { p with todo } frame

end Step

namespace World

/-- How many steps are taken at one time before a process counts as going round in circles. -/
def patience : Nat := 30000

/-- How many steps a process takes before it is another one's turn. -/
def turnLength : Nat := 200

/-- The processes with one of them moved behind the others. -/
def yielded (w : World) (p : Process) : World :=
  match w.processes.find? (·.id = p.id) with
  | some q => { w with processes := w.processes.filter (·.id ≠ p.id) ++ [q] }
  | none => w

/-- When the next process wakes up. -/
def nextTime? (w : World) : Option Nat :=
  let times := w.processes.filterMap fun p =>
    match p.todo with
    | .sleep time :: _ => some time
    | _ => none
  times.min?

/-- The next step: the first process that can, or else the time goes on. Nothing if nothing will
happen any more, or not before the limit. -/
def next? (limit : Option Nat) (w : World) : Option World :=
  match w.processes.find? (Step.isReady w) with
  | some p =>
    let count := w.steps + 1
    if patience ≤ count then some { w.update { p with spinning := true } with steps := 0 }
    else
      let w := { Step.step w p with steps := count }
      some (if count % turnLength = 0 then w.yielded p else w)
  | none =>
    match w.nextTime? with
    | none => none
    | some time => if limit.all (time ≤ ·) then some { w with now := time, steps := 0 } else none

/-- Lets the world run up to a limit. -/
def run (limit : Option Nat) : (fuel : Nat) → World → World
  | 0, w => w
  | fuel + 1, w =>
    match w.next? limit with
    | none => w
    | some w => run limit fuel w

/-- Lets the world run until a process is over. -/
def runUntilOver (id : Nat) : (fuel : Nat) → World → World
  | 0, w => w
  | fuel + 1, w =>
    if w.processes.all (·.id ≠ id) then w
    else
      match w.next? none with
      | none => w
      | some w => runUntilOver id fuel w

end World

end CaseHarvest.Rehearsal
