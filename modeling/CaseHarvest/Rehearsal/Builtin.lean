import CaseHarvest.Machine.Basic
import CaseHarvest.Rehearsal.Expansion
import CaseHarvest.Rehearsal.Programs
/-!
The commands that a shell carries out itself, and starting programs.
-/
namespace CaseHarvest.Rehearsal

/-- The world after a process has done something; the process is the one that acts. -/
abbrev Act := World → Process → List String → World

namespace Builtin

/-- Goes on with a code. -/
def conclude (w : World) (p : Process) (status : Nat) : World := w.update (p.withStatus status)

/-- A mistake that ends a strict shell. -/
def mistake (w : World) (p : Process) (status : Nat) : World :=
  if p.shell.strict then w.update (p.exit 2) else conclude w p status

/-- The number in an argument, which may stand between blanks. -/
def number? (text : String) : Option Nat := do
  let n ← Condition.integer? text
  if n < 0 then none else some n.toNat

/-! ## Leaving -/

def exit : Act
  | w, p, [] => w.update (p.exit p.shell.status)
  | w, p, code :: _ =>
    match Condition.integer? code with
    | some n =>
      if n < 0 ∧ p.shell.strict then w.update (p.exit 2)
      else w.update (p.exit (n % 256).toNat)
    | none => w.update (p.exit 2)

/-- Whether a function or a script that was read in ends here. -/
def isReturn : Frame → Bool
  | .callEnd _ => true
  | .sourceEnd => true
  | _ => false

def comeBack : Act
  | w, p, args =>
    let code? := match args with
      | [] => some p.shell.status
      | code :: _ => (Condition.integer? code).bind fun n =>
        if p.shell.strict then (if n < 0 then none else some n.toNat) else some (n % 256).toNat
    match code? with
    | none => w.update (p.exit 2)
    | some code =>
      if (p.todo.takeWhile fun f => !Process.isFarewell f).any isReturn then
        w.update ((Process.unwind isReturn p p.todo).withStatus code)
      else if p.shell.strict then w.update (p.exit code)
      else conclude w p 2

def isLoop : Frame → Bool
  | .loop .. => true
  | .decide .. => true
  | .each .. => true
  | _ => false

/-- Leaves frames behind up to a loop that many loops out, and that loop too unless it goes on. -/
def leaveLoops (goOn : Bool) (p : Process) : (count : Nat) → (todo : List Frame) → Process
  | _, [] => { p with todo := [] }
  | count, frame :: rest =>
    if isLoop frame then
      if count ≤ 1 then
        match goOn, frame with
        | true, .decide u c b _ => { p with todo := .loop u c b :: rest }
        | true, frame => { p with todo := frame :: rest }
        | false, _ => { p with todo := rest }
      else leaveLoops goOn p (count - 1) rest
    else leaveLoops goOn (p.undo frame) count rest

def leave (goOn : Bool) : Act
  | w, p, args =>
    match args.head?.elim (some 1) number? with
    | none => mistake w p 1
    | some 0 => mistake w p 1
    | some count =>
      let inside := p.todo.takeWhile fun f => !Process.isFarewell f && !isReturn f
      let open' := (inside.filter isLoop).length
      if open' = 0 then conclude w p 0
      else w.update ((leaveLoops goOn p (min count open') p.todo).withStatus 0)

/-! ## Variables, arguments and options -/

def optionNames : List (String × Char) :=
  [("errexit", 'e'), ("noglob", 'f'), ("ignoreeof", 'I'), ("interactive", 'i'), ("monitor", 'm'),
    ("noexec", 'n'), ("stdin", 's'), ("xtrace", 'x'), ("verbose", 'v'), ("vi", 'V'),
    ("emacs", 'E'), ("noclobber", 'C'), ("allexport", 'a'), ("notify", 'b'), ("nounset", 'u')]

/-- Options that only shells with more than the standard forms have. -/
def furtherNames : List (String × Char) :=
  [("pipefail", 'P'), ("posix", 'O'), ("braceexpand", 'B'), ("hashall", 'h'), ("physical", 'L'),
    ("privileged", 'p'), ("keyword", 'k'), ("errtrace", 'R'), ("functrace", 'T'),
    ("histexpand", 'H'), ("history", 'Y'), ("onecmd", 't')]

def option? (strict : Bool) (name : String) : Option Char :=
  (optionNames.lookup name).or (if strict then none else furtherNames.lookup name)

def isOptionLetter (strict : Bool) (c : Char) : Bool :=
  optionNames.any (·.2 = c) || (!strict && "hkptBEHPT".toList.contains c)

def turn (on : Bool) (options : List Char) (c : Char) : List Char :=
  let others := options.filter (· ≠ c)
  if on then others ++ [c] else others

/-- Options and what follows them; nothing if there is one that is not known. The flag says whether
a dash or a double dash stood behind them. -/
def options? (strict : Bool) : (options : List Char) → List String →
    Option (List Char × Bool × List String)
  | options, "--" :: args => some (options, true, args)
  | options, "-" :: args => some (options, true, args)
  | options, "-o" :: name :: args => do
    options? strict (turn true options (← option? strict name)) args
  | options, "+o" :: name :: args => do
    options? strict (turn false options (← option? strict name)) args
  | options, arg :: args =>
    match arg.toList with
    | '-' :: letters =>
      if letters.all (isOptionLetter strict) then
        options? strict (letters.foldl (turn true) options) args
      else none
    | '+' :: letters =>
      if letters.all (isOptionLetter strict) then
        options? strict (letters.foldl (turn false) options) args
      else none
    | _ => some (options, false, arg :: args)
  | options, [] => some (options, false, [])

def set : Act
  | w, p, args =>
    match options? p.shell.strict p.shell.options args with
    | none => mistake w p 2
    | some (options, marked, operands) =>
      let args := if marked || !operands.isEmpty then operands else p.shell.args
      w.update { p with shell := { p.shell with options, args, status := 0 } }

def shift : Act
  | w, p, args =>
    match args.head?.elim (some 1) number? with
    | none => mistake w p 1
    | some n =>
      if p.shell.args.length < n then mistake w p 1
      else w.update { p with shell := { p.shell with args := p.shell.args.drop n, status := 0 } }

/-- A name, and the value behind it if there is one. -/
def binding (arg : String) : String × Option String :=
  match arg.toList.span (· ≠ '=') with
  | (name, _ :: value) => (String.ofList name, some (String.ofList value))
  | (name, []) => (String.ofList name, none)

def isName (name : String) : Bool :=
  name.toList.head?.any Lexer.isNameStart && name.toList.all Lexer.isNameChar

/-- Sets variables that are given with values, and does something with each. -/
def declare (mark : Shell → String → Shell) : Act
  | w, p, args =>
    let bindings := (args.filter fun a => !a.startsWith "-").map binding
    if bindings.any fun (name, value) =>
        !isName name || (value.isSome && p.shell.constant.contains name) then
      mistake w p 1
    else
      let shell := bindings.foldl (fun s (name, value) => mark (value.elim s (s.set name)) name) p.shell
      w.update { p with shell := { shell with status := 0 } }

def unset : Act
  | w, p, args =>
    let names := args.filter fun a => !a.startsWith "-"
    if names.any p.shell.constant.contains then mistake w p 1
    else
      let shell :=
        if args.contains "-f" then
          { p.shell with functions := p.shell.functions.filter fun f => !names.contains f.1 }
        else names.foldl Shell.unset p.shell
      w.update { p with shell := { shell with status := 0 } }

/-- Gives a function variables of its own. -/
def own : Act
  | w, p, args =>
    match p.shell.hidden with
    | [] => mistake w p 1
    | here :: hidden =>
      let bindings := (args.filter fun a => !a.startsWith "-").map binding
      let old := bindings.reverse.map fun (name, _) => (name, p.shell.lookup? name)
      let shell := bindings.foldl (fun s (name, value) => value.elim s (s.set name)) p.shell
      w.update { p with shell := { shell with hidden := (old ++ here) :: hidden, status := 0 } }

/-! ## Scripts in words and files -/

def eval : Act
  | w, p, args =>
    w.update ((p.withStatus (if args.isEmpty then 0 else p.shell.status)).push
      [.lines (Token.ofText (" ".intercalate args).toList)])

/-- The content of a script file. -/
def script? (d : Disk) (cwd : Location) (path : String) : Option (List Char) :=
  match d.entry? cwd path with
  | some (.file content _) => some (Octets.ofBytes content).toList
  | some .pipe => some []
  | _ => none

def source : Act
  | w, p, [] => mistake w p 2
  | w, p, name :: _ =>
    let paths := Programs.candidates (p.shell.lookup? "PATH") name
      ++ if p.shell.strict then [] else [name]
    match paths.findSome? (script? w.disk p.cwd) with
    | none => mistake w p 1
    | some text => w.update ((p.withStatus 0).push [.lines (Token.ofText text), .sourceEnd])

/-! ## Signals and jobs -/

def signals : List (String × Nat) :=
  [("EXIT", 0), ("HUP", 1), ("INT", 2), ("QUIT", 3), ("ILL", 4), ("TRAP", 5), ("ABRT", 6),
    ("BUS", 7), ("FPE", 8), ("KILL", 9), ("USR1", 10), ("SEGV", 11), ("USR2", 12), ("PIPE", 13),
    ("ALRM", 14), ("TERM", 15), ("CHLD", 17), ("CONT", 18), ("STOP", 19), ("TSTP", 20),
    ("TTIN", 21), ("TTOU", 22), ("URG", 23), ("WINCH", 28)]

/-- The number of a signal, given as a number or a name. -/
def signal? (text : String) : Option Nat :=
  match text.toNat? with
  | some n => if n ≤ 64 then some n else none
  | none =>
    let name := String.ofList (text.toList.map Char.toUpper)
    signals.lookup (if name.startsWith "SIG" then String.ofList (name.toList.drop 3) else name)

def trap : Act
  | w, p, args =>
    let args := if args.head? = some "--" then args.drop 1 else args
    match args with
    | [] => conclude w p 0
    | action :: names =>
      let (action, names) := if names.isEmpty ∨ action.toNat?.isSome then ("-", action :: names)
        else (action, names)
      let numbers := names.map signal?
      if numbers.any (·.isNone) then conclude w p 1
      else
        let keys := (numbers.filterMap id).map toString
        let kept := p.shell.traps.filter fun t => !keys.contains t.1
        let traps := if action = "-" then kept else kept ++ keys.map (·, action)
        w.update { p with shell := { p.shell with traps, status := 0 } }

/-- Puts the script for a signal in front of what a process does next. A program that is waited for
is still waited for; waiting for jobs ends. -/
def interrupt (p : Process) (signal : Nat) (action : String) : Process :=
  let frames := [.lines (Token.ofText action.toList), .restoreStatus p.shell.status]
  match p.todo with
  | .awaitChild id :: rest => { p with todo := .awaitChild id :: frames ++ rest }
  | .awaitJobs _ :: rest =>
    { p with todo := [.lines (Token.ofText action.toList), .restoreStatus (128 + signal)] ++ rest }
  | rest => { p with todo := frames ++ rest }

/-- A signal reaches a process. -/
def deliver (signal : Nat) (w : World) (p : Process) : World :=
  let kill := w.finish p .signalled (128 + signal)
  if signal = 9 then kill
  else
    match p.shell.traps.lookup (toString signal) with
    | some action => if action = "" then w else w.update (interrupt p signal action)
    | none => if signal ∈ [0, 17, 18, 23, 28] then w else kill

/-- The processes that a number stands for: one, or a group if it is negative. -/
def targets (w : World) (p : Process) (text : String) : List Process :=
  match Condition.integer? text with
  | some n =>
    if 0 < n then w.processes.filter fun q => Int.ofNat q.id = n
    else if n = 0 then w.processes.filter (·.group = p.group)
    else w.processes.filter fun q => Int.ofNat q.group = -n
  | none =>
    match text.toList with
    | '%' :: n =>
      match (String.ofList n).toNat? >>= fun n => p.shell.jobs.reverse[n - 1]? with
      | some id => w.processes.filter (·.id = id)
      | none => []
    | _ => []

/-- The signal that is asked for, and the rest of the arguments. -/
def killArgs? : List String → Option (Nat × List String)
  | "-s" :: name :: args => (signal? name).map (·, args)
  | "-n" :: name :: args => (signal? name).map (·, args)
  | "--" :: args => some (15, args)
  | arg :: args =>
    match arg.toList with
    | '-' :: name => (signal? (String.ofList name)).map (·, args)
    | _ => some (15, arg :: args)
  | [] => none

def kill : Act
  | w, p, args =>
    if args.head? = some "-l" then conclude w p 0
    else
      match killArgs? args with
      | none => conclude w p 2
      | some (signal, names) =>
        let names := if names.head? = some "--" then names.drop 1 else names
        let found := names.map (targets w p)
        let isTarget (name : String) : Bool :=
          (Condition.integer? name).isSome || name.startsWith "%"
        let status :=
          if names.isEmpty ∨ (p.shell.strict ∧ !names.all isTarget) then 2
          else if found.any List.isEmpty then 1
          else 0
        let w := conclude w p status
        found.flatten.foldl (fun w q =>
          match w.processes.find? (·.id = q.id) with
          | some q => deliver signal w q
          | none => w) w

/-- Waits for jobs; a number that belongs to no job has code 127. -/
def wait : Act
  | w, p, [] => w.update ((p.withStatus 0).push [.awaitJobs p.shell.jobs, .restoreStatus 0])
  | w, p, names =>
    let ids := names.map fun name =>
      match name.toList with
      | '%' :: n => ((String.ofList n).toNat? >>= fun n => p.shell.jobs.reverse[n - 1]?).getD 0
      | _ => (number? name).getD 0
    w.update (p.push [.awaitJobs ids])

/-! ## The rest -/

/-- What a small program finds around a process. -/
def surroundings (w : World) (p : Process) (strict : Bool) : Surroundings where
  disk := w.disk
  cwd := p.cwd
  input := (p.channels.lookup 0).elim [] fun c => w.available c.stream
  env := p.shell.environment
  strict := strict

/-- Takes over what a small program has left. -/
def settle (w : World) (p : Process) (e : Effect) : World :=
  let w := { w with disk := e.disk }
  if e.output = [] then conclude w p e.status
  else
    match w.print? p 1 e.output with
    | some w => conclude w p e.status
    | none => conclude w p (if e.status = 0 then 1 else e.status)

/-- The line that shows a location. -/
def placeLine (l : Location) : Bytes := Bytes.ofString (Machine.absolutePath l ++ "\n")

def pwd (s : Surroundings) : Effect := s.print (placeLine s.cwd)

def cd : Act
  | w, p, args =>
    let args := args.filter fun a => a ∉ ["-L", "-P", "--"]
    let path := match args with
      | [] => (p.shell.lookup? "HOME").getD ""
      | ["-"] => (p.shell.lookup? "OLDPWD").getD ""
      | path :: _ => path
    let failed := if p.shell.strict then 2 else 1
    let path := if path = "" ∧ !args.isEmpty then "." else path
    match w.disk.find? p.cwd path with
    | some l =>
      if w.disk.isDirectory l then
        let shell := (p.shell.set "OLDPWD" (Octets.ofText (Machine.absolutePath p.cwd))).set "PWD"
          (Octets.ofText (Machine.absolutePath l))
        let p := { p with cwd := l, shell }
        if args.head? = some "-" then settle w p { disk := w.disk, output := placeLine l }
        else conclude w p 0
      else conclude w p failed
    | none => conclude w p failed

def read : Act
  | w, p, args =>
    let names := (args.filter fun a => !a.startsWith "-")
    let raw := args.any fun a => a.startsWith "-" && a.toList.contains 'r'
    if names.isEmpty ∧ p.shell.strict then conclude w p 2
    else w.update (p.push [.readLine raw (if names.isEmpty then ["REPLY"] else names)])

/-- Carries out a small program in the shell itself. -/
def small (f : Surroundings → List String → Effect) : Act
  | w, p, args => settle w p (f (surroundings w p p.shell.strict) args)

/-- Commands whose mistakes end the shell, and which keep the variables that are set for them. -/
def special : List (String × Act) :=
  [(":", fun w p _ => conclude w p 0), ("break", leave false), ("continue", leave true),
    ("exit", exit), ("return", comeBack), ("set", set), ("shift", shift),
    ("export", declare Shell.share),
    ("readonly", declare fun s name => { s with constant := name :: s.constant }),
    ("unset", unset), ("eval", eval), (".", source), ("trap", trap),
    ("times", fun w p _ => conclude w p 0)]

def idle : List String := ["umask", "ulimit", "hash", "alias", "unalias", "jobs", "fg", "bg"]

def ordinary : List (String × Act) :=
  [("true", fun w p _ => conclude w p 0), ("false", fun w p _ => conclude w p 1),
    ("echo", small Format.echo), ("printf", small Format.printf), ("test", small Condition.test),
    ("[", small Condition.bracket), ("pwd", small fun s _ => pwd s), ("cd", cd), ("read", read),
    ("kill", kill), ("wait", wait), ("local", own)] ++
    idle.map fun name => (name, fun w p _ => conclude w p 0)

/-- Commands of shells that know more than the standard forms. -/
def further : List (String × Act) :=
  [("source", source), ("declare", declare fun s _ => s), ("typeset", declare fun s _ => s),
    ("shopt", fun w p _ => conclude w p 0)]

def find? (strict : Bool) (name : String) : Option Act :=
  (special.lookup name).or
    ((ordinary.lookup name).or (if strict then none else further.lookup name))

end Builtin

end CaseHarvest.Rehearsal
