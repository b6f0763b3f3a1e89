import CaseHarvest.Settings.Override
import CaseHarvest.Binary64.Parse
/-!
Reading the arguments of a command line: options that count at every level, a command, and the
command's own options and operands.
-/
namespace CaseHarvest.CommandLine

/-! ## Options -/

/-- What an option takes. -/
inductive Taking where
  | nothing
  /-- A value that passes a test. -/
  | value (isValid : String → Bool)

structure OptionSpec where
  name : String
  short : Option Char := none
  taking : Taking := .nothing
  repeatable : Bool := false

/-- What ends the reading of arguments before a command is known. -/
inductive Stop where
  | usage
  | help
  | version
  deriving DecidableEq, Repr

/-- What a level takes: its options, its commands if it has any, and its operands. -/
structure Level where
  options : List OptionSpec
  commands : List String := []
  /-- Whether an operand can follow so many. -/
  takesOperand : Nat → Bool := fun _ => false
  showsVersion : Bool := false

/-- What has been read at one level. -/
structure Given where
  options : List (String × String) := []
  operands : List String := []
  command : Option (String × List String) := none
  deriving DecidableEq, Repr

namespace Given

def has (g : Given) (name : String) : Bool := g.options.any (·.1 = name)

/-- The values of an option in order. -/
def values (g : Given) (name : String) : List String :=
  (g.options.filter (·.1 = name)).map (·.2)

def value? (g : Given) (name : String) : Option String := (g.values name).head?

/-- Adds an option, which may be given twice only if it says so. -/
def add (g : Given) (spec : OptionSpec) (value : String) : Except Stop Given :=
  if g.has spec.name && !spec.repeatable then .error .usage
  else .ok { g with options := g.options ++ [(spec.name, value)] }

/-- Adds an option with its value. -/
def addValue (g : Given) (spec : OptionSpec) (value : String) : Except Stop Given :=
  match spec.taking with
  | .nothing => .error .usage
  | .value isValid => if isValid value then g.add spec value else .error .usage

end Given

/-- An argument that cannot be the value of the option before it. -/
def looksLikeOption (arg : String) : Bool := arg.startsWith "-" && arg ≠ "-"

/-- A text up to its first equals sign, and what is behind that if there is one. -/
def splitAtEquals (cs : List Char) : String × Option String :=
  match cs.span (· ≠ '=') with
  | (name, []) => (String.ofList name, none)
  | (name, _ :: value) => (String.ofList name, some (String.ofList value))

namespace Level

/-- The flags of a cluster of short options. -/
def shorts (l : Level) (g : Given) : List Char → Except Stop Given
  | [] => .ok g
  | c :: cs =>
    if c = 'h' then .error .help
    else if c = 'V' ∧ l.showsVersion then .error .version
    else
      match l.options.find? (·.short = some c) with
      | none => .error .usage
      | some spec => do l.shorts (← g.add spec "") cs

/-- An operand, or at a level with commands the command that ends the level. -/
def operand (l : Level) (g : Given) (arg : String) : Except Stop Given :=
  if arg ≠ "" ∧ l.takesOperand g.operands.length then .ok { g with operands := g.operands ++ [arg] }
  else .error .usage

/-- Reads the arguments of a level. `pending` is an option that waits for its value; behind a double
dash all arguments are operands. -/
def read (l : Level) (g : Given) (pending : Option OptionSpec) (operandsOnly : Bool) :
    List String → Except Stop Given
  | [] => if pending.isSome then .error .usage else .ok g
  | arg :: rest =>
    match pending with
    | some spec =>
      if looksLikeOption arg then .error .usage
      else do l.read (← g.addValue spec arg) none operandsOnly rest
    | none =>
      if operandsOnly then do l.read (← l.operand g arg) none true rest
      else
        match arg.toList with
        | ['-', '-'] => l.read g none true rest
        | '-' :: '-' :: cs =>
          match splitAtEquals cs with
          | ("help", none) => .error .help
          | (name, value) =>
            if name = "version" ∧ value = none ∧ l.showsVersion then .error .version
            else
              match l.options.find? (·.name = name), value with
              | none, _ => .error .usage
              | some spec, some value => do l.read (← g.addValue spec value) none false rest
              | some spec, none =>
                match spec.taking with
                | .nothing => do l.read (← g.add spec "") none false rest
                | .value _ =>
                  if g.has spec.name && !spec.repeatable then .error .usage
                  else l.read g (some spec) false rest
        | '-' :: c :: cs => do l.read (← l.shorts g (c :: cs)) none false rest
        | _ =>
          if arg ∈ l.commands then .ok { g with command := some (arg, rest) }
          else do l.read (← l.operand g arg) none false rest

end Level

/-! ## The program's options -/

/-- Values that cannot be paths are refused at once, and so are values that are no numbers. -/
def path : Taking := .value (· ≠ "")

def text : Taking := .value fun _ => true

def seconds : Taking := .value fun s => (Binary64.parse? s).isSome

def int32 : Taking := .value fun s => (int32? s).isSome

def everywhere : List OptionSpec :=
  [{ name := "verbose", short := some 'v' }, { name := "quiet", short := some 'q' },
    { name := "config", taking := path }]

def several : Nat → Bool := fun _ => true

def single : Nat → Bool := fun n => n = 0

def topLevel : Level where
  options := everywhere
  commands := ["run", "show", "extract", "fingerprint", "help"]
  showsVersion := true

def runLevel : Level where
  options := everywhere ++ [{ name := "engine", taking := path },
    { name := "timeout-secs", taking := seconds }, { name := "output", taking := path },
    { name := "max-version", taking := int32 }, { name := "func-name", taking := text },
    { name := "src-file", taking := text }, { name := "description", taking := text },
    { name := "json" }]
  takesOperand := several

def showLevel : Level where
  options := everywhere ++ [{ name := "trim-zeros" }, { name := "json" }]
  takesOperand := several

def extractLevel : Level where
  options := everywhere ++
    [{ name := "object", taking := text, repeatable := true }, { name := "trim-zeros" }]
  takesOperand := single

def fingerprintLevel : Level where
  options := everywhere
  takesOperand := several

/-- What a command line asks for. -/
inductive Task where
  | run (inputs : List String) (overrides : RunOverrides) (json : Bool)
  | show (files : List String) (trim json : Bool)
  | extract (file : String) (names : List String) (trim : Bool)
  | fingerprint (files : List String)
  deriving DecidableEq

structure Invocation where
  verbose : Bool
  quiet : Bool
  config : Option String
  task : Task
  deriving DecidableEq

/-- Being quiet and telling more exclude each other at one level. -/
def contradicts (g : Given) : Bool := g.has "verbose" && g.has "quiet"

def overridesOf (g : Given) : RunOverrides where
  engine := g.value? "engine"
  timeoutSecs := g.value? "timeout-secs" >>= Binary64.parse?
  output := g.value? "output"
  maxVersion := g.value? "max-version" >>= int32?
  funcName := g.value? "func-name"
  srcFile := g.value? "src-file"
  description := g.value? "description"

/-- Reads the arguments of a command that takes at least one operand. -/
def readCommand (l : Level) (args : List String) : Except Stop Given := do
  let g ← l.read {} none false args
  if g.operands.isEmpty || contradicts g then throw .usage
  return g

def task (command : String) (args : List String) : Except Stop (Given × Task) := do
  match command with
  | "run" =>
    let g ← readCommand runLevel args
    return (g, .run g.operands (overridesOf g) (g.has "json"))
  | "show" =>
    let g ← readCommand showLevel args
    return (g, .show g.operands (g.has "trim-zeros") (g.has "json"))
  | "extract" =>
    let g ← readCommand extractLevel args
    if !g.has "object" then throw .usage
    return (g, .extract (g.operands.headD "") (g.values "object") (g.has "trim-zeros"))
  | "fingerprint" =>
    let g ← readCommand fingerprintLevel args
    return (g, .fingerprint g.operands)
  | _ =>
    -- help on a command, if there is one of that name
    if args.all (· ∈ topLevel.commands) && args.length ≤ 1 then throw .help else throw .usage

/-- Reads all arguments. Of a value that is given at both levels the command's counts. -/
def parse (args : List String) : Except Stop Invocation := do
  let top ← topLevel.read {} none false args
  match top.command with
  | none => throw .usage
  | some (command, rest) =>
    let (sub, task) ← task command rest
    if contradicts top then throw .usage
    return {
      verbose := top.has "verbose" || sub.has "verbose"
      quiet := top.has "quiet" || sub.has "quiet"
      config := (sub.value? "config").or (top.value? "config")
      task }

end CaseHarvest.CommandLine
