import CaseHarvest.Rehearsal.World
/-!
What the words of a script stand for. Scripts whose output stands in a word are not run here: their
outputs are put in one by one as they become known.
-/
namespace CaseHarvest.Rehearsal

/-- A part of what a word stands for. -/
inductive Piece where
  | char (c : Char) (quoted : Bool)
  /-- A character of a value that may be divided at such characters. -/
  | loose (c : Char)
  /-- The end of a field. -/
  | stop
  /-- There is a field, even if nothing is in it. -/
  | solid
  /-- There is no field if nothing else is in it. -/
  | hollow

/-- Why a word stands for nothing yet. -/
inductive Hold where
  /-- The output of a script has to be known. -/
  | output (source : List Char)
  /-- The shell ends with a code. -/
  | failed (code : Nat)

/-- A shell while words are expanded, and the outputs that are not used up. -/
structure Expander where
  shell : Shell
  outputs : List String

abbrev Expand := StateT Expander (Except Hold)

/-- Where a word is expanded. -/
structure Setting where
  disk : Disk
  cwd : Location
  strict : Bool

namespace Expand

def fail {α : Type} : Expand α := do
  throw (.failed (if (← get).shell.strict then 2 else 1))

/-- The characters at which values are divided. -/
def separators (s : Shell) : List Char := ((s.lookup? "IFS").getD " \t\n").toList

/-- The options that are on, in the order in which a shell shows them. -/
def optionLetters (s : Shell) : String := String.ofList ("ubaCEVvxsnmiIfe".toList.filter s.has)

/-- The value of a variable, or of a mark that stands for something about the script. -/
def valueOf? (s : Shell) (name : String) : Option String :=
  match name with
  | "#" => some (toString s.args.length)
  | "?" => some (toString s.status)
  | "$" => some (toString s.processId)
  | "!" => s.jobs.head?.map toString
  | "-" => some (optionLetters s)
  | "0" => some s.name
  | "@" => if s.args.isEmpty then none else some (" ".intercalate s.args)
  | "*" =>
    if s.args.isEmpty then none
    else some (String.intercalate (String.ofList ((separators s).take 1)) s.args)
  | name =>
    match name.toNat? with
    | some n => s.args[n - 1]?
    | none => s.lookup? name

def chars (quoted : Bool) (text : String) : List Piece :=
  text.toList.map fun c => if quoted then .char c true else .loose c

/-- Each argument is a field. -/
def argPieces (quoted : Bool) : List String → List Piece
  | [] => if quoted then [.hollow] else []
  | [a] => if quoted then .solid :: chars quoted a else chars quoted a
  | a :: rest =>
    (if quoted then .solid :: chars quoted a else chars quoted a) ++ .stop :: argPieces quoted rest

/-- The pieces of a value. -/
def valuePieces (s : Shell) (quoted : Bool) (name value : String) : List Piece :=
  if name = "@" ∨ (name = "*" ∧ !quoted) then argPieces quoted s.args else chars quoted value

/-- The text of pieces. -/
def text (pieces : List Piece) : String :=
  String.ofList (pieces.filterMap fun
    | .char c _ => some c
    | .loose c => some c
    | .stop => some ' '
    | _ => none)

/-- The marks of pieces, for a pattern. -/
def marks (pieces : List Piece) : List Mark :=
  pieces.filterMap fun
    | .char c quoted => some (c, quoted)
    | .loose c => some (c, false)
    | .stop => some (' ', false)
    | _ => none

/-- Text in the place of a value is divided like one. -/
def loosened (pieces : List Piece) : List Piece :=
  pieces.map fun
    | .char c false => .loose c
    | piece => piece

def assign (name value : String) : Expand Unit := do
  if name ∈ (← get).shell.constant ∨ !name.toList.head?.any Lexer.isNameStart then fail
  modify fun e => { e with shell := e.shell.set name value }

/-- The output of a script, if it is there. -/
def output (source : List Char) : Expand String := do
  match (← get).outputs with
  | [] => throw (.output source)
  | output :: outputs =>
    modify fun e => { e with outputs }
    return output

/-- The value of an expression. -/
def number (expression : String) : Expand String := do
  match Arithmetic.evaluate? (← get).shell.vars expression with
  | none => fail
  | some (value, vars) =>
    let old := (← get).shell.vars
    for (name, value) in (vars.take (vars.length - old.length)).reverse do assign name value
    return toString value

mutual

def fragment : Fragment → Expand (List Piece)
  | .text cs quoted =>
    return if cs.isEmpty && quoted then [.solid]
      else cs.map fun c => .char c quoted
  | .value name use quoted => used name quoted use
  | .output source quoted => return chars quoted (← output source)
  | .number w quoted => do return chars quoted (← number (text (← word w)))

def used (name : String) (quoted : Bool) : Use → Expand (List Piece)
  | .plain => do
    let s := (← get).shell
    match valueOf? s name with
    | some value => return valuePieces s quoted name value
    | none =>
      if name = "@" ∨ name = "*" then return valuePieces s quoted name ""
      else if s.has 'u' then fail
      else return []
  | .length => do
    let s := (← get).shell
    if name = "@" ∨ name = "*" then return chars quoted (toString s.args.length)
    else
      match valueOf? s name with
      | some value => return chars quoted (toString value.length)
      | none => if s.has 'u' then fail else return chars quoted "0"
  | .default orEmpty w => do
    let s := (← get).shell
    match valueOf? s name with
    | some value =>
      if orEmpty && value.isEmpty then return loosened (← word w)
      else return valuePieces s quoted name value
    | none => return loosened (← word w)
  | .assign orEmpty w => do
    let s := (← get).shell
    match valueOf? s name with
    | some value =>
      if orEmpty && value.isEmpty then
        let value := text (← word w)
        assign name value
        return chars quoted value
      else return valuePieces s quoted name value
    | none => do
      let value := text (← word w)
      assign name value
      return chars quoted value
  | .required orEmpty => do
    let s := (← get).shell
    match valueOf? s name with
    | some value =>
      if orEmpty && value.isEmpty then fail else return valuePieces s quoted name value
    | none => fail
  | .alternative orEmpty w => do
    match valueOf? (← get).shell name with
    | some value => if orEmpty && value.isEmpty then return [] else return loosened (← word w)
    | none => return []
  | .trimmed trim w => do
    let s := (← get).shell
    match valueOf? s name with
    | some value =>
      let pattern := Pattern.ofMarks (marks (← word w))
      return chars quoted (String.ofList (trim.apply pattern value.toList))
    | none => if s.has 'u' then fail else return []
  | .unknown => fail

def word : List Fragment → Expand (List Piece)
  | [] => return []
  | f :: fs => do
    let pieces ← fragment f
    return pieces ++ (← word fs)

end

/-! ## Fields -/

/-- A field under way, and whether a blank has ended the one before. -/
structure Dividing where
  current : Option (List Mark)
  hollow : Bool
  afterBlank : Bool

namespace Dividing

def start : Dividing := ⟨none, false, false⟩

def add (d : Dividing) (mark : Mark) : Dividing :=
  { d with current := some (d.current.getD [] ++ [mark]) }

/-- The field that ends, if there is one. -/
def ended (d : Dividing) : List (List Mark) :=
  match d.current with
  | none => []
  | some [] => if d.hollow then [] else [[]]
  | some field => [field]

end Dividing

/-- Divides pieces into fields. Blanks between fields count as one; each other separator ends a field
of its own. -/
def divide (separators : List Char) : Dividing → List Piece → List (List Mark)
  | d, [] => d.ended
  | d, .char c quoted :: rest => divide separators (d.add (c, quoted)) rest
  | d, .solid :: rest => divide separators { d with current := some (d.current.getD []) } rest
  | d, .hollow :: rest => divide separators { d with hollow := true } rest
  | d, .stop :: rest => d.ended ++ divide separators .start rest
  | d, .loose c :: rest =>
    if !separators.contains c then divide separators (d.add (c, false)) rest
    else if CharSet.spaces.contains c then
      if d.current.isSome then d.ended ++ divide separators ⟨none, false, true⟩ rest
      else divide separators d rest
    else if d.current.isSome then d.ended ++ divide separators .start rest
    else if d.afterBlank then divide separators .start rest
    else [] :: divide separators .start rest

/-- A field with its marks as text. -/
def plain (field : List Mark) : String := String.ofList (field.map (·.1))

/-- The parts of a field between separators. -/
def components : List Mark → List (List Mark)
  | [] => [[]]
  | mark :: rest =>
    if Path.isSeparator mark.1 then [] :: components rest
    else
      match components rest with
      | first :: others => (mark :: first) :: others
      | [] => [[mark]]

/-- The paths that the parts of a pattern lead to from a path that ends in a separator or is empty.
A dot in front of a name has to stand in the pattern. -/
def paths (s : Setting) : (path : String) → List (List Mark) → List String
  | path, [] => [path]
  | path, component :: rest =>
    let pattern := Pattern.ofMarks component
    let names : List String :=
      if !pattern.isOpen then [plain component]
      else
        let dir := if path = "" then "." else path
        match s.disk.find? s.cwd dir with
        | none => []
        | some l =>
          ((if s.strict then [".", ".."] else []) ++ s.disk.names l).filter fun name =>
            pattern.isMatch name.toList && (!name.startsWith "." || pattern.head? = some (.char '.'))
    names.flatMap fun name =>
      paths s (if rest.isEmpty then path ++ name else path ++ name ++ "/") rest

/-- The paths that a field stands for; the field itself if there are none. -/
def matched (s : Setting) (shell : Shell) (field : List Mark) : List String :=
  if shell.has 'f' ∨ !(Pattern.ofMarks field).isOpen then [plain field]
  else
    let found := (paths s "" (components field)).filter fun path =>
      (s.disk.ownEntry? s.cwd path).isSome
    if found.isEmpty then [plain field] else found.mergeSort fun a b => a ≤ b

/-- A word with the home directory in the place of a tilde at its front. -/
def homed (shell : Shell) (w : Word) : Word :=
  match w, shell.lookup? "HOME" with
  | .text ('~' :: cs) false :: rest, some home =>
    if (cs.isEmpty ∧ rest.isEmpty) ∨ cs.head?.any Path.isSeparator then
      .text home.toList true :: .text cs false :: rest
    else w
  | w, _ => w

/-- The fields that a word stands for. -/
def fields (s : Setting) (w : Word) : Expand (List String) := do
  let pieces ← word (homed (← get).shell w)
  let shell := (← get).shell
  return (divide (separators shell) .start pieces).flatMap (matched s shell)

/-- The text that a word stands for where it is not divided. -/
def whole (w : Word) : Expand String := do return text (← word (homed (← get).shell w))

def allFields (s : Setting) : List Word → Expand (List String)
  | [] => return []
  | w :: ws => do
    let found ← fields s w
    return found ++ (← allFields s ws)

/-- Sets variables one after the other. -/
def assignments : List (String × Word) → Expand Unit
  | [] => return ()
  | (name, w) :: rest => do
    assign name (← whole w)
    assignments rest

/-- The body of the first branch with a pattern for a text. -/
def branch (text : String) : List (List Word × Script) → Expand (Option Script)
  | [] => return none
  | (patterns, body) :: rest => do
    let applies ← patterns.anyM fun p => do
      return (Pattern.ofMarks (marks (← word p))).isMatch text.toList
    if applies then return some body else branch text rest

end Expand

end CaseHarvest.Rehearsal
