import CaseHarvest.Rehearsal.Arithmetic
import CaseHarvest.Rehearsal.Disk
/-!
What a small program finds and leaves, and how it reads its arguments.
-/
namespace CaseHarvest.Rehearsal

/-- What a program finds when it is started. -/
structure Surroundings where
  disk : Disk
  cwd : Location
  input : Bytes
  env : Variables
  /-- Whether only the standard forms of conditions and escapes are known. -/
  strict : Bool

/-- What a program leaves when it ends. -/
structure Effect where
  disk : Disk
  output : Bytes := []
  status : Nat := 0

namespace Surroundings

def leave (s : Surroundings) (status : Nat) : Effect := { disk := s.disk, status }

def print (s : Surroundings) (output : Bytes) : Effect := { disk := s.disk, output }

end Surroundings

/-- Files after something was tried, and whether it went well. -/
abbrev Attempted := Disk × Bool

namespace Attempted

def ofOption (d : Disk) : Option Disk → Attempted
  | some d => (d, true)
  | none => (d, false)

/-- Does something for each of several things, in order. -/
def forEach {α : Type} (d : Disk) (xs : List α) (f : Disk → α → Attempted) : Attempted :=
  xs.foldl (fun (d, ok) x => ((f d x).1, ok && (f d x).2)) (d, true)

def effect (a : Attempted) : Effect := { disk := a.1, status := if a.2 then 0 else 1 }

end Attempted

/-- The options of a program: letters, letters with a value, and longer names for letters. -/
structure Options where
  flags : String
  valued : String
  long : List (String × Char)

/-- Options as they were found, with their values. -/
abbrev Found := List (Char × String)

namespace Options

/-- The options in one argument; at the end there may be one that still lacks its value. -/
def bundle? (o : Options) : List Char → Option (Found × Option Char)
  | [] => some ([], none)
  | c :: cs =>
    if o.flags.toList.contains c then
      (o.bundle? cs).map fun (found, open') => ((c, "") :: found, open')
    else if o.valued.toList.contains c then
      if cs.isEmpty then some ([], some c) else some ([(c, String.ofList cs)], none)
    else none

/-- The option of a long name, which may be cut short. -/
def long? (o : Options) (text : List Char) : Option (Found × Option Char) := do
  let (name, value) := text.span (· ≠ '=')
  let name := String.ofList name
  let matching := o.long.filter fun (n, _) => n.startsWith name
  let (_, c) ← (matching.find? fun (n, _) => n = name).or
    (if matching.length = 1 then matching.head? else none)
  match value with
  | _ :: value => some ([(c, String.ofList value)], none)
  | [] => if o.valued.toList.contains c then some ([], some c) else some ([(c, "")], none)

/-- Options and operands, in any order up to a double dash. -/
def read? (o : Options) : (lacking : Option Char) → List String →
    Option (Found × List String)
  | none, [] => some ([], [])
  | some _, [] => none
  | some c, value :: args => (o.read? none args).map fun (found, rest) => ((c, value) :: found, rest)
  | none, arg :: args =>
    let go (taken : Option (Found × Option Char)) := do
      let (taken, lacking) ← taken
      let (found, rest) ← o.read? lacking args
      return (taken ++ found, rest)
    match arg.toList with
    | ['-', '-'] => some ([], args)
    | '-' :: '-' :: name => go (o.long? name)
    | '-' :: c :: cs => go (o.bundle? (c :: cs))
    | _ => (o.read? none args).map fun (found, rest) => (found, arg :: rest)

end Options

namespace Found

def has (found : Found) (c : Char) : Bool := found.any fun (d, _) => d = c

def hasAny (found : Found) (letters : String) : Bool := letters.toList.any found.has

/-- The last value that was given. -/
def value? (found : Found) (c : Char) : Option String := found.reverse.lookup c

end Found

end CaseHarvest.Rehearsal
