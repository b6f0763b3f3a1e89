import CaseHarvest.Rehearsal.Pattern
/-!
Shell scripts, with which engines are played in a rehearsal.
-/
namespace CaseHarvest.Rehearsal

mutual

/-- A part of a word. Quoted parts stand for themselves and are never divided. -/
inductive Fragment where
  | text (chars : List Char) (quoted : Bool)
  | value (name : String) (use : Use) (quoted : Bool)
  /-- What the script of this text prints. -/
  | output (source : List Char) (quoted : Bool)
  | number (expression : List Fragment) (quoted : Bool)

/-- What is made of the value of a variable. In the cases with a flag, the flag says whether an
empty value counts as none. -/
inductive Use where
  | plain
  | length
  /-- The word stands in for a missing value. -/
  | default (orEmpty : Bool) (word : List Fragment)
  /-- The word becomes a missing value. -/
  | assign (orEmpty : Bool) (word : List Fragment)
  /-- A missing value ends the script. -/
  | required (orEmpty : Bool)
  /-- The word stands in for a value that is not missing. -/
  | alternative (orEmpty : Bool) (word : List Fragment)
  | trimmed (trim : Trim) (word : List Fragment)
  /-- No use that is known. -/
  | unknown

end

abbrev Word := List Fragment

inductive RedirectionKind where
  | input
  | output
  /-- Output, even into a file that is protected from it. -/
  | overwrite
  | append
  | both
  /-- The same as another channel. -/
  | copy
  /-- Text that stands in the script. -/
  | text
  deriving DecidableEq, Repr

/-- Where a channel of a statement leads to. -/
structure Redirection where
  channel : Nat
  kind : RedirectionKind
  target : Word

inductive Statement where
  /-- Variables are set, and then a command is run if there are words. -/
  | simple (assignments : List (String × Word)) (words : List Word)
    (redirections : List Redirection)
  | pipeline (stages : List Statement)
  | negated (s : Statement)
  /-- The second is run if the first succeeds. -/
  | both (a b : Statement)
  /-- The second is run if the first fails. -/
  | either (a b : Statement)
  | group (body : List (Statement × Bool))
  | subshell (body : List (Statement × Bool))
  | test (condition yes no : List (Statement × Bool))
  /-- The body is run as long as the condition succeeds, or fails if the flag is set. -/
  | loop (untilSuccess : Bool) (condition body : List (Statement × Bool))
  /-- Without words, the arguments are gone through. -/
  | forEach (name : String) (words : Option (List Word)) (body : List (Statement × Bool))
  | choose (word : Word) (branches : List (List Word × List (Statement × Bool)))
  | define (name : String) (body : Statement)
  | redirected (s : Statement) (redirections : List Redirection)

/-- Statements in order; the flag marks the ones that are not waited for. -/
abbrev Script := List (Statement × Bool)

end CaseHarvest.Rehearsal
