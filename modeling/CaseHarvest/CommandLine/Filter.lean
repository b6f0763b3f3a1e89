import CaseHarvest.Notice
import CaseHarvest.Regex.Parser
/-!
Which notices are shown. A specification is a list of directives, divided by commas: a level, a part
of the program, or a part and a level with an equals sign between them. A regular expression may
follow them.
-/
namespace CaseHarvest

/-- Notices up to a level are let through; `none` lets nothing through. -/
abbrev Threshold := Option Level

/-- What a directive says of the parts whose names begin with its name, or of all parts. -/
structure Directive where
  name : Option String
  threshold : Threshold
  deriving DecidableEq, Repr

structure Filter where
  /-- At most one directive for each name. -/
  directives : List Directive
  /-- What the text of a notice has to match. -/
  pattern : Option Regex := none
  deriving DecidableEq, Repr

namespace Filter

def lowerCase (s : String) : String := String.ofList (s.toList.map Char.toLower)

def threshold? (s : String) : Option Threshold :=
  match lowerCase s with
  | "off" => some none
  | "error" => some (some .error)
  | "warn" => some (some .warn)
  | "info" => some (some .info)
  | "debug" => some (some .debug)
  | "trace" => some (some .trace)
  | _ => none

def everything : Threshold := some .trace

def pieces (separator : Char) (s : String) : List String :=
  (piecesBetween separator s.toList).map String.ofList

def trim (s : String) : String := String.ofList (trimWhiteSpace s.toList)

/-- A directive, if its text is one. -/
def directive? (s : String) : Option Directive :=
  match pieces '=' s with
  | [part] =>
    match threshold? part with
    | some threshold => some ⟨none, threshold⟩
    | none => some ⟨some part, everything⟩
  | [part, level] =>
    if trim level = "" then some ⟨some part, everything⟩
    else (threshold? (trim level)).map fun threshold => ⟨some part, threshold⟩
  | _ => none

/-- Puts a directive in place of the one with its name, or behind all. -/
def insert (d : Directive) : List Directive → List Directive
  | [] => [d]
  | e :: rest => if e.name = d.name then d :: rest else e :: insert d rest

/-- The filter that a text specifies. What is behind a slash is the pattern, unless it is no regular
expression; with more slashes nothing of the specification counts. -/
def ofText (s : String) : Filter :=
  let directives (list : String) : List Directive :=
    ((((pieces ',' list).map trim).filter (· ≠ "")).filterMap directive?).foldl
      (fun ds d => insert d ds) []
  match pieces '/' s with
  | [list] => { directives := directives list }
  | [list, pattern] => { directives := directives list, pattern := Regex.parse? pattern }
  | _ => { directives := [] }

/-- The filter with another threshold for all parts that no directive names. -/
def withThreshold (f : Filter) (threshold : Threshold) : Filter :=
  { f with directives := insert ⟨none, threshold⟩ f.directives }

def nameLength (d : Directive) : Nat := (d.name.map String.utf8ByteSize).getD 0

/-- The directives, those with longer names first, and of equally long ones the later first. Where
there is none, errors are let through. -/
def ordered (f : Filter) : List Directive :=
  if f.directives.isEmpty then [⟨none, some .error⟩]
  else (f.directives.mergeSort fun a b => nameLength a ≤ nameLength b).reverse

def appliesTo (source : String) (d : Directive) : Bool :=
  d.name.all fun name => name.toList.isPrefixOf source.toList

/-- The first directive that applies decides. -/
def letsThrough (f : Filter) (source : String) (level : Level) : Bool :=
  match f.ordered.find? (appliesTo source) with
  | none => false
  | some d => d.threshold.any fun limit => level.rank ≤ limit.rank

def shows (f : Filter) (n : Notice) : Bool :=
  f.letsThrough n.source n.level && f.pattern.all (·.isMatch n.text)

/-- The filter of a run: what the environment specifies, or notices of level `info`; of what is
given on the command line, being quiet counts before telling more. -/
def ofRun (specification : Option String) (quiet verbose : Bool) : Filter :=
  let f := ofText (specification.getD "info")
  if quiet then f.withThreshold (some .warn)
  else if verbose then f.withThreshold (some .debug)
  else f

end Filter

end CaseHarvest
