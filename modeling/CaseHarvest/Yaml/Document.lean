import CaseHarvest.Binary64.Parse
import CaseHarvest.ValueReader
import CaseHarvest.Yaml.Event
/-!
A YAML document with its aliases resolved, and reading values from it. A node is the list of events
that begins with it.
-/
namespace CaseHarvest.Yaml

abbrev Node := List (Event Nat)

/-- The events of a document; an alias refers to the place among them where its node begins. -/
structure Document where
  events : List (Event Nat)

namespace Document

/-- What is known about anchors on the way through the events: the number that each name has last
been given, and the place that each number has last been given to. -/
structure Anchors where
  numbers : List (String × Nat) := []
  places : List (Nat × Nat) := []

/-- Gives a name the next number, which is how many names there have been. -/
def Anchors.note (a : Anchors) (position : Nat) : Option String → Anchors
  | none => a
  | some name => {
    numbers := (name, a.numbers.length) :: a.numbers.filter (·.1 ≠ name)
    places := (a.numbers.length, position) :: a.places }

/-- Puts numbers in place of the names in aliases; an alias comes behind an anchor of its name. -/
def numbered? (anchors : Anchors) (position : Nat) :
    List (Event String) → Option (List (Event Nat) × Anchors)
  | [] => some ([], anchors)
  | .alias name :: rest => do
    let number ← List.lookup name anchors.numbers
    let (events, anchors) ← numbered? anchors (position + 1) rest
    return (.alias number :: events, anchors)
  | .scalar anchor tag style text :: rest => do
    let (events, anchors) ← numbered? (anchors.note position anchor) (position + 1) rest
    return (.scalar anchor tag style text :: events, anchors)
  | .sequenceStart anchor :: rest => do
    let (events, anchors) ← numbered? (anchors.note position anchor) (position + 1) rest
    return (.sequenceStart anchor :: events, anchors)
  | .mappingStart anchor :: rest => do
    let (events, anchors) ← numbered? (anchors.note position anchor) (position + 1) rest
    return (.mappingStart anchor :: events, anchors)
  | .collectionEnd :: rest => do
    let (events, anchors) ← numbered? anchors (position + 1) rest
    return (.collectionEnd :: events, anchors)

/-- The place that the number in an alias has last been given to. -/
def located (anchors : Anchors) : Event Nat → Event Nat
  | .alias number => .alias ((List.lookup number anchors.places).getD 0)
  | event => event

def ofEvents? (events : List (Event String)) : Option Document := do
  let (events, anchors) ← numbered? {} 0 events
  return ⟨events.map (located anchors)⟩

def parse? (text : String) : Option Document := do
  ofEvents? (← Event.ofTokens? (← Token.ofText? text))

/-- The node itself, or the one that an alias stands for. -/
def resolve (doc : Document) (node : Node) : Node :=
  match node with
  | .alias place :: _ => doc.events.drop place
  | _ => node

/-- What follows the first node, at a depth of open collections. -/
def skipFrom : (depth : Nat) → Node → Node
  | _, [] => []
  | depth, .sequenceStart _ :: rest => skipFrom (depth + 1) rest
  | depth, .mappingStart _ :: rest => skipFrom (depth + 1) rest
  | depth, .collectionEnd :: rest => if depth ≤ 1 then rest else skipFrom (depth - 1) rest
  | 0, _ :: rest => rest
  | depth + 1, _ :: rest => skipFrom (depth + 1) rest

/-- The nodes up to the end of the collection. -/
def nodes : (fuel : Nat) → Node → List Node
  | 0, _ => []
  | _ + 1, [] => []
  | _ + 1, .collectionEnd :: _ => []
  | fuel + 1, node => node :: nodes fuel (skipFrom 0 node)

/-- The text of a scalar. -/
def text? (doc : Document) (node : Node) : Option String :=
  match doc.resolve node with
  | .scalar _ _ _ text :: _ => some text
  | _ => none

/-- A sequence of texts, which may be missing altogether. -/
def texts? (doc : Document) (node : Node) : Option (List String) :=
  match doc.resolve node with
  | .sequenceStart _ :: rest => (nodes rest.length rest).mapM doc.text?
  | .scalar _ _ .plain "" :: _ => some []
  | _ => none

/-- The text of a scalar that may be a number: one that is not quoted, or a literal block with the
tag of the kind. -/
def numberText? (doc : Document) (kind : String) (node : Node) : Option String :=
  match doc.resolve node with
  | .scalar _ _ .plain text :: _ => some text
  | .scalar _ (some tag) .literal text :: _ =>
    if tag = Bytes.ofString ("tag:yaml.org,2002:" ++ kind) then some text else none
  | _ => none

/-- A text without a plus sign in front, unless another sign follows that. -/
def withoutPlus? (text : List Char) : Option (List Char) :=
  match text with
  | '+' :: c :: rest => if c = '+' ∨ c = '-' then none else some (c :: rest)
  | '+' :: [] => some []
  | text => some text

/-- A number, which must not be too great, or one of the values with a name. -/
def secondsOfText? (text : String) : Option Binary64 := do
  let unsigned ← (withoutPlus? text.toList).map String.ofList
  if unsigned ∈ [".inf", ".Inf", ".INF"] then return .infinity false
  else if text ∈ ["-.inf", "-.Inf", "-.INF"] then return .infinity true
  else if text ∈ [".nan", ".NaN", ".NAN"] then return .notANumber
  else
    let x ← Binary64.parse? unsigned
    if x.isFinite then return x else none

def digitOf? (base : Nat) (c : Char) : Option Nat := do
  let digit ← hexValue? c
  if digit < base then return digit else none

/-- A natural number in a base; there is at least one digit. -/
def natOf? (base : Nat) : List Char → Option Nat
  | [] => none
  | digits => digits.foldlM (fun n c => do return base * n + (← digitOf? base c)) 0

/-- A whole number behind the mark of its base, with a minus sign in front of the mark if
negative. -/
def basedInt? (text unsigned : List Char) : Option Int :=
  let based (base : Nat) (letter : Char) : Option Int :=
    match unsigned, text with
    | '0' :: c :: digits, _ => if c = letter then (natOf? base digits).map Int.ofNat else none
    | _, '-' :: '0' :: c :: digits =>
      if c = letter then (natOf? base digits).map fun n => -(n : Int) else none
    | _, _ => none
  (based 16 'x').or ((based 8 'o').or (based 2 'b'))

/-- Digits with a zero in front of others, after an optional sign. -/
def hasIdleZero (text : List Char) : Bool :=
  let digits := match text with
    | '-' :: rest => rest
    | '+' :: rest => rest
    | rest => rest
  match digits with
  | '0' :: c :: rest => (c :: rest).all Char.isDigit
  | _ => false

def int32OfText? (text : String) : Option Int32 := do
  let unsigned ← withoutPlus? text.toList
  match basedInt? text.toList unsigned with
  | some n => int32OfInt? n
  | none => if hasIdleZero text.toList then none else int32? (String.ofList unsigned)

/-- The values of the known keys, each of which may be there once. Every key must be a scalar. -/
def members? (doc : Document) (names : List String) : List Node → Option (List (String × Node))
  | [] => some []
  | [_] => none
  | key :: value :: rest => do
    let name ← doc.text? key
    let members ← members? doc names rest
    if name ∈ names then
      if members.any (·.1 = name) then none else return (name, value) :: members
    else return members

/-- The fields of a structure: a mapping, or nothing at all. -/
def fields? (doc : Document) (names : List String) (node : Node) : Option (List (String × Node)) :=
  match doc.resolve node with
  | [] => some []
  | .mappingStart _ :: rest => members? doc names (nodes rest.length rest)
  | .scalar _ _ .plain "" :: _ => some []
  | _ => none

def reader (doc : Document) : ValueReader Node where
  text := doc.text?
  texts := doc.texts?
  seconds node := doc.numberText? "float" node >>= secondsOfText?
  int32 node := doc.numberText? "int" node >>= int32OfText?
  fields := doc.fields?

end Document

end CaseHarvest.Yaml
