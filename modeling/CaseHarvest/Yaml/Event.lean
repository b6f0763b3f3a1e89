import CaseHarvest.Yaml.Token.Scan
/-!
The nodes of a YAML document as a list of events: a scalar or an alias is one event, a collection
is what its nodes give between a start and an end.
-/
namespace CaseHarvest.Yaml

/-- An event. `ρ` is how an alias refers to the node that it stands for. -/
inductive Event (ρ : Type) where
  | alias (target : ρ)
  | scalar (anchor : Option String) (tag : Option Bytes) (style : Style) (text : String)
  | sequenceStart (anchor : Option String)
  | mappingStart (anchor : Option String)
  /-- The end of the innermost open collection. -/
  | collectionEnd
  deriving DecidableEq, Repr

namespace Event

/-- A scalar that is not written at all. -/
def missing {ρ : Type} : Event ρ := .scalar none none .plain ""

/-- What the handles of tags mean: directives first, then what they mean everywhere. -/
abbrev Handles := List (String × Bytes)

def usualHandles : Handles :=
  [("!", Bytes.ofString "!"), ("!!", Bytes.ofString "tag:yaml.org,2002:")]

structure Properties where
  anchor : Option String := none
  tag : Option Bytes := none

/-- A tag with its handle replaced by what it means. -/
def tagBytes? (handles : Handles) (handle : String) (suffix : Bytes) : Option Bytes :=
  if handle = "" then some suffix else (handles.lookup handle).map (· ++ suffix)

/-- An anchor and a tag in front of a node, in either order. -/
def properties? (handles : Handles) : List Token → Option (Properties × List Token)
  | .anchor name :: .tag handle suffix :: rest => do
    return ({ anchor := some name, tag := some (← tagBytes? handles handle suffix) }, rest)
  | .tag handle suffix :: .anchor name :: rest => do
    return ({ anchor := some name, tag := some (← tagBytes? handles handle suffix) }, rest)
  | .anchor name :: rest => some ({ anchor := some name }, rest)
  | .tag handle suffix :: rest => do
    return ({ tag := some (← tagBytes? handles handle suffix) }, rest)
  | rest => some ({}, rest)

/-- The tokens before which a node of a block collection is missing. -/
def endsEntry : Option Token → Bool
  | some .blockEntry => true
  | some .blockEnd => true
  | _ => false

def endsKeyOrValue : Option Token → Bool
  | some .key => true
  | some .value => true
  | some .blockEnd => true
  | _ => false

def endsFlowValue (close : Token) : Option Token → Bool
  | some .flowEntry => true
  | some token => token = close
  | none => false

def endsFlowKey (close : Token) : Option Token → Bool
  | some .value => true
  | token => endsFlowValue close token

variable (handles : Handles)

/-- An event in front of others. -/
def before (event : Event String) :
    List (Event String) × List Token → List (Event String) × List Token
  | (events, rest) => (event :: events, rest)

mutual

/-- A node. Only in block context may it be a block collection, and only as key or value of a block
mapping a sequence without indentation. -/
def node? (block indentless : Bool) :
    (fuel : Nat) → List Token → Option (List (Event String) × List Token)
  | 0, _ => none
  | _ + 1, .alias name :: rest => some ([.alias name], rest)
  | fuel + 1, tokens => do
    let (properties, rest) ← properties? handles tokens
    match rest with
    | .scalar style text :: rest =>
      return ([.scalar properties.anchor properties.tag style text], rest)
    | .flowSequenceStart :: rest =>
      return before (.sequenceStart properties.anchor) (← flowItems? fuel true rest)
    | .flowMappingStart :: rest =>
      return before (.mappingStart properties.anchor) (← flowMembers? fuel true rest)
    | rest =>
      if indentless && rest.head? = some .blockEntry then
        return before (.sequenceStart properties.anchor) (← indentlessItems? fuel rest)
      else if block && rest.head? = some .blockSequenceStart then
        return before (.sequenceStart properties.anchor) (← blockItems? fuel (rest.drop 1))
      else if block && rest.head? = some .blockMappingStart then
        return before (.mappingStart properties.anchor) (← blockMembers? fuel (rest.drop 1))
      else if properties.anchor.isSome || properties.tag.isSome then
        return ([.scalar properties.anchor properties.tag .plain ""], rest)
      else none

/-- A node unless it is missing. -/
def nodeUnless? (isMissing block indentless : Bool) :
    (fuel : Nat) → List Token → Option (List (Event String) × List Token)
  | 0, _ => none
  | fuel + 1, tokens =>
    if isMissing then some ([missing], tokens) else node? block indentless fuel tokens

/-- The items of an indented sequence up to its end. -/
def blockItems? : (fuel : Nat) → List Token → Option (List (Event String) × List Token)
  | 0, _ => none
  | fuel + 1, .blockEntry :: rest => do
    let (item, rest) ← nodeUnless? (endsEntry rest.head?) true false fuel rest
    let (items, rest) ← blockItems? fuel rest
    return (item ++ items, rest)
  | _ + 1, .blockEnd :: rest => some ([.collectionEnd], rest)
  | _ + 1, _ => none

/-- The items of a sequence that is not indented; what is no item ends it. -/
def indentlessItems? : (fuel : Nat) → List Token → Option (List (Event String) × List Token)
  | 0, _ => none
  | fuel + 1, .blockEntry :: rest => do
    let isMissing := endsEntry rest.head? || endsKeyOrValue rest.head?
    let (item, rest) ← nodeUnless? isMissing true false fuel rest
    let (items, rest) ← indentlessItems? fuel rest
    return (item ++ items, rest)
  | _ + 1, rest => some ([.collectionEnd], rest)

/-- The members of an indented mapping up to its end. -/
def blockMembers? : (fuel : Nat) → List Token → Option (List (Event String) × List Token)
  | 0, _ => none
  | fuel + 1, .key :: rest => do
    let (key, rest) ← nodeUnless? (endsKeyOrValue rest.head?) true true fuel rest
    let (value, rest) ← match rest with
      | .value :: rest => nodeUnless? (endsKeyOrValue rest.head?) true true fuel rest
      | rest => some ([missing], rest)
    let (members, rest) ← blockMembers? fuel rest
    return (key ++ value ++ members, rest)
  | _ + 1, .blockEnd :: rest => some ([.collectionEnd], rest)
  | _ + 1, _ => none

/-- The items of a sequence between brackets, from the first one or from behind one. An item with a
key is a mapping of one member. -/
def flowItems? : (fuel : Nat) → (first : Bool) → List Token →
    Option (List (Event String) × List Token)
  | 0, _, _ => none
  | _ + 1, _, .flowSequenceEnd :: rest => some ([.collectionEnd], rest)
  | fuel + 1, false, .flowEntry :: rest => flowItems? fuel true rest
  | _ + 1, false, _ => none
  | fuel + 1, true, .key :: rest => do
    let (key, rest) ←
      if endsFlowKey .flowSequenceEnd rest.head? then some ([missing], rest.drop 1)
      else node? false false fuel rest
    let (value, rest) ← match rest with
      | .value :: rest =>
        nodeUnless? (endsFlowValue .flowSequenceEnd rest.head?) false false fuel rest
      | rest => some ([missing], rest)
    let (items, rest) ← flowItems? fuel false rest
    return (.mappingStart none :: key ++ value ++ .collectionEnd :: items, rest)
  | fuel + 1, true, tokens => do
    let (item, rest) ← node? false false fuel tokens
    let (items, rest) ← flowItems? fuel false rest
    return (item ++ items, rest)

/-- The members of a mapping between braces, from the first one or from behind one. A member without
a mark is a key alone. -/
def flowMembers? : (fuel : Nat) → (first : Bool) → List Token →
    Option (List (Event String) × List Token)
  | 0, _, _ => none
  | _ + 1, _, .flowMappingEnd :: rest => some ([.collectionEnd], rest)
  | fuel + 1, false, .flowEntry :: rest => flowMembers? fuel true rest
  | _ + 1, false, _ => none
  | fuel + 1, true, .key :: rest => do
    let (key, rest) ← nodeUnless? (endsFlowKey .flowMappingEnd rest.head?) false false fuel rest
    let (value, rest) ← match rest with
      | .value :: rest =>
        nodeUnless? (endsFlowValue .flowMappingEnd rest.head?) false false fuel rest
      | rest => some ([missing], rest)
    let (members, rest) ← flowMembers? fuel false rest
    return (key ++ value ++ members, rest)
  | fuel + 1, true, tokens => do
    let (key, rest) ← node? false false fuel tokens
    let (members, rest) ← flowMembers? fuel false rest
    return (key ++ missing :: members, rest)

end

/-- The directives in front of a document: at most one version, which is 1.1 or 1.2, and for each
handle at most one meaning. -/
def directives? (hasVersion : Bool) (handles : Handles) : List Token → Option (Handles × List Token)
  | .version major minor :: rest =>
    if hasVersion || major ≠ 1 || (minor ≠ 1 && minor ≠ 2) then none
    else directives? true handles rest
  | .tagHandle handle meaning :: rest =>
    if (handles.lookup handle).isSome then none
    else directives? hasVersion (handles ++ [(handle, meaning)]) rest
  | rest => some (handles, rest)

/-- The tokens before which the content of a document is missing. -/
def endsDocument : Option Token → Bool
  | none => true
  | some .documentStart => true
  | some .documentEnd => true
  | some (.version _ _) => true
  | some (.tagHandle _ _) => true
  | _ => false

/-- The one document of a text, if it has any: directives and a start line, or neither, then a node
and end lines. -/
def ofTokens? (tokens : List Token) : Option (List (Event String)) := do
  -- each token takes at most three calls
  let fuel := 3 * tokens.length + 3
  if tokens.isEmpty then return []
  let (declared, rest) ← directives? false [] tokens
  let (events, rest) ←
    match rest with
    | .documentStart :: rest =>
      nodeUnless? (declared ++ usualHandles) (endsDocument rest.head?) true false fuel rest
    | rest =>
      if rest.length < tokens.length then none else node? usualHandles true false fuel rest
  if rest.all (· = .documentEnd) then return events else none

end Event

end CaseHarvest.Yaml
