import CaseHarvest.Bytes.Word
import CaseHarvest.Record.Basic
/-!
A record as text, in the layout of the engine's own inspection tool: three lines about the record,
then for each object its name, size, bytes, digits, numbers where the width has them, and text.
-/
namespace CaseHarvest

/-- How a byte appears in the literal of a payload. -/
def escapeByte (b : UInt8) : List Char :=
  if b = 92 then ['\\', '\\']
  else if b = 39 then ['\\', '\'']
  else if b = 9 then ['\\', 't']
  else if b = 10 then ['\\', 'n']
  else if b = 13 then ['\\', 'r']
  else if 32 ≤ b ∧ b ≤ 126 then [Char.ofNat b.toNat]
  else '\\' :: 'x' :: Bytes.hexPair b

/-- A payload between `b'` and a quote. -/
def bytesLiteral (bytes : Bytes) : List Char :=
  'b' :: '\'' :: bytes.flatMap escapeByte ++ ['\'']

/-- A byte where it is a visible character or a blank, else a dot. -/
def visible (b : UInt8) : Char := if 32 ≤ b ∧ b ≤ 126 then Char.ofNat b.toNat else '.'

/-- The signed and the unsigned number at the widths that machine integers have. -/
def integerViews (bytes : Bytes) : Option (Int × Nat) :=
  if bytes.length ∈ [1, 2, 4, 8] then some (bytes.signed, bytes.unsigned) else none

namespace Record

/-- The width of every object's index: that of the last one. -/
def indexWidth (r : Record) : Nat := (toString (max (r.objects.length - 1) 1)).length

def padLeft (width : Nat) (text : String) : String :=
  String.ofList (List.replicate (width - text.length) ' ') ++ text

def headerLines (r : Record) : List String :=
  [ "ktest file : '" ++ r.source.getD "" ++ "'",
    "args       : [" ++ ", ".intercalate (r.args.map fun a => "'" ++ a ++ "'") ++ "]",
    "num objects: " ++ toString r.objects.length ]

/-- The facts about an object. Its size and numbers are those of the whole payload; the bytes shown
lack their trailing zeros if `trim` is set. -/
def objectFacts (trim : Bool) (o : Object) : List String :=
  let shown := o.shown trim
  [ "name: '" ++ o.name ++ "'",
    "size: " ++ toString o.bytes.length,
    "data: " ++ String.ofList (bytesLiteral shown),
    "hex : 0x" ++ shown.toHex ]
  ++ (match integerViews o.bytes with
      | some (int, uint) => ["int : " ++ toString int, "uint: " ++ toString uint]
      | none => [])
  ++ ["text: " ++ String.ofList (shown.map visible)]

def objectLines (trim : Bool) (width index : Nat) (o : Object) : List String :=
  (objectFacts trim o).map (("object " ++ padLeft width (toString index) ++ ": ") ++ ·)

def dumpLines (trim : Bool) (r : Record) : List String :=
  r.headerLines ++ r.objects.zipIdx.flatMap fun (o, i) => objectLines trim r.indexWidth i o

/-- Each line with its end. -/
def unlines : List String → String
  | [] => ""
  | line :: rest => line ++ "\n" ++ unlines rest

/-- The dump of a record. -/
def describe (trim : Bool) (r : Record) : String := unlines (r.dumpLines trim)

end Record

end CaseHarvest
