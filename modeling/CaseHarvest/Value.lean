import CaseHarvest.Bytes.Word
import CaseHarvest.Record.Basic
/-!
What a payload is taken to be. An engine records bytes only; the first rule that applies decides
whether they are read as a character, a number, a text or a list of numbers.
-/
namespace CaseHarvest

inductive ValueKind where
  | char
  | int
  | string
  | intArray
  deriving DecidableEq, Repr

/-- The name of a kind in documents. -/
def ValueKind.label : ValueKind → String
  | char => "char"
  | int => "int"
  | string => "string"
  | intArray => "int array"

def ValueKind.ofLabel? : String → Option ValueKind
  | "char" => some .char
  | "int" => some .int
  | "string" => some .string
  | "int array" => some .intArray
  | _ => none

inductive Value where
  | char (c : Char)
  | int (n : Int)
  | string (s : String)
  | intArray (items : List Int)
  deriving DecidableEq, Repr

namespace Value

def kind : Value → ValueKind
  | char _ => .char
  | int _ => .int
  | string _ => .string
  | intArray _ => .intArray

/-- The text of a value in documents. -/
def render : Value → String
  | char c => c.toString
  | int n => toString n
  | string s => s
  | intArray items => "[" ++ ", ".intercalate (items.map toString) ++ "]"

/-- One rule: the kind it gives, when it applies, and how it reads the bytes. -/
structure Rule where
  kind : ValueKind
  applies : Bytes → Bool
  read : Bytes → Value

/-- A single byte is the character with its code point. -/
def charRule : Rule where
  kind := .char
  applies bytes := bytes.length == 1
  read bytes := .char (Char.ofNat (bytes.headD 0).toNat)

/-- Four bytes are a signed number. -/
def intRule : Rule where
  kind := .int
  applies bytes := bytes.length == 4
  read bytes := .int (Bytes.signed bytes)

/-- ASCII bytes that do not fill whole words are a text without its trailing zeros. -/
def stringRule : Rule where
  kind := .string
  applies bytes := bytes.isAscii && bytes.length % 4 != 0
  read bytes := .string bytes.trimZeros.toLatin1

/-- All else is a list of signed words; a short last word is read at its own width. -/
def intArrayRule : Rule where
  kind := .intArray
  applies _ := true
  read bytes := .intArray (bytes.words.map Bytes.signed)

/-- The rules by precedence, all but the last one, which always applies. -/
def rules : List Rule := [charRule, intRule, stringRule]

def ruleFor (bytes : Bytes) : Rule := (rules.find? (·.applies bytes)).getD intArrayRule

/-- The kind of a payload. -/
def classify (bytes : Bytes) : ValueKind := (ruleFor bytes).kind

def interpret (bytes : Bytes) : Value := (ruleFor bytes).read bytes

end Value

end CaseHarvest
