/-!
Sets of characters, built from ranges.
-/
namespace CaseHarvest

inductive CharSet where
  | empty
  | range (first last : Char)
  | union (a b : CharSet)
  | inter (a b : CharSet)
  | diff (a b : CharSet)
  | complement (a : CharSet)
  /-- With each letter of the Latin alphabet its other case as well. -/
  | anyCase (a : CharSet)
  deriving DecidableEq, Repr

namespace CharSet

def otherCase (c : Char) : Char :=
  if 'a' ≤ c ∧ c ≤ 'z' then c.toUpper else if 'A' ≤ c ∧ c ≤ 'Z' then c.toLower else c

def contains : CharSet → Char → Bool
  | empty, _ => false
  | range first last, c => first ≤ c && c ≤ last
  | union a b, c => a.contains c || b.contains c
  | inter a b, c => a.contains c && b.contains c
  | diff a b, c => a.contains c && !b.contains c
  | complement a, c => !a.contains c
  | anyCase a, c => a.contains c || a.contains (otherCase c)

def single (c : Char) : CharSet := range c c

def all : CharSet := complement empty

/-- What is in one of two sets and not in the other. -/
def symmDiff (a b : CharSet) : CharSet := (a.diff b).union (b.diff a)

def ofRanges (ranges : List (Char × Char)) : CharSet :=
  ranges.foldl (fun s (first, last) => s.union (range first last)) empty

/-- Whether nothing that fits into one byte is in the set but ASCII characters. -/
def isAsciiAmongBytes (s : CharSet) : Bool :=
  (List.range 128).all fun n => !s.contains (Char.ofNat (128 + n))

def digits : CharSet := range '0' '9'

def letters : CharSet := ofRanges [('A', 'Z'), ('a', 'z')]

/-- What names are made of. -/
def wordChars : CharSet := (letters.union digits).union (single '_')

/-- Blank, tab, line feed, vertical tab, form feed and carriage return. -/
def spaces : CharSet := ofRanges [('\t', '\r'), (' ', ' ')]

/-- The sets of ASCII characters that have a name. -/
def named? (name : String) : Option CharSet :=
  match name with
  | "alnum" => some (letters.union digits)
  | "alpha" => some letters
  | "ascii" => some (range '\x00' '\x7f')
  | "blank" => some (ofRanges [('\t', '\t'), (' ', ' ')])
  | "cntrl" => some (ofRanges [('\x00', '\x1f'), ('\x7f', '\x7f')])
  | "digit" => some digits
  | "graph" => some (range '!' '~')
  | "lower" => some (range 'a' 'z')
  | "print" => some (range ' ' '~')
  | "punct" => some (ofRanges [('!', '/'), (':', '@'), ('[', '\x60'), ('\x7b', '~')])
  | "space" => some spaces
  | "upper" => some (range 'A' 'Z')
  | "word" => some wordChars
  | "xdigit" => some (ofRanges [('0', '9'), ('A', 'F'), ('a', 'f')])
  | _ => none

end CharSet

end CaseHarvest
