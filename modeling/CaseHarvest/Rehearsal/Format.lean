import CaseHarvest.Rehearsal.Program
/-!
Printing words: escapes, and formats with places for arguments.
-/
namespace CaseHarvest.Rehearsal.Format

def isOctal (c : Char) : Bool := '0' ≤ c && c ≤ '7'

def isHex (c : Char) : Bool := Arithmetic.digitValue c < 16

/-- The byte of a number. -/
def byte (n : Nat) : Char := Char.ofNat (n % 256)

def digitsValue (base : Nat) (digits : List Char) : Nat :=
  digits.foldl (fun n c => n * base + Arithmetic.digitValue c) 0

/-- The digits at the front, but not more than some. -/
def takeDigits (isDigit : Char → Bool) (most : Nat) (cs : List Char) : List Char × List Char :=
  let digits := (cs.take most).takeWhile isDigit
  (digits, cs.drop digits.length)

/-- What the characters behind a backslash stand for, if they stand for one character. -/
def escape? (strict : Bool) : List Char → Option (Char × List Char)
  | 'a' :: cs => some ('\x07', cs)
  | 'b' :: cs => some ('\x08', cs)
  | 'e' :: cs => some ('\x1b', cs)
  | 'f' :: cs => some ('\x0c', cs)
  | 'n' :: cs => some ('\n', cs)
  | 'r' :: cs => some ('\r', cs)
  | 't' :: cs => some ('\t', cs)
  | 'v' :: cs => some ('\x0b', cs)
  | '\\' :: cs => some ('\\', cs)
  | 'x' :: cs =>
    let (digits, rest) := takeDigits isHex 2 cs
    if strict ∨ digits.isEmpty then none else some (byte (digitsValue 16 digits), rest)
  | cs =>
    let (digits, rest) := takeDigits isOctal 3 cs
    if digits.isEmpty then none else some (byte (digitsValue 8 digits), rest)

/-- A text with its escapes replaced, and whether one of them ends all output. Octal numbers may
have a zero more in front. -/
def unescaped (strict : Bool) : (fuel : Nat) → List Char → List Char × Bool
  | 0, cs => (cs, false)
  | _, [] => ([], false)
  | fuel + 1, '\\' :: cs =>
    let go (c : Char) (rest : List Char) : List Char × Bool :=
      let (text, stopped) := unescaped strict fuel rest
      (c :: text, stopped)
    match cs with
    | 'c' :: _ => ([], true)
    | '0' :: rest =>
      let (digits, rest) := takeDigits isOctal 3 rest
      go (byte (digitsValue 8 digits)) rest
    | cs =>
      match escape? strict cs with
      | some (c, rest) => go c rest
      | none => go '\\' cs
  | fuel + 1, c :: cs =>
    let (text, stopped) := unescaped strict fuel cs
    (c :: text, stopped)

/-- How an argument is put into its place. -/
structure Directive where
  flags : List Char
  width : Nat
  precision : Option Nat
  conversion : Char

namespace Directive

/-- Fills up with blanks to the width. -/
def padded (d : Directive) (text : List Char) : List Char :=
  let blanks := List.replicate (d.width - text.length) ' '
  if d.flags.contains '-' then text ++ blanks else blanks ++ text

/-- A number with its sign, filled up with zeros where that is asked for. -/
def number (d : Directive) (sign : List Char) (digits : List Char) : List Char :=
  let digits := if d.precision = some 0 && digits = ['0'] then [] else digits
  let digits := List.replicate (d.precision.getD 1 - digits.length) '0' ++ digits
  if d.flags.contains '0' && !d.flags.contains '-' && d.precision.isNone then
    sign ++ List.replicate (d.width - sign.length - digits.length) '0' ++ digits
  else d.padded (sign ++ digits)

def signed (d : Directive) (n : Int) : List Char :=
  let sign := if n < 0 then ['-']
    else if d.flags.contains '+' then ['+']
    else if d.flags.contains ' ' then [' ']
    else []
  d.number sign (Nat.toDigits 10 n.natAbs)

def unsigned (d : Directive) (base : Nat) (n : Int) : List Char :=
  let n : Nat := (n % 18446744073709551616).toNat
  let lead := if d.flags.contains '#' && n ≠ 0 then
      (if base = 16 then ['0', 'x'] else if base = 8 then ['0'] else [])
    else []
  d.number lead (Nat.toDigits base n)

end Directive

/-- The number at the front of an argument, and whether nothing else is in it. -/
def numeric (text : String) : Int × Bool :=
  match text.toList.dropWhile CharSet.spaces.contains with
  | '\'' :: c :: _ => (Int.ofNat c.toNat, true)
  | '"' :: c :: _ => (Int.ofNat c.toNat, true)
  | cs =>
    let (negative, cs) := match cs with
      | '-' :: cs => (true, cs)
      | '+' :: cs => (false, cs)
      | cs => (false, cs)
    let (base, cs) := match cs with
      | '0' :: 'x' :: c :: cs => if isHex c then (16, c :: cs) else (8, '0' :: 'x' :: c :: cs)
      | '0' :: 'X' :: c :: cs => if isHex c then (16, c :: cs) else (8, '0' :: 'X' :: c :: cs)
      | '0' :: cs => (8, '0' :: cs)
      | cs => (10, cs)
    let digits := cs.takeWhile fun c => Arithmetic.digitValue c < base
    let n := Int.ofNat (digitsValue base digits)
    (if negative then -n else n, !digits.isEmpty && digits.length = cs.length)

/-- What has been printed, and what is left of the arguments. -/
structure Printed where
  text : List Char
  args : List String
  /-- Whether an argument was not what its place asked for. -/
  failed : Bool
  /-- Whether nothing more is to be printed. -/
  stopped : Bool
  /-- Whether the format takes arguments. -/
  taking : Bool

namespace Printed

def push (p : Printed) (text : List Char) : Printed := { p with text := p.text ++ text }

def fail (p : Printed) : Printed := { p with failed := true }

def next (p : Printed) : String × Printed :=
  (p.args.headD "", { p with args := p.args.tail, taking := true })

/-- A number that stands in the format or, as a star, in the arguments. -/
def count (p : Printed) (cs : List Char) : Option Nat × Printed × List Char :=
  match cs with
  | '*' :: cs =>
    let (arg, p) := p.next
    (some (numeric arg).1.toNat, p, cs)
  | cs =>
    let digits := cs.takeWhile Char.isDigit
    (if digits.isEmpty then none else some (digitsValue 10 digits), p, cs.drop digits.length)

/-- Puts the next argument into its place; nothing if there is no such place. -/
def place? (strict : Bool) (p : Printed) (d : Directive) : Option Printed :=
  let cut (cs : List Char) : List Char := d.precision.elim cs cs.take
  let (arg, after) := p.next
  let integer (write : Int → List Char) : Printed :=
    let (n, whole) := numeric arg
    let after := after.push (write n)
    if whole ∨ p.args.isEmpty then after else after.fail
  match d.conversion with
  | 's' => some (after.push (d.padded (cut arg.toList)))
  | 'c' => some (after.push (d.padded (arg.toList.take 1)))
  | 'b' =>
    let (text, stopped) := unescaped strict (arg.length + 1) arg.toList
    some { after.push (d.padded (cut text)) with stopped }
  | 'd' => some (integer d.signed)
  | 'i' => some (integer d.signed)
  | 'u' => some (integer (d.unsigned 10))
  | 'o' => some (integer (d.unsigned 8))
  | 'x' => some (integer (d.unsigned 16))
  | 'X' => some (integer fun n => (d.unsigned 16 n).map Char.toUpper)
  | _ => none

/-- Goes through a format once. -/
def once (strict : Bool) : (fuel : Nat) → Printed → List Char → Printed
  | 0, p, _ => p
  | _, p, [] => p
  | fuel + 1, p, '\\' :: cs =>
    match escape? strict cs with
    | some (c, rest) => once strict fuel (p.push [c]) rest
    | none => once strict fuel (p.push ['\\']) cs
  | fuel + 1, p, '%' :: '%' :: cs => once strict fuel (p.push ['%']) cs
  | fuel + 1, p, '%' :: cs =>
    let flags := cs.takeWhile fun c => "-+ #0".toList.contains c
    let (width, p, cs) := p.count (cs.drop flags.length)
    let (precision, p, cs) := match cs with
      | '.' :: cs =>
        let (n, p, cs) := p.count cs
        (some (n.getD 0), p, cs)
      | cs => (none, p, cs)
    match cs with
    | [] => { p.fail with stopped := true }
    | c :: cs =>
      match p.place? strict ⟨flags, width.getD 0, precision, c⟩ with
      | none => { p.fail with stopped := true }
      | some p => if p.stopped then p else once strict fuel p cs
  | fuel + 1, p, c :: cs => once strict fuel (p.push [c]) cs

/-- Goes through a format as long as it takes up arguments. -/
def all (strict : Bool) (format : List Char) : (fuel : Nat) → Printed → Printed
  | 0, p => p
  | fuel + 1, p =>
    let after := once strict (format.length + 1) { p with taking := false } format
    if after.stopped ∨ after.args.isEmpty ∨ !after.taking then after
    else all strict format fuel after

end Printed

def printf (s : Surroundings) (args : List String) : Effect :=
  let isOption (arg : String) : Bool := arg.startsWith "-" && arg ≠ "-"
  let marked := args.head? = some "--"
  match (if marked then args.drop 1 else args) with
  | [] => s.leave 2
  | format :: args =>
    if s.strict && !marked && isOption format then s.leave 2
    else
    let p := Printed.all s.strict format.toList (args.length + 1) ⟨[], args, false, false, false⟩
    { disk := s.disk
      output := Octets.toBytes (String.ofList p.text)
      status := if p.failed then (if s.strict && p.stopped then 2 else 1) else 0 }

/-- Whether an argument sets options of `echo` outside of the standard. -/
def isEchoOption (arg : String) : Bool :=
  match arg.toList with
  | '-' :: c :: cs => (c :: cs).all "neE".toList.contains
  | _ => false

/-- Prints words between blanks. In the standard form escapes are always replaced. -/
def echo (s : Surroundings) (args : List String) : Effect :=
  let options := if s.strict then args.takeWhile (· = "-n") |>.take 1 else args.takeWhile isEchoOption
  let letters := options.flatMap String.toList
  let text := (" ".intercalate (args.drop options.length)).toList
  let escapes := s.strict || letters.contains 'e'
  let (text, stopped) := if escapes then unescaped s.strict (text.length + 1) text else (text, false)
  let ending := if stopped || letters.contains 'n' then [] else ['\n']
  s.print (Octets.toBytes (String.ofList (text ++ ending)))

end CaseHarvest.Rehearsal.Format
