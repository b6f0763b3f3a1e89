import CaseHarvest.Rehearsal.Program
/-!
The programs that read texts and print.
-/
namespace CaseHarvest.Rehearsal.TextPrograms

/-- The content of the file at a path; a dash stands for what is put in. -/
def contentOf? (s : Surroundings) (path : String) : Option Bytes :=
  if path = "-" then some s.input
  else
    match s.disk.entry? s.cwd path with
    | some (.file content _) => some content
    | some .pipe => some []
    | _ => none

/-- The contents of files one by one; without any, what is put in. -/
def contents (s : Surroundings) (paths : List String) : List (String × Bytes) × Bool :=
  let paths := if paths.isEmpty then ["-"] else paths
  let found := paths.filterMap fun path => (contentOf? s path).map (path, ·)
  (found, found.length = paths.length)

def conclude (s : Surroundings) (output : Bytes) (ok : Bool) : Effect :=
  { s.print output with status := if ok then 0 else 1 }

def cat (s : Surroundings) (args : List String) : Effect :=
  let options : Options := ⟨"uAbeEnstTv", "", [("show-all", 'A'), ("number", 'n')]⟩
  match options.read? none args with
  | none => s.leave 1
  | some (_, paths) =>
    let (found, ok) := contents s paths
    conclude s (found.flatMap (·.2)) ok

/-- Lines with their ends. -/
def lines (bytes : Bytes) : List Bytes :=
  bytes.foldr (fun b ls =>
    if b = 10 then [b] :: ls
    else
      match ls with
      | [] => [[b]]
      | l :: ls => (b :: l) :: ls) []

/-- A count, and whether it is counted from the other end. -/
def count? (mark : Char) (text : String) : Option (Nat × Bool) :=
  match text.toList with
  | c :: cs =>
    if c = mark then (String.ofList cs).toNat?.map (·, true)
    else text.toNat?.map (·, false)
  | [] => none

/-- An option that is only a number. -/
def numberOption (args : List String) : List String :=
  match args with
  | arg :: rest =>
    match arg.toList with
    | '-' :: c :: cs => if (c :: cs).all Char.isDigit then "-n" :: String.ofList (c :: cs) :: rest
      else args
    | _ => args
  | [] => []

/-- Prints a part of each file, with headings if there are several. -/
def parts (s : Surroundings) (found : Found) (paths : List String) (part : Bytes → Bytes) :
    Effect :=
  let (files, ok) := contents s paths
  let headed := (1 < paths.length || found.has 'v') && !found.has 'q'
  let heading (path : String) : Bytes := Octets.toBytes ("==> " ++ path ++ " <==\n")
  let texts := files.map fun (path, bytes) =>
    (if headed then heading path else []) ++ part bytes
  conclude s (([10] : Bytes).intercalate texts) ok

def partOptions : Options :=
  ⟨"qv", "nc", [("lines", 'n'), ("bytes", 'c'), ("quiet", 'q'), ("verbose", 'v')]⟩

def head (s : Surroundings) (args : List String) : Effect :=
  match partOptions.read? none (numberOption args) with
  | none => s.leave 1
  | some (found, paths) =>
    let take {α : Type} (xs : List α) (n : Nat × Bool) : List α :=
      if n.2 then xs.take (xs.length - n.1) else xs.take n.1
    match found.value? 'c', count? '-' ((found.value? 'n').getD "10") with
    | some text, _ =>
      match count? '-' text with
      | some n => parts s found paths fun bytes => take bytes n
      | none => s.leave 1
    | none, some n => parts s found paths fun bytes => (take (lines bytes) n).flatten
    | none, none => s.leave 1

def tail (s : Surroundings) (args : List String) : Effect :=
  match partOptions.read? none (numberOption args) with
  | none => s.leave 1
  | some (found, paths) =>
    let take {α : Type} (xs : List α) (n : Nat × Bool) : List α :=
      if n.2 then xs.drop (n.1 - 1) else xs.drop (xs.length - n.1)
    match found.value? 'c', count? '+' ((found.value? 'n').getD "10") with
    | some text, _ =>
      match count? '+' text with
      | some n => parts s found paths fun bytes => take bytes n
      | none => s.leave 1
    | none, some n => parts s found paths fun bytes => (take (lines bytes) n).flatten
    | none, none => s.leave 1

def isSpace (b : UInt8) : Bool := b = 32 || (9 ≤ b && b ≤ 13)

/-- The number of words, where a word goes on behind a byte that is no blank. -/
def words : (inside : Bool) → Bytes → Nat
  | _, [] => 0
  | inside, b :: rest =>
    if isSpace b then words false rest else (if inside then 0 else 1) + words true rest

/-- A number filled up with blanks. -/
def aligned (width n : Nat) : String :=
  let digits := toString n
  String.ofList (List.replicate (width - digits.length) ' ') ++ digits

def wc (s : Surroundings) (args : List String) : Effect :=
  let options : Options :=
    ⟨"lwcm", "", [("lines", 'l'), ("words", 'w'), ("bytes", 'c'), ("chars", 'm')]⟩
  match options.read? none args with
  | none => s.leave 1
  | some (found, paths) =>
    let (files, ok) := contents s paths
    let wanted (c : Char) : Bool := found.isEmpty || found.has c
    let counts (bytes : Bytes) : List Nat :=
      (if wanted 'l' then [bytes.count 10] else []) ++ (if wanted 'w' then [words false bytes] else [])
        ++ (if wanted 'c' || found.has 'm' then [bytes.length] else [])
    let total := files.flatMap (·.2)
    let width := if (counts []).length = 1 && files.length ≤ 1 then 0
      else if paths.isEmpty then 7
      else (toString total.length).length
    let line (name : String) (bytes : Bytes) : String :=
      " ".intercalate ((counts bytes).map (aligned width)) ++
        (if name = "" then "" else " " ++ name) ++ "\n"
    let shown := files.map fun (path, bytes) => line (if paths.isEmpty then "" else path) bytes
    let shown := if 1 < paths.length then shown ++ [line "total" total] else shown
    conclude s (Octets.toBytes (String.join shown)) ok

def sort (s : Surroundings) (args : List String) : Effect :=
  let options : Options := ⟨"rnufs", "", [("reverse", 'r'), ("unique", 'u'), ("numeric-sort", 'n')]⟩
  match options.read? none args with
  | none => s.leave 2
  | some (found, paths) =>
    let (files, ok) := contents s paths
    if !ok then s.leave 2
    else
      let all := files.flatMap fun (_, bytes) => (lines bytes).map fun l => l.filter (· ≠ 10)
      let key (l : Bytes) : Nat :=
        ((Octets.ofBytes (l.takeWhile fun b => 48 ≤ b && b ≤ 57)).toNat?).getD 0
      let le (a b : Bytes) : Bool :=
        if found.has 'n' && key a ≠ key b then key a ≤ key b else Bytes.le a b
      let sorted := all.mergeSort le
      let sorted := if found.has 'r' then sorted.reverse else sorted
      let sorted := if found.has 'u' then sorted.eraseDups else sorted
      s.print (sorted.flatMap (· ++ [10]))

def seq (s : Surroundings) (args : List String) : Effect :=
  let range? : Option (Int × Int × Int) :=
    match args.map String.toInt? with
    | [some last] => some (1, 1, last)
    | [some first, some last] => some (first, 1, last)
    | [some first, some step, some last] => if step = 0 then none else some (first, step, last)
    | _ => none
  match range? with
  | none => s.leave 1
  | some (first, step, last) =>
    let steps : Nat := if 0 ≤ (last - first) * step then ((last - first) / step).toNat + 1 else 0
    let numbers := (List.range steps).map fun n => toString (first + step * Int.ofNat n) ++ "\n"
    s.print (Octets.toBytes (String.join numbers))

/-- A path without the separators at its end and what is in front of its last name. -/
def baseName (path : String) : String :=
  let path := Disk.withoutSlash path
  if path ≠ "" ∧ path.toList.all Path.isSeparator then "/"
  else String.ofList (path.toList.reverse.takeWhile fun c => !Path.isSeparator c).reverse

def basename (s : Surroundings) (args : List String) : Effect :=
  let line (name : String) : Effect := s.print (Octets.toBytes (name ++ "\n"))
  match (if args.head? = some "--" then args.drop 1 else args) with
  | [path] => if path.startsWith "-" && path ≠ "-" then s.leave 1 else line (baseName path)
  | [path, ending] =>
    let name := baseName path
    if name ≠ ending ∧ name.endsWith ending then
      line (String.ofList (name.toList.take (name.length - ending.length)))
    else line name
  | _ => s.leave 1

/-- What is in front of the last name of a path. -/
def dirName (path : String) : String :=
  let before := ((Disk.withoutSlash path).toList.reverse.dropWhile fun c => !Path.isSeparator c)
  match before, before.dropWhile Path.isSeparator with
  | [], _ => "."
  | _, [] => "/"
  | _, dir => String.ofList dir.reverse

def dirname (s : Surroundings) (args : List String) : Effect :=
  match (if args.head? = some "--" then args.drop 1 else args) with
  | [] => s.leave 1
  | paths =>
    if paths.any fun p => p.startsWith "-" && p ≠ "-" then s.leave 1
    else s.print (Octets.toBytes (String.join (paths.map fun p => dirName p ++ "\n")))

def ls (s : Surroundings) (args : List String) : Effect :=
  let options : Options := ⟨"1aAdFhlnrRst", "", [("all", 'a'), ("almost-all", 'A'), ("directory", 'd')]⟩
  match options.read? none args with
  | none => s.leave 2
  | some (found, paths) =>
    let paths := (if paths.isEmpty then ["."] else paths).mergeSort fun a b => a ≤ b
    let isShown (name : String) : Bool := found.hasAny "aA" || !name.startsWith "."
    let there := paths.filter fun p => (s.disk.ownEntry? s.cwd p).isSome
    let isListed (p : String) : Bool :=
      !found.has 'd' && s.disk.entry? s.cwd p = some .directory
    let (dirs, files) := there.partition isListed
    let list (p : String) : String :=
      let names := ((s.disk.find? s.cwd p).elim [] s.disk.names).filter isShown
      let names := if found.has 'a' then "." :: ".." :: names else names
      (if 1 < paths.length then p ++ ":\n" else "") ++ String.join (names.map (· ++ "\n"))
    let blocks := (if files.isEmpty then [] else [String.join (files.map (· ++ "\n"))]) ++ dirs.map list
    { s.print (Octets.toBytes ("\n".intercalate blocks)) with
      status := if there.length = paths.length then 0 else 2 }

def tee (s : Surroundings) (args : List String) : Effect :=
  let options : Options := ⟨"aip", "", [("append", 'a'), ("ignore-interrupts", 'i')]⟩
  match options.read? none args with
  | none => s.leave 1
  | some (found, paths) =>
    let write (d : Disk) (path : String) : Attempted :=
      Attempted.ofOption d <| do
        let l ← (d.place s.cwd path true).toOption
        if d.isDirectory l then none
        else some (d.write l ((if found.has 'a' then d.content l else []) ++ s.input))
    { (Attempted.forEach s.disk paths write).effect with output := s.input }

end CaseHarvest.Rehearsal.TextPrograms
