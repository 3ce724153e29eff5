import ClusterConfig.Command.Condition
import ClusterConfig.Command.Format
import ClusterConfig.Command.Outcome
import ClusterConfig.FileSystem.File
import ClusterConfig.FileSystem.Tree

/-!
# Tools

What the installed programs do, apart from the shell: each takes its arguments and what it reads, and leaves an outcome.
-/

namespace ClusterConfig.Tool

/-- A complaint about a file. -/
def fileComplaint (fs : FileSystem) (tool file : String) (fault : IoFault) : Outcome :=
  .complained fs (tool ++ ": " ++ file ++ ": " ++ fault.message) 1

/-- What becomes of a change to the files. -/
def changed (fs : FileSystem) (tool file : String) : Except IoFault FileSystem → Outcome
  | .ok fs => .silent fs 0
  | .error fault => fileComplaint fs tool file fault

/-- The arguments that are no options, and the letters of the others. Two dashes end the options. -/
def options : List String → List Char × List String
  | [] => ([], [])
  | argument :: rest =>
    if argument = "--" then ([], rest)
    else
      let (letters, operands) := options rest
      match argument.toList with
      | '-' :: c :: cs => ((c :: cs) ++ letters, operands)
      | _ => (letters, argument :: operands)

/-- The name that a path ends in. -/
def lastName (file : String) : EntryName := ((Path.ofString file).segments.filter Path.significant).getLastD []

/-- Where a file goes: into a directory under its own name, or to the path itself. -/
def destination (fs : FileSystem) (file destination : String) : Path :=
  let path := Path.ofString destination
  if fs.isDirectory path then ⟨path.bytes ++ Path.slash :: lastName file⟩ else path

/-- Print the contents of files, and of what is read where none is named. -/
def concatenate (fs : FileSystem) (arguments : List String) (input : List UInt8) : Outcome :=
  let files := (options arguments).2
  .forEach fs (if files.isEmpty then ["-"] else files) fun fs file =>
    if file = "-" then .printed fs input
    else match fs.read (Path.ofString file) with
      | .ok bytes => .printed fs bytes
      | .error fault => fileComplaint fs "cat" file fault

/-- Do something with each file but the last, which says where it goes. -/
def toDestination (fs : FileSystem) (tool : String) (arguments : List String)
    (run : FileSystem → String → Path → Except IoFault FileSystem) : Outcome :=
  let files := (options arguments).2
  match files.reverse with
  | last :: first :: before =>
    .forEach fs (first :: before).reverse fun fs file => changed fs tool file (run fs file (destination fs file last))
  | _ => .complained fs (tool ++ ": missing operand") 1

/-- Copy files. -/
def copy (fs : FileSystem) (arguments : List String) : Outcome :=
  toDestination fs "cp" arguments fun fs file path => do fs.write path (← fs.read (Path.ofString file))

/-- Move files. -/
def move (fs : FileSystem) (arguments : List String) : Outcome :=
  toDestination fs "mv" arguments fun fs file path => fs.rename (Path.ofString file) path

/-- Remove files, and directories where the options say so. -/
def remove (fs : FileSystem) (arguments : List String) : Outcome :=
  let (letters, files) := options arguments
  let deep := letters.contains 'r' || letters.contains 'R'
  if files.isEmpty && !letters.contains 'f' then .complained fs "rm: missing operand" 1
  else .forEach fs files fun fs file =>
    let path := Path.ofString file
    match (if deep && fs.isDirectory path then fs.removeTree path else fs.removeFile path) with
    | .ok fs => .silent fs 0
    | .error .notFound => if letters.contains 'f' then .silent fs 0 else fileComplaint fs "rm" file .notFound
    | .error fault => fileComplaint fs "rm" file fault

/-- Make sure that files exist. -/
def touch (fs : FileSystem) (arguments : List String) : Outcome :=
  let files := (options arguments).2
  if files.isEmpty then .complained fs "touch: missing operand" 1
  else .forEach fs files fun fs file =>
    if fs.holds (Path.ofString file) then .silent fs 0
    else changed fs "touch" file ((fs.openToWrite (Path.ofString file)).map Prod.fst)

/-- Make directories, with those above them where the options say so. -/
def makeDirectory (fs : FileSystem) (arguments : List String) : Outcome :=
  let (letters, files) := options arguments
  if files.isEmpty then .complained fs "mkdir: missing operand" 1
  else .forEach fs files fun fs file =>
    if letters.contains 'p' then
      match fs.makeDirectories (Path.ofString file) with
      | (fs, .ok ()) => .silent fs 0
      | (fs, .error fault) => fileComplaint fs "mkdir" file fault
    else changed fs "mkdir" file (fs.makeDirectory (Path.ofString file))

/-- Remove directories that are empty. -/
def removeDirectory (fs : FileSystem) (arguments : List String) : Outcome :=
  let files := (options arguments).2
  if files.isEmpty then .complained fs "rmdir: missing operand" 1
  else .forEach fs files fun fs file => changed fs "rmdir" file (fs.removeDirectory (Path.ofString file))

/-- Print the path of the working directory. -/
def workingDirectory (fs : FileSystem) : Outcome :=
  match fs.workingPath with
  | .ok path => .printed fs (path.bytes ++ [10])
  | .error fault => .complained fs ("pwd: " ++ fault.message) 1

/-- The names in a directory, each on a line. -/
def listed (names : List String) : List UInt8 := Text.Utf8.encode (String.join (names.map (· ++ "\n")))

/-- List files and what directories hold, by default the working directory. -/
def list (fs : FileSystem) (arguments : List String) : Outcome :=
  let (letters, files) := options arguments
  .forEach fs (if files.isEmpty then ["."] else files) fun fs file =>
    match fs.find (Path.ofString file) with
    | .error fault => { fileComplaint fs "ls" file fault with status := .code 2 }
    | .ok i =>
      if letters.contains 'd' || (fs.directory? i).isNone then .printed fs (listed [file])
      else .printed fs (listed (fs.visibleNames (Path.ofString file) (letters.contains 'a')))

/-- The words of a text: runs of bytes that are no blanks. -/
def wordCount (bytes : List UInt8) : Nat :=
  let isGap (b : UInt8) : Bool := b == 32 || (9 ≤ b && b ≤ 13)
  (bytes.foldl (fun (n, inWord) b => if isGap b then (n, false) else (if inWord then n else n + 1, true)) (0, false)).1

/-- The numbers of lines, words and bytes, those that options ask for or all. -/
def counts (letters : List Char) (bytes : List UInt8) : List Nat :=
  let letters := if letters.isEmpty then ['l', 'w', 'c'] else letters
  (if letters.contains 'l' then [bytes.count 10] else []) ++ (if letters.contains 'w' then [wordCount bytes] else []) ++
    (if letters.contains 'c' then [bytes.length] else [])

/-- Numbers in columns of a width. -/
def columns (width : Nat) (numbers : List Nat) : String :=
  String.intercalate " " (numbers.map fun n =>
    let digits := toString n
    String.ofList (List.replicate (width - digits.length) ' ') ++ digits)

/-- Count lines, words and bytes of one file or of what is read. The columns are as wide as the number of bytes. -/
def count (fs : FileSystem) (arguments : List String) (input : List UInt8) : Outcome :=
  let (letters, files) := options arguments
  .forEach fs (if files.isEmpty then [""] else files) fun fs file =>
    match if file.isEmpty then .ok input else fs.read (Path.ofString file) with
    | .error fault => fileComplaint fs "wc" file fault
    | .ok bytes =>
      let numbers := counts letters bytes
      let width := if numbers.length = 1 then 1 else (toString bytes.length).length
      .printed fs (Text.Utf8.encode (columns width numbers ++ (if file.isEmpty then "" else " " ++ file) ++ "\n"))

/-- The first lines of bytes. -/
def firstLines : Nat → List UInt8 → List UInt8
  | 0, _ => []
  | _ + 1, [] => []
  | n + 1, b :: bytes => if b = 10 then b :: firstLines n bytes else b :: firstLines (n + 1) bytes

/-- How much of its input a program prints: a number of bytes or of lines, and the files. -/
def headAmount : List String → Option (Bool × Nat × List String)
  | "-n" :: n :: files => (Decimal.natOfDigits? 10 n.toList).map fun n => (false, n, files)
  | "-c" :: n :: files => (Decimal.natOfDigits? 10 n.toList).map fun n => (true, n, files)
  | first :: files =>
    match first.toList with
    | '-' :: 'n' :: digits => (Decimal.natOfDigits? 10 digits).map fun n => (false, n, files)
    | '-' :: 'c' :: digits => (Decimal.natOfDigits? 10 digits).map fun n => (true, n, files)
    | '-' :: digits => (Decimal.natOfDigits? 10 digits).map fun n => (false, n, files)
    | _ => some (false, 10, first :: files)
  | [] => some (false, 10, [])

/-- Print the start of a file or of what is read. -/
def head (fs : FileSystem) (arguments : List String) (input : List UInt8) : Outcome :=
  match headAmount arguments with
  | none => .complained fs "head: invalid number" 1
  | some (bytewise, n, files) =>
    .forEach fs (if files.isEmpty then [""] else files) fun fs file =>
      match if file.isEmpty then .ok input else fs.read (Path.ofString file) with
      | .error fault => fileComplaint fs "head" file fault
      | .ok bytes => .printed fs (if bytewise then bytes.take n else firstLines n bytes)

/-- Print the integers from one number to another, by default from one. -/
def sequence (fs : FileSystem) (arguments : List String) : Outcome :=
  match arguments.mapM fun a => Decimal.intOfDigits? 10 a.toList with
  | some [last] => .printed fs (listed ((List.range last.toNat).map fun i => toString (i + 1)))
  | some [first, last] =>
    .printed fs (listed ((List.range (last - first + 1).toNat).map fun (i : Nat) => toString (first + (i : Int))))
  | _ => .complained fs "seq: invalid operands" 1

/-- Check a condition. -/
def test (fs : FileSystem) (arguments : List String) : Outcome :=
  match Condition.holds? fs arguments with
  | some b => .silent fs (if b then 0 else 1)
  | none => .complained fs "test: bad condition" 2

/-- Check a condition between brackets. -/
def bracket (fs : FileSystem) (arguments : List String) : Outcome :=
  match arguments.reverse with
  | "]" :: rest => test fs rest.reverse
  | _ => .complained fs "[: missing ]" 2

/-- Print by a format. -/
def printf (fs : FileSystem) (byShell : Bool) (arguments : List String) : Outcome :=
  let arguments := if arguments.head? = some "--" then arguments.tail else arguments
  match arguments with
  | [] => .complained fs "printf: missing operand" 2
  | format :: rest =>
    let (bytes, good) := Format.print byShell format rest
    ⟨fs, bytes, [], .code (if good then 0 else 1)⟩

/-- Print arguments with blanks between them. An option leaves out the line break, another reads escapes. -/
def echo (fs : FileSystem) (byShell : Bool) (arguments : List String) : Outcome :=
  let isOption (argument : String) : Bool :=
    match argument.toList with
    | '-' :: c :: cs => (c :: cs).all (if byShell then "n" else "neE").toList.contains
    | _ => false
  let settings := if byShell then (arguments.take 1).takeWhile isOption else arguments.takeWhile isOption
  let letters := settings.flatMap fun argument => argument.toList.drop 1
  let text := String.intercalate " " (arguments.drop settings.length)
  let escapes := byShell || (letters.filter fun c => c == 'e' || c == 'E').getLast? == some 'e'
  let (bytes, ended) := if escapes then Format.unescape byShell text else (Text.Utf8.encode text, false)
  .printed fs (if ended || letters.contains 'n' then bytes else bytes ++ [10])

end ClusterConfig.Tool
