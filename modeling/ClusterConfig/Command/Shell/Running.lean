import ClusterConfig.Command.Shell.Arithmetic
import ClusterConfig.Command.Shell.Pattern
import ClusterConfig.Command.Shell.Reading
import ClusterConfig.Command.Tools
import ClusterConfig.FileSystem.Standard

/-!
# Running scripts and programs

A shell keeps variables and the status of the last command. What a command writes goes to a channel: one of the streams of the
shell, or a file that a redirection names. Running takes fuel, as a script may never end.
-/

namespace ClusterConfig.Shell

/-- Where what is written goes. -/
inductive Channel where
  | output
  | errors
  | file (inode : Nat)
  /-- A stream that was never opened. -/
  | closed
  deriving DecidableEq, Repr

/-- Where the two streams of a command lead. -/
structure Channels where
  output : Channel
  errors : Channel
  deriving DecidableEq, Repr

/-- A shell that runs. -/
structure State where
  files : FileSystem
  bindings : List (String × String)
  status : UInt8
  /-- What is left to read. -/
  input : List UInt8
  output : List UInt8
  errors : List UInt8
  /-- An expression had no value, so the shell gives up. -/
  stuck : Bool

/-- What happens after a command. -/
inductive Flow where
  | next
  /-- The innermost loop ends. -/
  | left
  /-- The innermost loop goes on with its next turn. -/
  | again
  | ended
  | killed (signal : Nat)
  deriving DecidableEq, Repr

/-- What happens after a shell that ran inside another. -/
def Flow.leave : Flow → Flow
  | killed signal => killed signal
  | _ => next

/-- The streams of a shell itself. -/
def ownChannels : Channels := ⟨.output, .errors⟩

/-- The number of the process of a shell. -/
def processId : Nat := 4242

namespace State

/-- A shell that starts. -/
def start (files : FileSystem) (input : List UInt8) : State := ⟨files, [], 0, input, [], [], false⟩

/-- Write bytes to a channel. -/
def write (s : State) (channel : Channel) (bytes : List UInt8) : State :=
  match channel with
  | .output => { s with output := s.output ++ bytes }
  | .errors => { s with errors := s.errors ++ bytes }
  | .file inode => { s with files := s.files.append inode bytes }
  | .closed => s

/-- The shell after a program. -/
def absorb (s : State) (channels : Channels) (o : Outcome) : State :=
  let s := { s with files := { o.files with working := s.files.working }, status := o.status.shellCode }
  (s.write channels.output o.output).write channels.errors o.errors

/-- A complaint of the shell, and a status. -/
def complain (s : State) (channels : Channels) (message : String) (status : UInt8) : State :=
  { s.write channels.errors (Text.Utf8.encode ("sh: " ++ message ++ "\n")) with status := status }

/-- The shell ends after an expression that has no value. -/
def giveUp (s : State) (channels : Channels) : State × Flow := (s.complain channels "arithmetic expression" 2, .ended)

/-- A shell after one that ran inside it. -/
def leave (outer inner : State) : State :=
  { inner with
    files := { inner.files with working := outer.files.working }
    bindings := outer.bindings
    stuck := outer.stuck }

/-- The value of a variable; empty without one. -/
def valueOf (s : State) (name : String) : String :=
  match name with
  | "$" => toString processId
  | "?" => toString s.status.toNat
  | "#" => "0"
  | "0" => "sh"
  | _ => (s.bindings.lookup name).getD ""

/-- A variable with another value. -/
def assign (s : State) (name value : String) : State :=
  { s with bindings := (name, value) :: s.bindings.filter fun e => e.1 != name }

/-- A line of what is left to read, and whether it ended with a line break. -/
def readLine (s : State) : String × Bool × State :=
  let line := s.input.takeWhile (· != 10)
  let rest := s.input.drop line.length
  (Text.Utf8.lossy line, !rest.isEmpty, { s with input := rest.drop 1 })

/-- The outcome of a shell that is done. -/
def outcome (s : State) : Flow → Outcome
  | .killed signal => ⟨s.files, s.output, s.errors, .signal signal⟩
  | _ => ⟨s.files, s.output, s.errors, .code s.status⟩

end State

/-! ## Fields -/

/-- The fields of a word as far as they are read: those that are done, the newest first, and the one that is not. -/
structure Fields where
  done : List Pattern
  open_ : Option Pattern

namespace Fields

/-- No fields. -/
def none : Fields := ⟨[], .none⟩

/-- A field that holds nothing yet. -/
def blank : Fields := ⟨[], some []⟩

/-- Text that belongs to the field at hand. -/
def put (isQuoted : Bool) (f : Fields) (s : String) : Fields := ⟨f.done, some (f.open_.getD [] ++ Pattern.ofText isQuoted s)⟩

/-- The field at hand is done. -/
def close (f : Fields) : Fields :=
  match f.open_ with
  | some p => ⟨p :: f.done, .none⟩
  | .none => f

/-- Text that is split at blanks and line breaks. -/
def split (f : Fields) (s : String) : Fields :=
  s.toList.foldl (fun f c => if isBlank c || c == '\n' then f.close else f.put false (String.singleton c)) f

/-- What is put in for a piece: all of it in one field where it is quoted. -/
def insert (isQuoted : Bool) (f : Fields) (s : String) : Fields := if isQuoted then f.put true s else f.split s

/-- All fields in order. -/
def all (f : Fields) : List Pattern := f.close.done.reverse

/-- All fields as one text. -/
def text (f : Fields) : String := String.intercalate " " (f.all.map Pattern.text)

end Fields

/-- What a rule makes of a value. -/
def ValueRule.apply (value : String) : ValueRule → String
  | asIs => value
  | orElse other => if value.isEmpty then other else value
  | insteadOf other => if value.isEmpty then "" else other
  | length => toString value.length

/-! ## Programs that are looked for -/

/-- The program that a path leads to. -/
def programAt (fs : FileSystem) (path : Path) : Except IoFault Program := do
  match fs.inodes[← fs.find path]? with
  | some (.program p) => return p
  | _ => throw .accessDenied

/-- The program of a name in the first of some directories that has one. -/
def programIn (fs : FileSystem) (name : String) : List Path → Except IoFault Program
  | [] => .error .notFound
  | directory :: more =>
    match programAt fs ⟨directory.bytes ++ Path.slash :: Text.Utf8.encode name⟩ with
    | .error .notFound => programIn fs name more
    | .error .notDirectory => programIn fs name more
    | found => found

/-- The program that a command names: by a path if the name has a slash, or else in the directories for programs. -/
def findProgram (fs : FileSystem) (name : String) : Except IoFault Program :=
  if name.isEmpty then .error .notFound
  else if name.toList.contains '/' then programAt fs (Path.ofString name)
  else programIn fs name FileSystem.programDirectories

/-! ## Signals -/

/-- Signals that do nothing to a process that has not asked for them. -/
def harmlessSignals : List Nat := [0, 17, 18, 23, 28]

/-- The largest number of a signal. -/
def maxSignal : Nat := 64

/-- The signal that a text names, by number or by name. -/
def signalOf? (s : String) : Option Nat :=
  let name := if "SIG".toList.isPrefixOf s.toList then String.ofList (s.toList.drop 3) else s
  match Decimal.natOfDigits? 10 s.toList with
  | some n => some n
  | none => (ExitStatus.signalNames.find? fun e => e.2 == name).map Prod.fst

/-- The signal and the processes that a kill command names. -/
def killTargets (arguments : List String) : Option (Nat × List String) :=
  let named := match arguments with
    | "-s" :: name :: rest => (signalOf? name).map fun n => (n, rest)
    | first :: rest =>
      match first.toList with
      | '-' :: cs => (signalOf? (String.ofList cs)).map fun n => (n, rest)
      | _ => some (15, first :: rest)
    | [] => none
  named.filter fun t => t.1 ≤ maxSignal && !t.2.isEmpty

/-! ## Commands of the shell itself -/

/-- The names of the commands that the shell runs itself. -/
def ownCommands : List String := [
  ":", "true", "false", "echo", "printf", "test", "[", "pwd", "exit", "cd", "read", "export", "unset", "kill", "wait", "set",
  "break", "continue"]

/-- Run a command of the shell itself. -/
def runOwn (s : State) (channels : Channels) (name : String) (arguments : List String) : State × Flow :=
  let tool (o : Outcome) : State × Flow := (s.absorb channels o, .next)
  let status (code : UInt8) : State × Flow := ({ s with status := code }, .next)
  match name with
  | "false" => status 1
  | "echo" => tool (Tool.echo s.files true arguments)
  | "printf" => tool (Tool.printf s.files true arguments)
  | "test" => tool (Tool.test s.files arguments)
  | "[" => tool (Tool.bracket s.files arguments)
  | "pwd" => tool (Tool.workingDirectory s.files)
  | "break" => ({ s with status := 0 }, .left)
  | "continue" => ({ s with status := 0 }, .again)
  | "exit" =>
    match arguments with
    | [] => (s, .ended)
    | code :: _ =>
      match Decimal.natOfDigits? 10 code.toList with
      | some n => ({ s with status := n.toUInt8 }, .ended)
      | none => (s.complain channels ("exit: Illegal number: " ++ code) 2, .ended)
  | "cd" =>
    match arguments with
    | [] => status 0
    | directory :: _ =>
      match s.files.enter (Path.ofString directory) with
      | .ok files => ({ s with files := files, status := 0 }, .next)
      | .error _ => (s.complain channels ("cd: can't cd to " ++ directory) 2, .next)
  | "read" =>
    let (line, complete, s) := s.readLine
    let names := arguments.filter fun a => a.toList.head? != some '-'
    let values := (Fields.none.split line).all.map Pattern.text
    let s := (names.zipIdx).foldl (fun s e =>
      s.assign e.1 (if e.2 + 1 = names.length then String.intercalate " " (values.drop e.2) else values[e.2]?.getD "")) s
    ({ s with status := if complete then 0 else 1 }, .next)
  | "export" =>
    let s := arguments.foldl (fun s a =>
      match a.toList.dropWhile (· != '=') with
      | '=' :: value => s.assign (String.ofList (a.toList.takeWhile (· != '='))) (String.ofList value)
      | _ => s) s
    ({ s with status := 0 }, .next)
  | "unset" => ({ s with bindings := s.bindings.filter fun e => !arguments.contains e.1, status := 0 }, .next)
  | "kill" =>
    match killTargets arguments with
    | none => (s.complain channels "kill: bad signal" 2, .next)
    | some (signal, processes) =>
      if processes.contains (toString processId) then
        if harmlessSignals.contains signal then status 0 else (s, .killed signal)
      else (s.complain channels "kill: No such process" 1, .next)
  | _ => status 0

/-! ## Redirections -/

/-- The channel of a stream. -/
def Channels.ofStream (c : Channels) : Nat → Channel
  | 1 => c.output
  | 2 => c.errors
  | _ => .closed

/-- Another channel for a stream. -/
def Channels.setStream (c : Channels) (stream : Nat) (channel : Channel) : Channels :=
  match stream with
  | 1 => { c with output := channel }
  | 2 => { c with errors := channel }
  | _ => c

/-! ## Scripts -/

mutual

/-- The fields of a word, with what is put in for its pieces. -/
def expand : Nat → State → Word → Fields → State × Fields
  | 0, s, _, f => (s, f)
  | _ + 1, s, [], f => (s, f)
  | fuel + 1, s, piece :: rest, f =>
    match piece with
    | .text t => expand fuel s rest (f.put false t)
    | .quoted t => expand fuel s rest (f.put true t)
    | .variable name rule isQuoted => expand fuel s rest (f.insert isQuoted (rule.apply (s.valueOf name)))
    | .arithmetic expression isQuoted =>
      match Arithmetic.value? s.valueOf expression with
      | some n => expand fuel s rest (f.insert isQuoted (toString n))
      | none => ({ s with stuck := true }, f)
    | .printed script isQuoted =>
      let inner := runLines fuel ownChannels { s with output := [] } (tokensOf script)
      let printed := (inner.1.output.reverse.dropWhile (· == 10)).reverse
      let s := { s.leave inner.1 with output := s.output }
      expand fuel s rest (f.insert isQuoted (Text.Utf8.lossy printed))

/-- The fields of words. -/
def expandAll : Nat → State → List Word → State × List String
  | 0, s, _ => (s, [])
  | _ + 1, s, [] => (s, [])
  | fuel + 1, s, w :: ws =>
    let (s, f) := expand fuel s w Fields.none
    let (s, more) := expandAll fuel s ws
    (s, f.all.flatMap (Pattern.paths s.files) ++ more)

/-- Open the files that redirections name. The answer has the channels, and what is read instead, or nothing after a fault. -/
def redirect : Nat → State → Channels → List Redirection → State × Option Channels
  | 0, s, _, _ => (s, none)
  | _ + 1, s, channels, [] => (s, some channels)
  | fuel + 1, s, channels, r :: rest =>
    match r with
    | .copy stream source => redirect fuel s (channels.setStream stream (channels.ofStream source)) rest
    | .read w =>
      let (s, f) := expand fuel s w Fields.none
      match s.files.read (Path.ofString f.text) with
      | .ok bytes => redirect fuel { s with input := bytes } channels rest
      | .error _ => (s.complain channels "cannot open file" 2, none)
    | .write stream append w =>
      let (s, f) := expand fuel s w Fields.none
      match s.files.openToWrite (Path.ofString f.text) with
      | .ok (files, i) =>
        let files := if append then files else files.setContent i []
        redirect fuel { s with files := files } (channels.setStream stream (.file i)) rest
      | .error _ => (s.complain channels "cannot create file" 2, none)

/-- A text is one that some word stands for as a pattern. -/
def coversAny : Nat → State → List Char → List Word → State × Bool
  | 0, s, _, _ => (s, false)
  | _ + 1, s, _, [] => (s, false)
  | fuel + 1, s, cs, w :: ws =>
    let (s, f) := expand fuel s w Fields.blank
    if f.all.any fun p => p.covers cs then (s, true) else coversAny fuel s cs ws

/-- Set the variables that words assign. -/
def assignAll : Nat → State → List (String × Word) → State
  | 0, s, _ => s
  | _ + 1, s, [] => s
  | fuel + 1, s, (name, w) :: rest =>
    let (s, f) := expand fuel s w Fields.blank
    assignAll fuel (s.assign name f.text) rest

/-- Run a program with arguments. -/
def runProgram : Nat → FileSystem → Program → List String → List UInt8 → Outcome
  | 0, files, _, _, _ => .silent files 1
  | fuel + 1, files, p, arguments, input =>
    match p with
    | .shell =>
      match arguments with
      | "-c" :: script :: _ =>
        let (s, flow) := runLines fuel ownChannels (State.start files input) (tokensOf script)
        s.outcome flow
      | _ => .silent files 0
    | .succeed => .silent files 0
    | .fail => .silent files 1
    | .echo => Tool.echo files false arguments
    | .printf => Tool.printf files false arguments
    | .list => Tool.list files arguments
    | .count => Tool.count files arguments input
    | .head => Tool.head files arguments input
    | .sequence => Tool.sequence files arguments
    | .test => Tool.test files arguments
    | .cat => Tool.concatenate files arguments input
    | .copy => Tool.copy files arguments
    | .move => Tool.move files arguments
    | .remove => Tool.remove files arguments
    | .touch => Tool.touch files arguments
    | .makeDirectory => Tool.makeDirectory files arguments
    | .removeDirectory => Tool.removeDirectory files arguments
    | .workingDirectory => Tool.workingDirectory files
    | .sleep => .silent files 0

/-- Run the command that words name. -/
def runWords : Nat → Channels → State → List String → State × Flow
  | 0, _, s, _ => (s, .next)
  | _ + 1, _, s, [] => (s, .next)
  | fuel + 1, channels, s, name :: arguments =>
    if name = "exec" then
      if arguments.isEmpty then (s, .next)
      else
        let (s, flow) := runWords fuel channels s arguments
        (s, if flow = .next then .ended else flow)
    else if name = "command" then runWords fuel channels s arguments
    else if name = "eval" then runLines fuel channels { s with status := 0 } (tokensOf (String.intercalate " " arguments))
    else if ownCommands.contains name then runOwn s channels name arguments
    else
      match findProgram s.files name with
      | .error .accessDenied => (s.complain channels (name ++ ": Permission denied") 126, .next)
      | .error _ => (s.complain channels (name ++ ": not found") 127, .next)
      | .ok p =>
        let o := runProgram fuel s.files p arguments s.input
        (({ s with input := if Program.readers.contains p then [] else s.input }).absorb channels o, .next)

/-- Run a script. -/
def runScript : Nat → Channels → State → Script → State × Flow
  | 0, _, s, _ => (s, .next)
  | fuel + 1, channels, s, script =>
    match script with
    | .nothing => ({ s with status := 0 }, .next)
    | .simple assignments words rs =>
      let (s, fields) := expandAll fuel { s with status := if words.isEmpty then 0 else s.status } words
      let input := s.input
      if s.stuck then s.giveUp channels
      else match redirect fuel s channels rs with
      | (s, none) => (s, .next)
      | (s, some inner) =>
        let before := s.bindings
        let s := assignAll fuel s assignments
        if s.stuck then s.giveUp channels
        else if fields.isEmpty then ({ s with input := input }, .next)
        else
          let (s, flow) := runWords fuel inner s fields
          let s := if assignments.isEmpty then s else { s with bindings := before }
          (if rs.any fun | .read _ => true | _ => false then { s with input := input } else s, flow)
    | .redirected body rs =>
      let input := s.input
      match redirect fuel s channels rs with
      | (s, none) => (s, .next)
      | (s, some inner) =>
        let (s, flow) := runScript fuel inner s body
        (if rs.any fun | .read _ => true | _ => false then { s with input := input } else s, flow)
    | .negation body =>
      let (s, flow) := runScript fuel channels s body
      ({ s with status := if s.status = 0 then 1 else 0 }, flow)
    | .pipe first second =>
      let (left, flow) := runScript fuel ⟨.output, channels.errors⟩ { s with output := [] } first
      match flow with
      | .killed signal => ({ left with output := s.output }, .killed signal)
      | _ =>
        let (right, flow) := runScript fuel channels { s.leave left with input := left.output, output := s.output } second
        ({ s.leave right with input := left.input }, flow.leave)
    | .both first second =>
      let (s, flow) := runScript fuel channels s first
      if flow ≠ .next ∨ s.status ≠ 0 then (s, flow) else runScript fuel channels s second
    | .either first second =>
      let (s, flow) := runScript fuel channels s first
      if flow ≠ .next ∨ s.status = 0 then (s, flow) else runScript fuel channels s second
    | .sequence first second =>
      let (s, flow) := runScript fuel channels s first
      if flow ≠ .next then (s, flow) else runScript fuel channels s second
    | .subshell body =>
      let (inner, flow) := runScript fuel channels s body
      (s.leave inner, flow.leave)
    | .choice condition body otherwise =>
      let (s, flow) := runScript fuel channels s condition
      if flow ≠ .next then (s, flow) else runScript fuel channels s (if s.status = 0 then body else otherwise)
    | .loop condition body stopAtSuccess =>
      let (s, flow) := runScript fuel channels s condition
      if flow ≠ .next then (s, flow)
      else if decide (s.status = 0) == stopAtSuccess then ({ s with status := 0 }, .next)
      else
        let (s, flow) := runScript fuel channels s body
        match flow with
        | .left => (s, .next)
        | .ended => (s, .ended)
        | .killed signal => (s, .killed signal)
        | _ => runScript fuel channels s script
    | .forEach name words body =>
      let (s, fields) := expandAll fuel s words
      runForEach fuel channels { s with status := 0 } name fields body
    | .branch subject patterns body otherwise =>
      let (s, f) := expand fuel s subject Fields.blank
      let (s, covered) := coversAny fuel s f.text.toList patterns
      if s.stuck then s.giveUp channels else runScript fuel channels s (if covered then body else otherwise)

/-- Run a script for each value of a variable. -/
def runForEach : Nat → Channels → State → String → List String → Script → State × Flow
  | 0, _, s, _, _, _ => (s, .next)
  | _ + 1, _, s, _, [], _ => (s, .next)
  | fuel + 1, channels, s, name, value :: values, body =>
    let (s, flow) := runScript fuel channels (s.assign name value) body
    match flow with
    | .left => (s, .next)
    | .ended => (s, .ended)
    | .killed signal => (s, .killed signal)
    | _ => runForEach fuel channels s name values body

/-- Run the lines of a script one after the other. -/
def runLines : Nat → Channels → State → List Token → State × Flow
  | 0, _, s, _ => (s, .next)
  | fuel + 1, channels, s, ts =>
    match skipLines ts with
    | [] => (s, .next)
    | ts =>
      match nextLine ts with
      | none => (s.complain channels "Syntax error" 2, .ended)
      | some (line, rest) =>
        let (s, flow) := runScript fuel channels s line
        if flow ≠ .next then (s, flow) else runLines fuel channels s rest

end

/-- How many steps a command may take. -/
def patience : Nat := 100000

/-- Start the program that words name and let it run: what it does, or why it cannot start. -/
def launch (files : FileSystem) (words : List String) : Except IoFault Outcome :=
  if words.any fun w => w.toList.contains '\x00' then .error .nulInArgument
  else match words with
    | [] => .error .notFound
    | name :: arguments => (findProgram files name).map fun p =>
      let o := runProgram patience files p arguments []
      { o with files := { o.files with working := files.working } }

end ClusterConfig.Shell
