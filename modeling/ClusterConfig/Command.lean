import ClusterConfig.Command.Line
import ClusterConfig.Command.Outcome
import ClusterConfig.Error

/-!
# Commands

A command is run to its end or only started. A command line is split into a program and its arguments, or handed to a shell. The
output of a command that is run is collected, unless the command says where it goes; a command that is only started shares the
output of the caller.
-/

namespace ClusterConfig

/-- How words are started as a program: what the program does to the files, or why it cannot start. -/
abbrev Launcher := FileSystem → List String → Except IoFault Outcome

/-- Where the output of a command goes. -/
inductive OutputRoute where
  /-- To the caller's own output. -/
  | inherited
  /-- To the caller, who may read it. -/
  | collected
  deriving DecidableEq, Repr

/-- A command that can be started: its words, and where its output goes if that has been said. -/
structure Command where
  words : List String
  route : Option OutputRoute
  deriving DecidableEq, Repr

/-- Settings for running a command. -/
structure RunOptions where
  /-- How many milliseconds to wait after the command has ended. -/
  wait : Nat
  /-- Leave out the log line. -/
  quiet : Bool
  /-- Give the output to the caller. -/
  capture : Bool
  /-- Hand the line to a shell. -/
  shell : Bool
  /-- A status other than success is an error. -/
  check : Bool
  deriving DecidableEq, Repr

/-- Settings for starting a command. -/
structure SpawnOptions where
  quiet : Bool
  shell : Bool
  deriving DecidableEq, Repr

/-- A command that has ended. -/
structure Completed where
  status : ExitStatus
  /-- What it wrote, if the caller asked for it. -/
  output : Option String
  deriving DecidableEq, Repr

/-- What a command that has started did: the files it left, what appeared on the caller's output, what was collected, how it
ended, and how many milliseconds the caller waited after that. -/
structure Ran where
  files : FileSystem
  shown : List UInt8
  collected : List UInt8
  status : ExitStatus
  waited : Nat
  deriving DecidableEq, Repr

namespace Command

/-- The command of a line. -/
def ofLine (line : String) (shell : Bool) : Except Error Command :=
  if shell then .ok ⟨["sh", "-c", line], none⟩
  else match CommandLine.split? line with
    | none => .error (.commandParse (.unbalanced line))
    | some [] => .error (.commandParse .empty)
    | some words => .ok ⟨words, none⟩

/-- Start a command whose output takes a route. -/
def start (c : Command) (launch : Launcher) (files : FileSystem) (route : OutputRoute) : Except IoFault Ran :=
  (launch files c.words).map fun o =>
    match route with
    | .inherited => ⟨o.files, o.output, [], o.status, 0⟩
    | .collected => ⟨o.files, [], o.output, o.status, 0⟩

/-- Run a command to its end. Its output is collected if nothing else has been said. -/
def runToEnd (c : Command) (launch : Launcher) (files : FileSystem) : Except IoFault Ran :=
  c.start launch files (c.route.getD .collected)

/-- Only start a command. It shares the caller's output if nothing else has been said. -/
def begin (c : Command) (launch : Launcher) (files : FileSystem) : Except IoFault Ran :=
  c.start launch files (c.route.getD .inherited)

/-- Run a command line to its end: what it did, and what the caller is told. -/
def run (launch : Launcher) (files : FileSystem) (line : String) (options : RunOptions) :
    Except Error (Ran × Except Error Completed) := do
  let command ← ofLine line options.shell
  let command := if options.capture then { command with route := some .collected } else command
  match command.runToEnd launch files with
  | .error fault => throw (.commandSpawn line fault)
  | .ok ran =>
    let ran := { ran with waited := options.wait }
    if options.check && !ran.status.success then return (ran, .error (.commandFailed line ran.status))
    else return (ran, .ok ⟨ran.status, if options.capture then some (Text.Utf8.lossy ran.collected) else none⟩)

/-- Start a command line. -/
def spawn (launch : Launcher) (files : FileSystem) (line : String) (options : SpawnOptions) : Except Error Ran := do
  let command ← ofLine line options.shell
  match command.begin launch files with
  | .error fault => throw (.commandSpawn line fault)
  | .ok ran => return ran

end Command

end ClusterConfig
