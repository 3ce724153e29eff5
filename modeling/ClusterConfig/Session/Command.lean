import ClusterConfig.Command
import ClusterConfig.Session

/-!
# Commands in a session

Running and starting commands, each announced in the log before anything else happens. What a command writes to the caller's
output is printed.
-/

namespace ClusterConfig

namespace Session

/-- The event that announces a command. -/
def commandEvent (verb line : String) : Event := ⟨.debug, Event.helper "process", verb ++ ": " ++ line, []⟩

/-- Announce a command, unless it is quiet. -/
def announce (s : Session) (quiet : Bool) (verb line : String) : Session :=
  if quiet then s else s.emit (commandEvent verb line)

/-- What a command did, in the session. -/
def absorb (s : Session) (ran : Ran) : Session := { s with files := ran.files, console := s.console ++ ran.shown }

/-- Run a command line to its end. -/
def run (s : Session) (launch : Launcher) (line : String) (options : RunOptions) : Session × Except Error Completed :=
  let s := s.announce options.quiet "run" line
  match Command.run launch s.files line options with
  | .error e => (s, .error e)
  | .ok (ran, result) => (s.absorb ran, result)

/-- Start a command line. The answer is how the command will end. -/
def spawn (s : Session) (launch : Launcher) (line : String) (options : SpawnOptions) : Session × Except Error ExitStatus :=
  let s := s.announce options.quiet "spawn" line
  match Command.spawn launch s.files line options with
  | .error e => (s, .error e)
  | .ok ran => (s.absorb ran, .ok ran.status)

end Session

end ClusterConfig
