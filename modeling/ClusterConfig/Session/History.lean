import ClusterConfig.Log.Rotation
import ClusterConfig.Session.Directory

/-!
# Histories of a session

What happens to a running program, one after the other: its log is set up and closed, events are logged, it panics, it enters and
leaves directories, and files and directories are changed. A guard may be used at any time, in any order.
-/

namespace ClusterConfig

/-- One step of a running program. -/
inductive SessionStep where
  | setUp (options : LogOptions)
  | close
  | log (e : Event)
  | panic (payload : Option String) (location : String)
  | enter (p : Path)
  | leave (guard : DirectoryGuard)
  /-- The file system is changed, by the program or by someone else. -/
  | change (c : FileChange)

/-- What a step answers. -/
inductive SessionAnswer where
  | done
  | setUp (result : Except LogError Bool)
  | entered (result : Except IoFault DirectoryGuard)

namespace Session

/-- Take one step. -/
def takeStep (s : Session) : SessionStep → Session × SessionAnswer
  | .setUp options => ((s.setUp options).1, .setUp (s.setUp options).2)
  | .close => (s.close, .done)
  | .log e => (s.emit e, .done)
  | .panic payload location => (s.panic payload location, .done)
  | .enter p => ((s.enter p).1, .entered (s.enter p).2)
  | .leave guard => (s.leave guard, .done)
  | .change c => ({ s with files := c.apply s.files }, .done)

/-- Take steps one after the other. -/
def takeSteps (s : Session) : List SessionStep → Session × List SessionAnswer
  | [] => (s, [])
  | next :: rest =>
    let (s, answer) := s.takeStep next
    let (s, answers) := s.takeSteps rest
    (s, answer :: answers)

end Session

end ClusterConfig
