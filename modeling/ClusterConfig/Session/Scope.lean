import ClusterConfig.Log.Rotation
import ClusterConfig.Session.Directory

/-!
# Programs that change the working directory

A part of a program enters directories, makes and removes directories and files, logs, and ends by returning or by a panic. The
guards that it holds are left when it ends, the newest first. Work in a directory is a part of its own; how it ended tells the
part around it whether to go on or to pass a panic on.
-/

namespace ClusterConfig

/-- The change moves nothing to another name. -/
def FileChange.InPlace : FileChange → Prop
  | rename _ _ => False
  | _ => True

/-- How a part of a program ends. -/
inductive ScopeEnd where
  | returned
  | panicked
  deriving DecidableEq, Repr

/-- A part of a program that changes the working directory. -/
inductive Scoped where
  /-- End; a panic that came from work in a directory may be passed on. -/
  | finish (how : ScopeEnd)
  | panic (payload : Option String) (location : String)
  | change (c : FileChange) (inPlace : c.InPlace) (next : Scoped)
  | log (e : Event) (next : Scoped)
  /-- Enter a directory and hold the guard; it is known whether that failed. -/
  | enter (p : Path) (next : Option IoFault → Scoped)
  /-- Leave by the newest guard that is held, if there is one. -/
  | drop (next : Scoped)
  | within (p : Path) (body : Scoped) (next : Except IoFault ScopeEnd → Scoped)

namespace Session

/-- Leave by guards, one after the other. -/
def leaveAll (s : Session) (guards : List DirectoryGuard) : Session := guards.foldl leave s

end Session

namespace Scoped

/-- Run a part of a program that holds guards, the newest first. -/
def run : Scoped → List DirectoryGuard → Session → Session × ScopeEnd
  | .finish how, held, s => (s.leaveAll held, how)
  | .panic payload location, held, s => ((s.panic payload location).leaveAll held, .panicked)
  | .change c _ next, held, s => next.run held { s with files := c.apply s.files }
  | .log e next, held, s => next.run held (s.emit e)
  | .enter p next, held, s =>
    match s.enter p with
    | (s, .ok guard) => (next none).run (guard :: held) s
    | (s, .error fault) => (next (some fault)).run held s
  | .drop next, held, s =>
    match held with
    | [] => next.run [] s
    | guard :: held => next.run held (s.leave guard)
  | .within p body next, held, s =>
    let (s, result) := s.within p (body.run [])
    (next result).run held s

end Scoped

end ClusterConfig
