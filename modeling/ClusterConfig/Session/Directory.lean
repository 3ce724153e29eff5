import ClusterConfig.Session

/-!
# Scoped changes of the working directory

Entering a directory gives a guard that holds the path of the one before. Leaving goes back to that path; if it is gone, the
working directory stays where it is and the fault is logged. Work in a directory is followed by leaving it, whatever becomes of
the work.
-/

namespace ClusterConfig

/-- The way back from a directory that has been entered. -/
structure DirectoryGuard where
  previous : Path
  deriving DecidableEq, Repr

namespace Session

/-- Enter a directory. -/
def enter (s : Session) (p : Path) : Session × Except IoFault DirectoryGuard :=
  match s.files.workingPath with
  | .error fault => (s, .error fault)
  | .ok previous =>
    match s.files.enter p with
    | .error fault => (s, .error fault)
    | .ok files => ({ s with files := files }, .ok ⟨previous⟩)

/-- The event for a way back that is gone. -/
def lostEvent (previous : Path) (fault : IoFault) : Event :=
  ⟨.error, Event.helper "scope", "Failed to restore working directory",
    [("path", previous.quoted), ("error", fault.message)]⟩

/-- Go back by a guard. -/
def leave (s : Session) (guard : DirectoryGuard) : Session :=
  match s.files.enter guard.previous with
  | .ok files => { s with files := files }
  | .error fault => s.emit (lostEvent guard.previous fault)

/-- Work in a directory, and go back. -/
def within {α : Type} (s : Session) (p : Path) (work : Session → Session × α) : Session × Except IoFault α :=
  match s.enter p with
  | (s, .error fault) => (s, .error fault)
  | (s, .ok guard) =>
    let (s, result) := work s
    (s.leave guard, .ok result)

end Session

end ClusterConfig
