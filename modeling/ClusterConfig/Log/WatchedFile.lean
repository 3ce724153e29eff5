import ClusterConfig.FileSystem.File

/-!
# A log file that may be rotated

The file at a path is kept open. Before a write it is looked up again, and if another file is there, or none, the one at the path
is opened instead; so a file that was moved away gets no more lines. Files are told apart by what the system identifies them by. A
write that cannot open the file is lost.
-/

namespace ClusterConfig

/-- What a system identifies a file by: a device and a number on it. The number of a file that is gone may be used again. -/
structure FileId where
  device : Nat
  number : Nat
  deriving DecidableEq, Repr

namespace FileSystem

/-- The identity of a file on the only device of a machine. -/
def idOf (i : Nat) : FileId := ⟨0, i⟩

end FileSystem

/-- A file that is kept open, the path it was opened at, and what identified it then. -/
structure WatchedFile where
  path : Path
  inode : Nat
  id : FileId
  deriving DecidableEq, Repr

namespace WatchedFile

/-- Open the file at a path, created if it is missing. -/
def openAt (ids : Nat → FileId) (fs : FileSystem) (path : Path) : Except IoFault (FileSystem × WatchedFile) := do
  let (fs, i) ← fs.openToWrite path
  return (fs, ⟨path, i, ids i⟩)

/-- The path leads to what is identified as the file that is open. -/
def isCurrent (w : WatchedFile) (ids : Nat → FileId) (fs : FileSystem) : Bool :=
  decide ((fs.find w.path).toOption.map ids = some w.id)

/-- The file after the check before a write: still the same, or opened again. -/
def refresh (w : WatchedFile) (ids : Nat → FileId) (fs : FileSystem) : Except IoFault (FileSystem × WatchedFile) :=
  if w.isCurrent ids fs then .ok (fs, w) else openAt ids fs w.path

/-- Write bytes at the end of the file at the path. -/
def write (w : WatchedFile) (ids : Nat → FileId) (fs : FileSystem) (bytes : List UInt8) :
    Except IoFault (FileSystem × WatchedFile) := do
  let (fs, w) ← w.refresh ids fs
  return (fs.append w.inode bytes, w)

end WatchedFile

end ClusterConfig
