import ClusterConfig.FileSystem.Tree
import ClusterConfig.Log.WatchedFile

/-!
# Rotation of a log file

Between the writes to a log file others rename it and remove it, put files and directories at its path and take away the
directories above it. A run tells what happens to the file system and to the file that is kept open, and which writes went well.
-/

namespace ClusterConfig

/-- What someone else does to the file system. -/
inductive FileChange where
  | rename (source destination : Path)
  | removeFile (p : Path)
  /-- A file with the content, or another content for the file that is there. -/
  | put (p : Path) (content : List UInt8)
  | makeDirectory (p : Path)
  /-- A directory with what is missing above it. -/
  | makeDirectories (p : Path)
  | removeDirectory (p : Path)
  /-- A directory is removed with all that is in it. -/
  | removeTree (p : Path)

namespace FileChange

/-- The file system after a change. One that cannot be made leaves it as it is, but directories that have been made stay. -/
def apply (fs : FileSystem) : FileChange → FileSystem
  | rename source destination => (fs.rename source destination).toOption.getD fs
  | removeFile p => (fs.removeFile p).toOption.getD fs
  | put p content => (fs.write p content).toOption.getD fs
  | makeDirectory p => (fs.makeDirectory p).toOption.getD fs
  | makeDirectories p => (fs.makeDirectories p).1
  | removeDirectory p => (fs.removeDirectory p).toOption.getD fs
  | removeTree p => (fs.removeTree p).toOption.getD fs

end FileChange

/-- One step while a log file is open. -/
inductive LogStep where
  | write (bytes : List UInt8)
  | outside (change : FileChange)

/-- The file system and the log file that is open. -/
structure LogState where
  files : FileSystem
  log : WatchedFile

/-- A write that went well: the number of the file that got the bytes. -/
structure Delivery where
  inode : Nat
  bytes : List UInt8
  deriving DecidableEq, Repr

namespace LogState

/-- Take one step. A write that fails leaves everything as it is. -/
def step (ids : Nat → FileId) (s : LogState) : LogStep → LogState × List Delivery
  | .outside change => ({ s with files := change.apply s.files }, [])
  | .write bytes =>
    match s.log.write ids s.files bytes with
    | .ok (files, log) => (⟨files, log⟩, [⟨log.inode, bytes⟩])
    | .error _ => (s, [])

/-- Take steps one after the other. -/
def run (ids : Nat → FileId) (s : LogState) : List LogStep → LogState × List Delivery
  | [] => (s, [])
  | next :: rest =>
    let (s, delivered) := s.step ids next
    let (s, later) := s.run ids rest
    (s, delivered ++ later)

end LogState

end ClusterConfig
