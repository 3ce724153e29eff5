import ClusterConfig.Command.Program
import ClusterConfig.FileSystem.Fault
import ClusterConfig.Path

/-!
# The file system

Files and directories are numbered, and a directory names the numbers of what it holds. A number is never used again, so a file
keeps it when it is renamed and loses it to no other when it is removed. A path is followed name by name, from the root or from
the working directory.
-/

namespace ClusterConfig

/-- The name of something in a directory, as its bytes. -/
abbrev EntryName := List UInt8

/-- A directory. One that has been removed is empty and takes no entries. -/
structure Directory where
  parent : Nat
  entries : List (EntryName × Nat)
  removed : Bool
  deriving DecidableEq, Repr

/-- What a number of the file system stands for. -/
inductive Inode where
  | file (content : List UInt8)
  | directory (d : Directory)
  | program (p : Program)
  /-- A device that swallows what is written and has nothing to read. -/
  | sink
  deriving DecidableEq, Repr

/-- A file system, seen from a working directory. Number zero is the root. -/
structure FileSystem where
  inodes : List Inode
  working : Nat
  deriving DecidableEq, Repr

/-- Where a path leads before its last name is looked up. -/
inductive Target where
  /-- A directory, by a path that ends in no name of an entry. -/
  | directory (inode : Nat)
  /-- An entry of a directory, which need not exist; `slash` says that a slash follows the name. -/
  | entry (directory : Nat) (name : EntryName) (slash : Bool)
  deriving DecidableEq, Repr

namespace FileSystem

/-- The number of the root directory. -/
def root : Nat := 0

/-- How long a path may be. -/
def maxPathLength : Nat := 4095

/-- How long a name may be. -/
def maxNameLength : Nat := 255

/-- The directory of a number. -/
def directory? (fs : FileSystem) (i : Nat) : Option Directory :=
  match fs.inodes[i]? with
  | some (.directory d) => some d
  | _ => none

/-- The content of the file of a number. -/
def content? (fs : FileSystem) (i : Nat) : Option (List UInt8) :=
  match fs.inodes[i]? with
  | some (.file content) => some content
  | _ => none

/-- One step of a path, from something it has led to. -/
def step (fs : FileSystem) (i : Nat) (name : EntryName) : Except IoFault Nat :=
  match fs.directory? i with
  | none => .error .notDirectory
  | some d =>
    if !Path.significant name then .ok i
    else if name = Path.dotDot then .ok d.parent
    else if maxNameLength < name.length then .error .nameTooLong
    else match d.entries.lookup name with
      | some child => .ok child
      | none => .error .notFound

/-- What names lead to, one after the other. -/
def walk (fs : FileSystem) (i : Nat) (names : List EntryName) : Except IoFault Nat := names.foldlM fs.step i

/-- A path that can be followed at all. -/
def checkPath (p : Path) : Except IoFault Unit :=
  if p.bytes.contains 0 then .error .nulInPath
  else if p.bytes.isEmpty then .error .notFound
  else if maxPathLength < p.bytes.length then .error .nameTooLong
  else .ok ()

/-- Where a path starts. -/
def start (fs : FileSystem) (p : Path) : Nat := if p.isAbsolute then root else fs.working

/-- The number of what a path leads to. -/
def find (fs : FileSystem) (p : Path) : Except IoFault Nat := do
  checkPath p
  fs.walk (fs.start p) p.segments

/-- Where a path leads before its last name is looked up. -/
def target (fs : FileSystem) (p : Path) : Except IoFault Target := do
  checkPath p
  let named := (p.segments.reverse.dropWhile List.isEmpty).reverse
  match named.getLast? with
  | none => return .directory root
  | some last =>
    if last = Path.dot ∨ last = Path.dotDot then return .directory (← fs.walk (fs.start p) named)
    else
      let dir ← fs.walk (fs.start p) named.dropLast
      if (fs.directory? dir).isNone then throw .notDirectory
      else if maxNameLength < last.length then throw .nameTooLong
      else return .entry dir last (decide (named.length < p.segments.length))

/-- The number under a name in a directory. -/
def lookup (fs : FileSystem) (dir : Nat) (name : EntryName) : Option Nat :=
  (fs.directory? dir).bind fun d => d.entries.lookup name

/-- The path leads to something. -/
def holds (fs : FileSystem) (p : Path) : Bool := (fs.find p).toOption.isSome

/-- The path leads to a directory. -/
def isDirectory (fs : FileSystem) (p : Path) : Bool := ((fs.find p).toOption.bind fs.directory?).isSome

/-- The path leads to a file. -/
def isFile (fs : FileSystem) (p : Path) : Bool := ((fs.find p).toOption.bind fs.content?).isSome

/-- Something else put under a number. -/
def set (fs : FileSystem) (i : Nat) (inode : Inode) : FileSystem := { fs with inodes := fs.inodes.set i inode }

/-- A directory changed. -/
def modifyDirectory (fs : FileSystem) (i : Nat) (f : Directory → Directory) : FileSystem :=
  match fs.directory? i with
  | some d => fs.set i (.directory (f d))
  | none => fs

/-- A name put into a directory. -/
def link (fs : FileSystem) (dir : Nat) (name : EntryName) (i : Nat) : FileSystem :=
  fs.modifyDirectory dir fun d => { d with entries := d.entries ++ [(name, i)] }

/-- A name taken out of a directory. -/
def unlink (fs : FileSystem) (dir : Nat) (name : EntryName) : FileSystem :=
  fs.modifyDirectory dir fun d => { d with entries := d.entries.filter fun e => e.1 != name }

/-- Something new under a name that a directory does not have yet, and its number. -/
def create (fs : FileSystem) (dir : Nat) (name : EntryName) (inode : Inode) : Except IoFault (FileSystem × Nat) :=
  match fs.directory? dir with
  | none => .error .notDirectory
  | some d =>
    if d.removed then .error .notFound
    else .ok ({ fs with inodes := fs.inodes ++ [inode] }.link dir name fs.inodes.length, fs.inodes.length)

end FileSystem

end ClusterConfig
