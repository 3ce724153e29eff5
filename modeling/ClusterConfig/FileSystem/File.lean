import ClusterConfig.FileSystem

/-!
# Files

Reading, writing, moving and removing files. A write creates a file that is missing and replaces or extends the content of one
that exists; a number keeps standing for a file after its last name is gone.
-/

namespace ClusterConfig

namespace FileSystem

/-- The bytes of the file that a path leads to. -/
def read (fs : FileSystem) (p : Path) : Except IoFault (List UInt8) := do
  match fs.inodes[← fs.find p]? with
  | some (.file content) => return content
  | some (.directory _) => throw .isDirectory
  | _ => return []

/-- The text of the file that a path leads to. -/
def readText (fs : FileSystem) (p : Path) : Except IoFault String := do
  match Text.Utf8.decode? (← fs.read p) with
  | some s => return s
  | none => throw .notText

/-- The file that a path leads to, created without content if it is missing, and its number. -/
def openToWrite (fs : FileSystem) (p : Path) : Except IoFault (FileSystem × Nat) := do
  match ← fs.target p with
  | .directory _ => throw .isDirectory
  | .entry dir name slash =>
    if slash then throw .isDirectory
    else match fs.lookup dir name with
      | some i => if (fs.directory? i).isSome then throw .isDirectory else return (fs, i)
      | none => fs.create dir name (.file [])

/-- The content of a file replaced. -/
def setContent (fs : FileSystem) (i : Nat) (bytes : List UInt8) : FileSystem :=
  match fs.inodes[i]? with
  | some (.file _) => fs.set i (.file bytes)
  | _ => fs

/-- Bytes put at the end of a file. -/
def append (fs : FileSystem) (i : Nat) (bytes : List UInt8) : FileSystem :=
  match fs.content? i with
  | some content => fs.setContent i (content ++ bytes)
  | none => fs

/-- The file at a path, with the given bytes as its whole content. -/
def write (fs : FileSystem) (p : Path) (bytes : List UInt8) : Except IoFault FileSystem := do
  let (fs, i) ← fs.openToWrite p
  return fs.setContent i bytes

/-- The name of a file taken away. -/
def removeFile (fs : FileSystem) (p : Path) : Except IoFault FileSystem := do
  match ← fs.target p with
  | .directory _ => throw .isDirectory
  | .entry dir name slash =>
    match fs.lookup dir name with
    | none => throw .notFound
    | some i =>
      if (fs.directory? i).isSome then throw .isDirectory
      else if slash then throw .notDirectory
      else return fs.unlink dir name

/-- What a directory is inside of, itself included, up to the root. -/
def ancestors (fs : FileSystem) : Nat → Nat → List Nat
  | 0, i => [i]
  | fuel + 1, i =>
    match fs.directory? i with
    | some d => if d.parent = i then [i] else i :: ancestors fs fuel d.parent
    | none => [i]

/-- The second of two things may take the name of the first: it is missing, or of the same kind and without entries. -/
def mayReplace (fs : FileSystem) (i : Nat) (other : Option Nat) : Except IoFault Unit :=
  match other with
  | none => .ok ()
  | some j =>
    match fs.directory? i, fs.directory? j with
    | some _, none => .error .notDirectory
    | none, some _ => .error .isDirectory
    | some _, some d => if d.entries.isEmpty then .ok () else .error .notEmpty
    | none, none => .ok ()

/-- Something moved to another name. A file at the new name gives way, and so does an empty directory to another one. -/
def rename (fs : FileSystem) (source destination : Path) : Except IoFault FileSystem := do
  match ← fs.target source, ← fs.target destination with
  | .entry dir name slash, .entry dir' name' slash' =>
    match fs.lookup dir name with
    | none => throw .notFound
    | some i =>
      let moved := fs.directory? i
      if (slash || slash') && moved.isNone then throw .notDirectory
      else if moved.isSome && (fs.ancestors fs.inodes.length dir').contains i then throw .invalidArgument
      else if fs.lookup dir' name' = some i then return fs
      else
        fs.mayReplace i (fs.lookup dir' name')
        let fs := match fs.lookup dir' name' with
          | some j => fs.modifyDirectory j fun d => { d with removed := true }
          | none => fs
        let fs := ((fs.unlink dir name).unlink dir' name').link dir' name' i
        return fs.modifyDirectory i fun d => { d with parent := dir' }
  | _, _ => throw .invalidArgument

end FileSystem

end ClusterConfig
