import ClusterConfig.FileSystem

/-!
# Directories

Making and removing directories, listing what is below one, and the working directory. A working directory that has been removed
has no path any more, even if another directory takes its name.
-/

namespace ClusterConfig

namespace FileSystem

/-- A new directory at a path. -/
def makeDirectory (fs : FileSystem) (p : Path) : Except IoFault FileSystem := do
  match ← fs.target p with
  | .directory _ => throw .alreadyExists
  | .entry dir name _ =>
    if (fs.lookup dir name).isSome then throw .alreadyExists
    else return (← fs.create dir name (.directory ⟨dir, [], false⟩)).1

/-- Make a directory with what is missing above it, at most `fuel` levels. What has been made stays, also after a fault. -/
def makeDirectoriesUpTo : Nat → FileSystem → Path → FileSystem × Except IoFault Unit
  | 0, fs, _ => (fs, .error .notFound)
  | fuel + 1, fs, p =>
    if p.bytes.isEmpty then (fs, .ok ())
    else match fs.makeDirectory p with
      | .ok fs => (fs, .ok ())
      | .error .notFound =>
        match p.parent? with
        | none => (fs, .error .notFound)
        | some above =>
          match makeDirectoriesUpTo fuel fs above with
          | (fs, .error fault) => (fs, .error fault)
          | (fs, .ok ()) =>
            match fs.makeDirectory p with
            | .ok fs => (fs, .ok ())
            | .error fault => (fs, if fs.isDirectory p then .ok () else .error fault)
      | .error fault => (fs, if fs.isDirectory p then .ok () else .error fault)

/-- Make a directory with what is missing above it. -/
def makeDirectories (fs : FileSystem) (p : Path) : FileSystem × Except IoFault Unit :=
  makeDirectoriesUpTo (p.components.length + 1) fs p

/-- The number of something and those of all that is below it, at most `fuel` levels deep. -/
def below (fs : FileSystem) : Nat → Nat → List Nat
  | 0, i => [i]
  | fuel + 1, i =>
    match fs.directory? i with
    | some d => i :: d.entries.flatMap fun e => below fs fuel e.2
    | none => [i]

/-- A directory and all directories below it, marked as removed. -/
def discard (fs : FileSystem) (i : Nat) : FileSystem :=
  (fs.below fs.inodes.length i).foldl (fun fs j => fs.modifyDirectory j fun d => { d with entries := [], removed := true }) fs

/-- Remove a directory with all that is in it. -/
def removeTree (fs : FileSystem) (p : Path) : Except IoFault FileSystem := do
  match ← fs.target p with
  | .directory _ => throw .invalidArgument
  | .entry dir name _ =>
    match fs.lookup dir name with
    | none => throw .notFound
    | some i => if (fs.directory? i).isNone then throw .notDirectory else return (fs.discard i).unlink dir name

/-- Remove a directory that has no entries. -/
def removeDirectory (fs : FileSystem) (p : Path) : Except IoFault FileSystem := do
  match ← fs.target p with
  | .directory _ => throw .invalidArgument
  | .entry dir name _ =>
    match fs.lookup dir name with
    | none => throw .notFound
    | some i =>
      match fs.directory? i with
      | none => throw .notDirectory
      | some d => if d.entries.isEmpty then return (fs.discard i).unlink dir name else throw .notEmpty

/-- The order of names: byte by byte. -/
def nameLe : EntryName → EntryName → Bool
  | [], _ => true
  | _ :: _, [] => false
  | a :: as, b :: bs => decide (a < b) || (a == b && nameLe as bs)

/-- The names in a directory in order. Those that start with a dot are left out unless they are asked for. -/
def visibleNames (fs : FileSystem) (p : Path) (dotted : Bool) : List String :=
  match (fs.find p).toOption.bind fs.directory? with
  | none => []
  | some d =>
    let names := d.entries.map Prod.fst ++ (if dotted then [Path.dot, Path.dotDot] else [])
    ((names.filter fun n => dotted || n.head? != Path.dot.head?).mergeSort nameLe).map Text.Utf8.lossy

/-- The files below something with their contents, each under the names that lead to it, at most `fuel` levels deep. Every
directory is sorted by name. -/
def filesBelow (fs : FileSystem) : Nat → Nat → List (List EntryName × List UInt8)
  | 0, _ => []
  | fuel + 1, i =>
    match fs.inodes[i]? with
    | some (.directory d) =>
      (d.entries.mergeSort fun a b => nameLe a.1 b.1).flatMap fun e =>
        (filesBelow fs fuel e.2).map fun f => (e.1 :: f.1, f.2)
    | some (.file content) => [([], content)]
    | _ => []

/-- The files below the working directory with their contents, under their paths from there. -/
def files (fs : FileSystem) : List (Path × List UInt8) :=
  (fs.filesBelow (fs.inodes.length + 1) fs.working).map fun f => (Path.ofSegments f.1, f.2)

/-- The names from the root to a directory, the last one first, at most `fuel` of them. -/
def namesOf (fs : FileSystem) : Nat → Nat → Option (List EntryName)
  | 0, _ => none
  | fuel + 1, i =>
    if i = root then some []
    else do
      let d ← fs.directory? i
      let above ← fs.directory? d.parent
      let entry ← above.entries.find? fun e => e.2 == i
      return entry.1 :: (← namesOf fs fuel d.parent)

/-- The path of the working directory. -/
def workingPath (fs : FileSystem) : Except IoFault Path :=
  match fs.namesOf (fs.inodes.length + 1) fs.working with
  | none => .error .notFound
  | some [] => .ok ⟨[Path.slash]⟩
  | some names => .ok (Path.ofSegments ([] :: names.reverse))

/-- Work in the directory that a path leads to. -/
def enter (fs : FileSystem) (p : Path) : Except IoFault FileSystem := do
  let i ← fs.find p
  if (fs.directory? i).isSome then return { fs with working := i } else throw .notDirectory

end FileSystem

end ClusterConfig
