import ClusterConfig.FileSystem.Tree

/-!
# The file system of a machine

The directories every machine has: programs, devices and a place for temporary files.
-/

namespace ClusterConfig

namespace FileSystem

/-- The name of an entry, from its text. -/
def nameOf (s : String) : EntryName := Text.Utf8.encode s

/-- Directories that commands look for programs in, in order. -/
def programDirectories : List Path := ["/usr/local/bin", "/usr/bin", "/bin"].map Path.ofString

/-- A machine without any files of its users: the root with the directories `bin`, which is also `usr/bin`, `dev`, `tmp` and
`usr`, and the installed programs. -/
def machine : FileSystem :=
  let directory (parent : Nat) (entries : List (EntryName × Nat)) : Inode := .directory ⟨parent, entries, false⟩
  let first := 6
  let programs := Program.names.map fun e => nameOf e.1
  ⟨[directory root [(nameOf "bin", 1), (nameOf "dev", 2), (nameOf "tmp", 3), (nameOf "usr", 4)],
    directory 4 (programs.zip (List.range' first programs.length)),
    directory root [(nameOf "null", 5)],
    directory root [],
    directory root [(nameOf "bin", 1)],
    .sink] ++ Program.names.map (fun e => .program e.2), root⟩

end FileSystem

end ClusterConfig
