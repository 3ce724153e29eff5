/-!
# Programs

The programs that are installed where commands look for them.
-/

namespace ClusterConfig

/-- An installed program. -/
inductive Program where
  | shell
  | succeed
  | fail
  | echo
  | printf
  | test
  | cat
  | copy
  | move
  | remove
  | touch
  | makeDirectory
  | removeDirectory
  | workingDirectory
  | sleep
  | list
  | count
  | head
  | sequence
  deriving DecidableEq, Repr

namespace Program

/-- The names that programs are installed under. -/
def names : List (String × Program) := [
  ("sh", shell), ("true", succeed), ("false", fail), ("echo", echo), ("printf", printf), ("test", test), ("[", test),
  ("cat", cat), ("cp", copy), ("mv", move), ("rm", remove), ("touch", touch), ("mkdir", makeDirectory),
  ("rmdir", removeDirectory), ("pwd", workingDirectory), ("sleep", sleep), ("ls", list), ("wc", count), ("head", head),
  ("seq", sequence)]

/-- The programs that read what they are given. -/
def readers : List Program := [cat, count, head]

end Program

end ClusterConfig
