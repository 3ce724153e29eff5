/-!
# What can go wrong with files

The causes that a file operation or the start of a command can fail for, and their wording.
-/

namespace ClusterConfig

/-- Why an operation on files, or the start of a command, failed. -/
inductive IoFault where
  | notFound
  | accessDenied
  | alreadyExists
  | notDirectory
  | isDirectory
  | invalidArgument
  | nameTooLong
  | notEmpty
  /-- The content of a file is no text. -/
  | notText
  /-- A path has a byte that no path can have. -/
  | nulInPath
  /-- An argument of a command has a byte that no argument can have. -/
  | nulInArgument
  deriving DecidableEq, Repr

namespace IoFault

/-- The words for a fault that the system reports, with the number it reports. -/
def numbered (words : String) (number : Nat) : String := words ++ " (os error " ++ toString number ++ ")"

/-- The fault in words. -/
def message : IoFault → String
  | notFound => numbered "No such file or directory" 2
  | accessDenied => numbered "Permission denied" 13
  | alreadyExists => numbered "File exists" 17
  | notDirectory => numbered "Not a directory" 20
  | isDirectory => numbered "Is a directory" 21
  | invalidArgument => numbered "Invalid argument" 22
  | nameTooLong => numbered "File name too long" 36
  | notEmpty => numbered "Directory not empty" 39
  | notText => "stream did not contain valid UTF-8"
  | nulInPath => "file name contained an unexpected NUL byte"
  | nulInArgument => "nul byte found in provided data"

end IoFault

end ClusterConfig
