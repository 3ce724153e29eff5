import ClusterConfig.Command.Status
import ClusterConfig.FileSystem.Fault
import ClusterConfig.Path
import ClusterConfig.Yaml.Fault
import ClusterConfig.Yaml.Merge

/-!
# Errors

Why loading or saving a configuration or running a command failed, and the wording.
-/

namespace ClusterConfig

/-- What a text holds at its top level. -/
inductive TopLevel where
  | nothing
  | boolean
  | number
  | string
  | sequence
  | mapping
  | tagged
  deriving DecidableEq, Repr

namespace TopLevel

/-- What a tree holds at its top level. -/
def ofNode : Yaml.Node → TopLevel
  | .null => nothing
  | .bool _ => boolean
  | .number _ => number
  | .string _ => string
  | .seq _ => sequence
  | .map _ => mapping
  | .tagged _ _ => tagged

/-- The content in words. -/
def words : TopLevel → String
  | nothing => "an empty document"
  | boolean => "a boolean"
  | number => "a number"
  | string => "a string"
  | sequence => "a sequence"
  | mapping => "a mapping"
  | tagged => "a tagged value"

end TopLevel

/-- Why a text is no configuration. -/
inductive ParseFault where
  | malformed (fault : Yaml.SyntaxFault)
  | merge (fault : Yaml.MergeFault)
  | noMapping (file : Path) (found : TopLevel)
  deriving DecidableEq, Repr

namespace ParseFault

/-- The fault in words. -/
def message : ParseFault → String
  | malformed fault => fault.message
  | merge fault => fault.message
  | noMapping file found => "expected a mapping at the top level of " ++ file.quoted ++ ", found " ++ found.words

end ParseFault

/-- Why a command line cannot be split. -/
inductive CommandLineFault where
  | unbalanced (line : String)
  | empty
  deriving DecidableEq, Repr

namespace CommandLineFault

/-- The fault in words. -/
def message : CommandLineFault → String
  | unbalanced line => "unbalanced quoting in '" ++ line ++ "'"
  | empty => "empty command"

end CommandLineFault

/-- Why an operation failed. -/
inductive Error where
  | configRead (fault : IoFault)
  | configParse (fault : ParseFault)
  | configWrite (file : Path) (fault : IoFault)
  /-- The configuration holds a path that is no text. -/
  | configSerialize (path : Path)
  | commandParse (fault : CommandLineFault)
  | commandSpawn (line : String) (fault : IoFault)
  | commandFailed (line : String) (status : ExitStatus)
  deriving DecidableEq, Repr

namespace Error

/-- The error in words. -/
def message : Error → String
  | configRead fault => "Failed to read configuration file: " ++ fault.message
  | configParse fault => "Failed to parse configuration: " ++ fault.message
  | configWrite file fault => "Failed to write configuration to " ++ file.quoted ++ ": " ++ fault.message
  | configSerialize path => "Failed to serialize configuration: path " ++ path.quoted ++ " is not valid UTF-8"
  | commandParse fault => "Failed to parse command line: " ++ fault.message
  | commandSpawn line fault => "Failed to start '" ++ line ++ "': " ++ fault.message
  | commandFailed line status => "'" ++ line ++ "' exited with " ++ status.message

end Error

end ClusterConfig
