import ClusterConfig.Log.Level

/-!
# Log events and lines

An event says where it comes from, a message and fields. It is written as a line: plainly for a console, with emphasis on the
names of fields, or with its level and target for a file. Control characters that steer a terminal are escaped in the message.
-/

namespace ClusterConfig

/-- Something worth a log line. -/
structure Event where
  level : Level
  /-- The part of the program that the event comes from. -/
  target : String
  message : String
  fields : List (String × String)
  deriving DecidableEq, Repr

namespace Event

/-- The target of the shared helpers; those of its parts start with it. -/
def helpers : String := "slurm_gcp_config"

/-- The target of a part of the shared helpers. -/
def helper (part : String) : String := helpers ++ "::" ++ part

/-- The target of logging itself. -/
def logging : String := "slurm_gcp_logging::init"

/-- The lower-case hexadecimal digits of a character's number. -/
def hexOf (c : Char) : String := String.ofList (Nat.toDigits 16 c.toNat)

/-- A character of a message: one that may steer a terminal is escaped. -/
def escapedChar (c : Char) : String :=
  if c = '\x1b' ∨ c = '\x7f' then "\\x" ++ hexOf c
  else if c = '\x07' ∨ c = '\x08' ∨ c = '\x0c' then "\\x0" ++ hexOf c
  else if 0x80 ≤ c.toNat ∧ c.toNat ≤ 0x9f then "\\u\x7b" ++ hexOf c ++ "\x7d"
  else String.singleton c

/-- The message without what may steer a terminal. -/
def safeMessage (e : Event) : String := String.join (e.message.toList.map escapedChar)

/-- A sequence that sets how a terminal shows what follows. -/
def terminalStyle (code : String) : String := "\x1b[" ++ code ++ "m"

/-- A field for a console: the name in italics and a dimmed sign. -/
def consoleField (field : String × String) : String :=
  " " ++ terminalStyle "3" ++ field.1 ++ terminalStyle "0" ++ terminalStyle "2" ++ "=" ++ terminalStyle "0" ++ field.2

/-- A field for a file. -/
def plainField (field : String × String) : String := " " ++ field.1 ++ "=" ++ field.2

/-- The line for a console: the message and the fields. -/
def consoleLine (e : Event) : String := e.safeMessage ++ String.join (e.fields.map consoleField)

/-- The line after the time: level, target, the given message and the fields. -/
def lineWith (e : Event) (message : String) : String :=
  e.level.label ++ " " ++ e.target ++ ": " ++ message ++ String.join (e.fields.map plainField)

/-- The line for a file, after a time. -/
def fileLine (time : String) (e : Event) : String := time ++ " " ++ e.lineWith e.safeMessage

/-- The line for a record that no terminal shows. -/
def recordLine (e : Event) : String := e.lineWith e.message

end Event

end ClusterConfig
