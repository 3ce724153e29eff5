import ClusterConfig.Text.Blank

/-!
# Levels

Events have one of five levels, the gravest first. A limit lets the levels up to its own pass, or none.
-/

namespace ClusterConfig

/-- How grave an event is. -/
inductive Level where
  | error
  | warn
  | info
  | debug
  | trace
  deriving DecidableEq, Repr

namespace Level

/-- All levels, the gravest first. -/
def all : List Level := [error, warn, info, debug, trace]

/-- The place of a level, from one for the gravest. -/
def rank : Level → Nat
  | error => 1
  | warn => 2
  | info => 3
  | debug => 4
  | trace => 5

/-- The name of a level. -/
def name : Level → String
  | error => "error"
  | warn => "warn"
  | info => "info"
  | debug => "debug"
  | trace => "trace"

/-- The level in a log line, right-aligned. -/
def label : Level → String
  | error => "ERROR"
  | warn => " WARN"
  | info => " INFO"
  | debug => "DEBUG"
  | trace => "TRACE"

end Level

/-- Which levels pass. -/
inductive LevelLimit where
  | off
  | upTo (level : Level)
  deriving DecidableEq, Repr

namespace LevelLimit

/-- How many levels pass. -/
def rank : LevelLimit → Nat
  | off => 0
  | upTo level => level.rank

/-- The level passes. -/
def passes (limit : LevelLimit) (level : Level) : Bool := decide (level.rank ≤ limit.rank)

/-- The limit that lets more levels pass. -/
def max (a b : LevelLimit) : LevelLimit := if a.rank ≤ b.rank then b else a

/-- The name of a limit. -/
def name : LevelLimit → String
  | off => "off"
  | upTo level => level.name

/-- The names that settings may use for a limit. -/
def names : List (String × LevelLimit) := [
  ("trace", upTo .trace), ("debug", upTo .debug), ("info", upTo .info), ("warn", upTo .warn), ("warning", upTo .warn),
  ("error", upTo .error), ("critical", upTo .error), ("fatal", upTo .error), ("off", off)]

/-- A setting without the blanks around it and without capitals. -/
def normalized (setting : String) : String := Text.lowerAscii (Text.trim setting)

/-- The limit that a setting names. -/
def ofName? (setting : String) : Option LevelLimit := names.lookup (normalized setting)

end LevelLimit

end ClusterConfig
