import ClusterConfig.FileSystem.Fault
import ClusterConfig.Log.Event
import ClusterConfig.Path

/-!
# Settings of the log

What the log is set up with, and which events a setting lets pass. The shared helpers may have a limit of their own; it holds for
every target that starts with theirs.
-/

namespace ClusterConfig

/-- Settings of the log. -/
structure LogOptions where
  /-- The limit for everything. -/
  level : String
  /-- The limit for the shared helpers, if it is another one. -/
  helperLevel : Option String
  /-- Log to this file, and to the console without one. -/
  file : Option Path
  deriving DecidableEq, Repr

namespace LogOptions

/-- The settings of a log that nobody has set up otherwise. -/
def standard : LogOptions := ⟨"DEBUG", none, none⟩

end LogOptions

/-- Why a log could not be set up. -/
inductive LogError where
  | unknownLevel (setting : String)
  | noDirectory (file directory : Path) (fault : IoFault)
  | noFile (file : Path) (fault : IoFault)
  /-- The log of this program has been set up before. -/
  | alreadySet
  deriving DecidableEq, Repr

namespace LogError

/-- The words for a log file that cannot be used. -/
def appender (file : Path) (reason : String) : String := "Appender setup failed for '" ++ file.shown ++ "': " ++ reason

/-- The error in words. -/
def message : LogError → String
  | unknownLevel setting =>
    "Invalid configuration value for 'level': Unknown level '" ++ LevelLimit.normalized setting ++
      "'. Expected 'trace', 'debug', 'info', 'warning', 'error', 'critical' or 'off'."
  | noDirectory file directory fault =>
    appender file ("Failed to create directory " ++ directory.quoted ++ ": " ++ fault.message)
  | noFile file fault => appender file ("Failed to open file " ++ file.quoted ++ ": " ++ fault.message)
  | alreadySet =>
    "Failed to set global tracing subscriber: a global default trace dispatcher has already been set"

end LogError

/-- The limit that a setting names, or an error. -/
def LevelLimit.parse (setting : String) : Except LogError LevelLimit :=
  match LevelLimit.ofName? setting with
  | some limit => .ok limit
  | none => .error (.unknownLevel setting)

/-- A limit for the targets that start with a text. -/
structure Directive where
  start : String
  limit : LevelLimit
  deriving DecidableEq, Repr

/-- Limits for targets: of those whose text starts a target, the first one holds. Longer texts come first. -/
structure LogFilter where
  directives : List Directive
  deriving DecidableEq, Repr

namespace LogFilter

/-- The text starts the target. -/
def startsWith (target start : String) : Bool := start.toList.isPrefixOf target.toList

/-- The limit for a target. -/
def limitFor (filter : LogFilter) (target : String) : LevelLimit :=
  ((filter.directives.find? fun d => startsWith target d.start).map Directive.limit).getD .off

/-- An event of the level passes for the target. -/
def passes (filter : LogFilter) (target : String) (level : Level) : Bool := (filter.limitFor target).passes level

/-- The limit that no event beyond it passes. -/
def widest (filter : LogFilter) : LevelLimit := (filter.directives.map Directive.limit).foldl LevelLimit.max .off

/-- The filter of two limits, the second one for the shared helpers. -/
def ofLimits (general helpers : LevelLimit) : LogFilter := ⟨[⟨Event.helpers, helpers⟩, ⟨"", general⟩]⟩

/-- The filter of settings. The general limit is read first, and it is the one for the helpers too where they have none. -/
def ofOptions (options : LogOptions) : Except LogError LogFilter := do
  let general ← LevelLimit.parse options.level
  let helpers ← match options.helperLevel with
    | some setting => LevelLimit.parse setting
    | none => pure general
  return ofLimits general helpers

end LogFilter

end ClusterConfig
