import ClusterConfig.FileSystem.Tree
import ClusterConfig.Log.Options
import ClusterConfig.Log.WatchedFile

/-!
# A session

A running program: the files it sees, its log, what it has printed, and what happens at a panic. The log is set up once; a setup
that fails because of that has made its file already. Once the log is set up, a panic is logged before the handler that was there
first runs.
-/

namespace ClusterConfig

/-- Where log lines go. -/
inductive LogSink where
  | console
  | file (w : WatchedFile)
  /-- A log file that has been closed: lines are lost. -/
  | closed
  /-- A record that is kept in memory. -/
  | record
  deriving DecidableEq, Repr

/-- A log that is set up. -/
structure Subscriber where
  filter : LogFilter
  sink : LogSink
  deriving DecidableEq, Repr

/-- What is kept in memory. -/
inductive RecordEntry where
  | line (text : String)
  /-- The handler that was there first ran, at a panic. -/
  | firstHandler
  deriving DecidableEq, Repr

/-- A running program. -/
structure Session where
  files : FileSystem
  subscriber : Option Subscriber
  /-- How many handlers log a panic before the first one runs. -/
  panicLoggers : Nat
  /-- What has been printed. -/
  console : List UInt8
  record : List RecordEntry
  /-- How the clock reads in a log file. -/
  time : String
  deriving DecidableEq, Repr

namespace Session

/-- A program that starts, with its log not set up. -/
def start (files : FileSystem) (time : String) : Session := ⟨files, none, 0, [], [], time⟩

/-- An event of the level would be logged for the target. -/
def enabled (s : Session) (target : String) (level : Level) : Bool :=
  match s.subscriber with
  | some subscriber => subscriber.filter.passes target level
  | none => false

/-- Put a line where the log goes. -/
def deliver (s : Session) (subscriber : Subscriber) (e : Event) : Session :=
  match subscriber.sink with
  | .console => { s with console := s.console ++ Text.Utf8.encode (e.consoleLine ++ "\n") }
  | .closed => s
  | .record => { s with record := s.record ++ [.line e.recordLine] }
  | .file w =>
    match w.write FileSystem.idOf s.files (Text.Utf8.encode (e.fileLine s.time ++ "\n")) with
    | .ok (files, w) => { s with files := files, subscriber := some { subscriber with sink := .file w } }
    | .error _ => s

/-- Log an event. -/
def emit (s : Session) (e : Event) : Session :=
  match s.subscriber with
  | some subscriber => if subscriber.filter.passes e.target e.level then s.deliver subscriber e else s
  | none => s

/-- Log events one after the other. -/
def emitAll (s : Session) (events : List Event) : Session := events.foldl emit s

/-- Make the directory of a log file, if it is missing. -/
def makeLogDirectory (fs : FileSystem) (file : Path) : FileSystem × Except LogError Unit :=
  match file.parent? with
  | none => (fs, .ok ())
  | some above =>
    if above.bytes.isEmpty || fs.holds above then (fs, .ok ())
    else match fs.makeDirectories above with
      | (fs, .ok ()) => (fs, .ok ())
      | (fs, .error fault) => (fs, .error (.noDirectory file above fault))

/-- Open a log file, with its directory made if it is missing. -/
def openLog (fs : FileSystem) (file : Path) : FileSystem × Except LogError WatchedFile :=
  match makeLogDirectory fs file with
  | (fs, .error e) => (fs, .error e)
  | (fs, .ok ()) =>
    match WatchedFile.openAt FileSystem.idOf fs file with
    | .ok (fs, w) => (fs, .ok w)
    | .error fault => (fs, .error (.noFile file fault))

/-- Where the lines go by the settings. -/
def openSink (fs : FileSystem) (options : LogOptions) : FileSystem × Except LogError LogSink :=
  match options.file with
  | none => (fs, .ok .console)
  | some file =>
    match openLog fs file with
    | (fs, .ok w) => (fs, .ok (.file w))
    | (fs, .error e) => (fs, .error e)

/-- Log panics from now on. -/
def logPanics (s : Session) : Session := { s with panicLoggers := s.panicLoggers + 1 }

/-- Set up the log. The settings are read first, then the file is opened, and then it turns out whether a log is there. The answer
says whether there is no file to close at the end. -/
def setUp (s : Session) (options : LogOptions) : Session × Except LogError Bool :=
  match LogFilter.ofOptions options with
  | .error e => (s, .error e)
  | .ok filter =>
    match openSink s.files options with
    | (files, .error e) => ({ s with files := files }, .error e)
    | (files, .ok sink) =>
      match s.subscriber with
      | some _ => ({ s with files := files }, .error .alreadySet)
      | none => (({ s with files := files, subscriber := some ⟨filter, sink⟩ }).logPanics, .ok options.file.isNone)

/-- Close the log file. -/
def close (s : Session) : Session :=
  { s with subscriber := s.subscriber.map fun subscriber =>
      match subscriber.sink with
      | .file _ => { subscriber with sink := .closed }
      | _ => subscriber }

/-- The payload of a panic that is no text. -/
def unnamedPayload : String := "Box<dyn Any>"

/-- The event for a panic at a place of the program. -/
def panicEvent (payload : Option String) (location : String) : Event :=
  ⟨.error, Event.logging, "Fatal exception: " ++ payload.getD unnamedPayload, [("location", location)]⟩

/-- A panic: every handler that logs it does, and then the first handler runs. -/
def panic (s : Session) (payload : Option String) (location : String) : Session :=
  let s := s.emitAll (List.replicate s.panicLoggers (panicEvent payload location))
  { s with record := s.record ++ [.firstHandler] }

end Session

end ClusterConfig
