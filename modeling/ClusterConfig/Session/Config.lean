import ClusterConfig.Config
import ClusterConfig.Session

/-!
# Configurations in a session

Loading, saving and converting with the events that are logged on the way.
-/

namespace ClusterConfig

namespace Session

/-- The event for an entry that conversion leaves out. -/
def skippedEvent (key : Yaml.Node) : Event :=
  ⟨.warn, Event.helper "namespace", "Skipping mapping entry with a non-scalar key", [("key", key.shown)]⟩

/-- The namespace of a YAML mapping. Entries that are left out are logged. -/
def convert (s : Session) (entries : List (Yaml.Node × Yaml.Node)) : Session × Namespace :=
  (s.emitAll ((Value.skippedInEntries entries).map skippedEvent), Namespace.ofMapping entries)

/-- The event for a configuration that has been loaded or saved. -/
def fileEvent (message : String) (file : Path) : Event :=
  ⟨.debug, Event.helper "config", message, [("path", file.quoted)]⟩

/-- Load the configuration that a file holds. -/
def load (s : Session) (file : Path) (host : Host) : Session × Except Error Config :=
  match Config.loadEntries s.files file with
  | .error e => (s, .error e)
  | .ok entries =>
    let (s, fields) := (s.emit (fileEvent "Loaded config" file)).convert entries
    (s, .ok (Config.wrap fields host))

/-- Save a configuration in a file. -/
def save (s : Session) (c : Config) (file : Path) : Session × Except Error Unit :=
  match c.save s.files file with
  | .error e => (s, .error e)
  | .ok files => ({ s with files := files }.emit (fileEvent "Saved config" file), .ok ())

/-- The role of the node. -/
def lookUpRole (s : Session) (c : Config) : Session × NodeAnswer RoleLookup :=
  let found := c.lookUpRole
  (s.emitAll found.events, found)

/-- The metadata at a path. -/
def metadata (s : Session) (host : Host) (path : String) : Session × Option String :=
  let found := host.metadata path
  (s.emitAll found.events, found.value)

end Session

end ClusterConfig
