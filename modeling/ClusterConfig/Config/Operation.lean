import ClusterConfig.Config

/-!
# Operations on configurations

A program makes configurations, copies them and works on them. They are numbered in the order they come to be. A host may answer
differently each time it is asked, so every operation comes with the way hosts behave while it is carried out; what was asked
goes into a record.
-/

namespace ClusterConfig

/-- What a configuration is made from. -/
inductive ConfigSource where
  /-- The properties of a deployment. -/
  | properties (p : Namespace)
  /-- A namespace, taken as it is. -/
  | fields (ns : Namespace)
  | file (p : Path)

/-- What is done with a configuration. -/
inductive ConfigUse where
  | clone
  | withHost (host : Host)
  /-- Look up the role, as it was found or not found. -/
  | lookUpRole
  /-- Look up the role alone. -/
  | role
  | hostname
  | set (key : String) (value : Value)
  | edit (key : String) (change : Value → Value)
  | savedView
  | save (file : Path)
  | region
  | same (other : Nat)
  | shown

/-- One operation: a configuration is made, or one that has been made is used. -/
inductive ConfigOperation where
  | make (source : ConfigSource) (host : Host)
  | use (on : Nat) (use : ConfigUse)

/-- What an operation answers. -/
inductive ConfigReply where
  /-- The number of a new configuration. -/
  | made (number : Nat)
  | failed (e : Error)
  | done
  /-- There is no such configuration. -/
  | missing
  | lookup (found : RoleLookup)
  | role (role : Option Role)
  | hostname (name : String)
  /-- What was there before. -/
  | former (value : Option Value)
  | changed (there : Bool)
  | fields (ns : Namespace)
  | region (text : Option String)
  | same (answer : Bool)
  | shown (text : String)

/-- An operation, with the way hosts behave while it is carried out. -/
structure ConfigAction where
  now : Host → Host
  operation : ConfigOperation

/-- An operation that has been carried out, with its answer and the questions to hosts, each after the number of the host. -/
structure ConfigEntry extends ConfigAction where
  reply : ConfigReply
  calls : List (Nat × HostCall)

/-- The configurations of a program, and the files it sees. -/
structure Configs where
  list : List Config
  files : FileSystem

namespace Config

/-- Ask the host of a configuration, which behaves in the given way just now. -/
def askNow {α : Type} (c : Config) (now : Host → Host) (ask : Config → NodeAnswer α) : NodeAnswer α :=
  let answer := ask { c with host := now c.host }
  { answer with config := { answer.config with host := c.host } }

end Config

namespace Configs

/-- No configurations yet. -/
def start (files : FileSystem) : Configs := ⟨[], files⟩

/-- Something else put under a number. -/
def put (s : Configs) (on : Nat) (c : Config) : Configs := { s with list := s.list.set on c }

/-- A new configuration, which gets the next number. -/
def add (s : Configs) (c : Config) : Configs × ConfigReply := ({ s with list := s.list ++ [c] }, .made s.list.length)

/-- A configuration made from a source. -/
def make (s : Configs) (source : ConfigSource) (host : Host) : Configs × ConfigReply :=
  match source with
  | .properties p => s.add (Config.ofProperties p host)
  | .fields ns => s.add (Config.wrap ns host)
  | .file file =>
    match Config.load s.files file host with
    | .ok c => s.add c
    | .error e => (s, .failed e)

/-- Use the configuration of a number. -/
def use (s : Configs) (now : Host → Host) (on : Nat) (c : Config) : ConfigUse → Configs × ConfigReply × List HostCall
  | .clone =>
    let (s, reply) := s.add c
    (s, reply, [])
  | .withHost host => (s.put on (c.withHost host), .done, [])
  | .lookUpRole =>
    let answer := c.askNow now Config.lookUpRole
    (s.put on answer.config, .lookup answer.value, answer.calls)
  | .role =>
    let answer := c.askNow now Config.lookUpRole
    (s.put on answer.config, .role answer.value.role?, answer.calls)
  | .hostname =>
    let answer := c.askNow now Config.lookUpHostname
    (s.put on answer.config, .hostname answer.value, answer.calls)
  | .set key value => (s.put on (c.set key value), .former (c.fields.getRaw? key), [])
  | .edit key change =>
    (s.put on (c.mapFields fun fields => fields.modify key change), .changed (c.fields.contains key), [])
  | .savedView => (s, .fields c.savedView, [])
  | .save file =>
    match c.save s.files file with
    | .ok files => ({ s with files := files }, .done, [])
    | .error e => (s, .failed e, [])
  | .region => (s, .region c.region, [])
  | .same other =>
    match s.list[other]? with
    | some d => (s, .same (c.same d), [])
    | none => (s, .missing, [])
  | .shown => (s, .shown c.shown, [])

/-- Carry out an operation. -/
def step (s : Configs) (action : ConfigAction) : Configs × ConfigEntry :=
  match action.operation with
  | .make source host =>
    let (s, reply) := s.make source host
    (s, ⟨action, reply, []⟩)
  | .use on use =>
    match s.list[on]? with
    | none => (s, ⟨action, .missing, []⟩)
    | some c =>
      let (s, reply, calls) := s.use action.now on c use
      (s, ⟨action, reply, calls.map fun call => (c.host.id, call)⟩)

/-- Carry out operations one after the other. -/
def run (s : Configs) : List ConfigAction → Configs × List ConfigEntry
  | [] => (s, [])
  | action :: rest =>
    let (s, entry) := s.step action
    let (s, entries) := s.run rest
    (s, entry :: entries)

end Configs

end ClusterConfig
