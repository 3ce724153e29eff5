import ClusterConfig.Log.Event
import ClusterConfig.Role
import ClusterConfig.Yaml.Document

/-!
# The host of a node

What a node can ask about itself: metadata of its instance, by a path, and its name. Metadata come from a server; a request that
fails is logged and gives nothing.
-/

namespace ClusterConfig

/-- A result together with the events of getting it. -/
structure Logged (α : Type) where
  value : α
  events : List Event

/-- The environment that a configuration asks about its node. -/
structure Host where
  /-- A number that tells the host from others. -/
  id : Nat
  metadata : String → Logged (Option String)
  hostname : String

/-- A question to a host. -/
inductive HostCall where
  | metadata (path : String)
  | hostname
  deriving DecidableEq, Repr

/-- A client of a metadata server. -/
structure MetadataClient where
  /-- What the address of every request starts with. -/
  baseUrl : String
  deriving DecidableEq, Repr

namespace MetadataClient

/-- The metadata server of an instance. -/
def standardUrl : String := "http://metadata.google.internal/computeMetadata/v1/instance/"

/-- The client of the metadata server of an instance. -/
def standard : MetadataClient := ⟨standardUrl⟩

/-- The client for diagnostics. -/
def shown (client : MetadataClient) : String :=
  "GceMetadata \x7b base_url: " ++ Text.Quoted.string client.baseUrl ++ " \x7d"

/-- The metadata at a path, by way of a network that answers a request with a text or says why it cannot. -/
def get (client : MetadataClient) (network : String → Except String String) (path : String) : Logged (Option String) :=
  let url := client.baseUrl ++ path
  match network url with
  | .ok body => ⟨some body, []⟩
  | .error reason =>
    ⟨none, [⟨.warn, Event.helper "host", "Error while getting metadata", [("url", url), ("error", reason)]⟩]⟩

end MetadataClient

namespace Host

/-- The network without a connection: every request fails. -/
def disconnected (url : String) : Except String String := .error ("no connection for " ++ url)

/-- The machine itself, with a client for its metadata. -/
def system (id : Nat) (client : MetadataClient) (network : String → Except String String) (hostname : String) : Host :=
  ⟨id, client.get network, hostname⟩

/-- A host that gives the same answer for all metadata. -/
def fixed (id : Nat) (metadata : Option String) (hostname : String) : Host := ⟨id, fun _ => ⟨metadata, []⟩, hostname⟩

end Host

namespace RoleLookup

/-- The role by the text of the tags of an instance, which is a list of texts or empty. -/
def ofText (text : Option String) : Logged RoleLookup :=
  match text with
  | none => ⟨unavailable, []⟩
  | some text =>
    match Yaml.readTexts? text with
    | some tags => ⟨ofTags tags, []⟩
    | none =>
      ⟨unavailable, [⟨.warn, Event.helper "config", "Instance tags are not a list of strings",
        [("error", "expected a list of strings")]⟩]⟩

end RoleLookup

end ClusterConfig
