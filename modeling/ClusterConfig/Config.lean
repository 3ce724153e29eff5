import ClusterConfig.Config.Property
import ClusterConfig.Error
import ClusterConfig.FileSystem.File
import ClusterConfig.Host
import ClusterConfig.NodeName
import ClusterConfig.Value.Conversion
import ClusterConfig.Value.Equality
import ClusterConfig.Value.Shown
import ClusterConfig.Yaml.Layout

/-!
# Configurations

The description of a cluster that its nodes share. A configuration is built from the properties of a deployment, which fills in
what is derived, or loaded from a file and then taken as it is. Only some properties are saved. The role and the name of the node
are asked from a host once and then remembered.
-/

namespace ClusterConfig

/-- A cluster description, the host of the node it is used on, and what that host has been asked. -/
structure Config where
  fields : Namespace
  host : Host
  role : Option RoleLookup
  hostname : Option String

/-- An answer about the node, with the configuration that remembers it, the questions to the host and the events of asking. -/
structure NodeAnswer (α : Type) where
  value : α
  config : Config
  calls : List HostCall
  events : List Event

namespace Config

/-- A description as it is, on a host that has not been asked. -/
def wrap (fields : Namespace) (host : Host) : Config := ⟨fields, host, none, none⟩

/-- The description on another host, which has not been asked. -/
def withHost (c : Config) (host : Host) : Config := wrap c.fields host

/-- The description with its fields changed. -/
def mapFields (c : Config) (f : Namespace → Namespace) : Config := { c with fields := f c.fields }

/-- The description with a value put under a key. -/
def set (c : Config) (key : String) (value : Value) : Config := c.mapFields fun fields => fields.insert key value

/-! ## A new description -/

/-- The given properties in order, each missing one as null. -/
def pick (properties : Namespace) : Namespace :=
  Namespace.ofPairs (Property.all.map fun key => (key, (properties.get? key).getD .null))

/-- The name of the cluster; empty if it has none. -/
def clusterNameOf (fields : Namespace) : String := (fields.getString? "cluster_name").getD ""

/-- A mount with the address of the controller where its server stands for it. -/
def resolveMount (controller : String) (mount : Namespace) : Namespace :=
  if mount.getString? "server_ip" = some Property.controllerSign then mount.insert "server_ip" (.string controller) else mount

/-- A list of mounts with the address of the controller put in. -/
def resolveMounts (controller : String) : Value → Value :=
  Value.mapItems (Value.mapNamespace (resolveMount controller))

/-- A partition with the address of the controller put in. -/
def resolvePartition (controller : String) : Value → Value :=
  Value.mapNamespace fun partition => partition.modify "network_storage" (resolveMounts controller)

/-- All properties with the address of the controller put in. -/
def resolveController (fields : Namespace) (controller : String) : Namespace :=
  let fields := fields.modify "network_storage" (resolveMounts controller)
  let fields := fields.modify "login_network_storage" (resolveMounts controller)
  fields.modify "partitions" (Value.mapItems (resolvePartition controller))

/-- The name of the controller of a cluster. -/
def controllerName (cluster : String) : String := cluster ++ "-controller"

/-- The name of the instance type of a partition, by its place in the list. -/
def instanceTypeName (cluster : String) (place : Nat) : String := cluster ++ "-compute-" ++ toString place

/-- The instance types of partitions, one for each. -/
def instanceTypesOf (cluster : String) (partitions : List Value) : Namespace :=
  Namespace.ofPairs (partitions.mapIdx fun place partition => (instanceTypeName cluster place, partition))

/-- The properties with the instance types of their partitions, if they have any. -/
def deriveInstanceTypes (fields : Namespace) (cluster : String) : Namespace :=
  match (fields.get? "partitions").bind Value.asSeq? with
  | some (first :: rest) => fields.insert "instance_types" (.ofNamespace (instanceTypesOf cluster (first :: rest)))
  | _ => fields

/-- The description of a deployment: its properties, with all addresses of the controller put in and then the instance types
derived. -/
def describe (properties : Namespace) : Namespace :=
  let fields := pick properties
  let cluster := clusterNameOf fields
  deriveInstanceTypes (resolveController fields (controllerName cluster)) cluster

/-- A configuration for the properties of a deployment. -/
def ofProperties (properties : Namespace) (host : Host) : Config := wrap (describe properties) host

/-! ## Loading and saving -/

/-- The entries of the mapping that a text holds, with all merge entries expanded. -/
def entriesOfText (file : Path) (text : String) : Except ParseFault (List (Yaml.Node × Yaml.Node)) :=
  match Yaml.read text with
  | .error fault => .error (.malformed fault)
  | .ok node =>
    match node.expandMerges with
    | .error fault => .error (.merge fault)
    | .ok (.map entries) => .ok entries
    | .ok node => .error (.noMapping file (TopLevel.ofNode node))

/-- The entries of the mapping that a file holds. -/
def loadEntries (fs : FileSystem) (file : Path) : Except Error (List (Yaml.Node × Yaml.Node)) :=
  match fs.readText file with
  | .error fault => .error (.configRead fault)
  | .ok text => (entriesOfText file text).mapError .configParse

/-- The configuration that a file holds, as it is. -/
def load (fs : FileSystem) (file : Path) (host : Host) : Except Error Config :=
  (loadEntries fs file).map fun entries => wrap (Namespace.ofMapping entries) host

/-- An instance type without the fields that are only known at run time. -/
def strip (instanceType : Namespace) : Namespace := Property.stripped.foldl Namespace.erase instanceType

/-- What is saved: the saved properties that are there, in order, and instance types without their fields of run time. -/
def savedView (c : Config) : Namespace :=
  let kept := Namespace.ofPairs (Property.saved.filterMap fun key => (c.fields.getRaw? key).map fun v => (key, v))
  kept.modify "instance_types" (Value.mapNamespace fun types => types.mapValues (Value.mapNamespace strip))

/-- The text that a namespace is saved as. -/
def textOf (fields : Namespace) : Except Error String :=
  match fields.toNode with
  | .ok node => .ok (Yaml.write node)
  | .error path => .error (.configSerialize path)

/-- The text that a value is saved as. -/
def textOfValue (value : Value) : Except Error String :=
  match value.toNode with
  | .ok node => .ok (Yaml.write node)
  | .error path => .error (.configSerialize path)

/-- Save the configuration in a file, instead of what was there. -/
def save (c : Config) (fs : FileSystem) (file : Path) : Except Error FileSystem := do
  let text ← textOf c.savedView
  match fs.write file (Text.Utf8.encode text) with
  | .ok fs => return fs
  | .error fault => throw (.configWrite file fault)

/-! ## The node -/

/-- The role of the node, by the tags of its instance. They are read once. -/
def lookUpRole (c : Config) : NodeAnswer RoleLookup :=
  match c.role with
  | some found => ⟨found, c, [], []⟩
  | none =>
    let tags := c.host.metadata "tags"
    let found := RoleLookup.ofText tags.value
    ⟨found.value, { c with role := some found.value }, [.metadata "tags"], tags.events ++ found.events⟩

/-- The name of the node. It is read once. -/
def lookUpHostname (c : Config) : NodeAnswer String :=
  match c.hostname with
  | some name => ⟨name, c, [], []⟩
  | none => ⟨c.host.hostname, { c with hostname := some c.host.hostname }, [.hostname], []⟩

/-! ## Properties -/

/-- The text of a property. -/
def textProperty (c : Config) (key : String) : Option String := c.fields.getString? key

/-- The path of a property. -/
def pathProperty (c : Config) (key : String) : Option Path := (c.fields.get? key).bind Value.asPath?

/-- The truth value of a property. -/
def boolProperty (c : Config) (key : String) : Option Bool := (c.fields.get? key).bind Value.asBool?

/-- The elements of a property. -/
def seqProperty (c : Config) (key : String) : Option (List Value) := (c.fields.get? key).bind Value.asSeq?

/-- The namespace of a property. -/
def mapProperty (c : Config) (key : String) : Option Namespace := (c.fields.get? key).bind Value.asMap?

/-- The project of the cluster. -/
def project (c : Config) : Option String := c.textProperty "project"

/-- The zone of the nodes. -/
def zone (c : Config) : Option String := c.textProperty "zone"

/-- The name of the cluster. -/
def clusterName (c : Config) : Option String := c.textProperty "cluster_name"

/-- The project that shares its network. -/
def sharedVpcHostProject (c : Config) : Option String := c.textProperty "shared_vpc_host_project"

/-- What the names of compute nodes start with. -/
def computeNodePrefix (c : Config) : Option String := c.textProperty "compute_node_prefix"

/-- The service account of compute nodes. -/
def computeNodeServiceAccount (c : Config) : Option String := c.textProperty "compute_node_service_account"

/-- The key that nodes authenticate each other with. -/
def mungeKey (c : Config) : Option String := c.textProperty "munge_key"

/-- The key that tokens are signed with. -/
def jwtKey (c : Config) : Option String := c.textProperty "jwt_key"

/-- Where the commands of the scheduler are. -/
def slurmCmdPath (c : Config) : Option Path := c.pathProperty "slurm_cmd_path"

/-- Where logs are kept. -/
def logDir (c : Config) : Option Path := c.pathProperty "log_dir"

/-- Where the credentials of the application are. -/
def googleAppCredPath (c : Config) : Option Path := c.pathProperty "google_app_cred_path"

/-- Compute nodes have addresses outside. -/
def externalComputeIps (c : Config) : Option Bool := c.boolProperty "external_compute_ips"

/-- The scheduler is told the addresses of nodes. -/
def updateNodeAddrs (c : Config) : Option Bool := c.boolProperty "update_node_addrs"

/-- The controller has a second disk. -/
def controllerSecondaryDisk (c : Config) : Option Bool := c.boolProperty "controller_secondary_disk"

/-- The scopes of the service account. -/
def computeNodeScopes (c : Config) : Option (List Value) := c.seqProperty "compute_node_scopes"

/-- The mounts of all nodes. -/
def networkStorage (c : Config) : Option (List Value) := c.seqProperty "network_storage"

/-- The mounts of login nodes. -/
def loginNetworkStorage (c : Config) : Option (List Value) := c.seqProperty "login_network_storage"

/-- The partitions of the cluster. -/
def partitions (c : Config) : Option (List Value) := c.seqProperty "partitions"

/-- The instance types, by name. -/
def instanceTypes (c : Config) : Option Namespace := c.mapProperty "instance_types"

/-- The database of the cluster. -/
def cloudsql (c : Config) : Option Namespace := c.mapProperty "cloudsql"

/-- How many seconds a node is idle before it is suspended. -/
def suspendTime (c : Config) : Option Int := (c.fields.get? "suspend_time").bind Value.asSigned?

/-- How many login nodes there are. -/
def loginNodeCount (c : Config) : Option Nat := (c.fields.get? "login_node_count").bind Value.asUnsigned?

/-- The region of the zone: its name without the letter after the last dash. -/
def region (c : Config) : Option String := c.zone.map beforeLastDash

/-! ## Comparison and diagnostics -/

/-- The descriptions are the same; the host does not matter. -/
def same (a b : Config) : Bool := a.fields.same b.fields

/-- Configurations are compared by `same`. -/
instance : BEq Config := ⟨same⟩

/-- A value that may be missing, for diagnostics. -/
def optionShown (text : Option String) : String :=
  match text with
  | some text => "Some(" ++ text ++ ")"
  | none => "None"

/-- The configuration for diagnostics. -/
def shown (c : Config) : String :=
  "Config \x7b ns: " ++ c.fields.shown ++ ", instance_type: " ++ optionShown (c.role.map RoleLookup.shown) ++ ", hostname: " ++
    optionShown (c.hostname.map Text.Quoted.string) ++ ", .. \x7d"

end Config

end ClusterConfig
