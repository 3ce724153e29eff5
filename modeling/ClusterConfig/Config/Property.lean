import ClusterConfig.Value

/-!
# Properties

The names of the properties of a configuration, in the order they are kept in: first those that are saved, then those that are
only known while the cluster is deployed.
-/

namespace ClusterConfig.Property

/-- Properties that are saved, in file order. -/
def saved : List String := [
  "project", "zone", "cluster_name", "external_compute_ips", "shared_vpc_host_project", "compute_node_prefix",
  "compute_node_service_account", "compute_node_scopes", "slurm_cmd_path", "log_dir", "google_app_cred_path",
  "update_node_addrs", "network_storage", "login_network_storage", "instance_types"]

/-- Properties that are never saved. -/
def unsaved : List String := [
  "munge_key", "jwt_key", "controller_secondary_disk", "suspend_time", "login_node_count", "cloudsql", "partitions"]

/-- All properties that a configuration takes from a deployment. -/
def all : List String := saved ++ unsaved

/-- Fields of an instance type that are only known at run time and never saved. -/
def stripped : List String := ["max_node_count", "name", "static_node_count"]

/-- The server address that stands for the controller of the cluster. -/
def controllerSign : String := "$controller"

end ClusterConfig.Property
