/-!
# Names of zones and nodes

Names are built from parts with dashes between them, and the last dash divides a name: the zone of a region, the number of a
node in its partition.
-/

namespace ClusterConfig

/-- What stands before the last dash; empty without a dash. -/
def beforeLastDash (name : String) : String :=
  String.ofList ((name.toList.reverse.dropWhile (· != '-')).drop 1).reverse

/-- The partition part of a node's name: a number and the dash before it are taken off the end. -/
def partitionOf (nodeName : String) : String := beforeLastDash nodeName

end ClusterConfig
