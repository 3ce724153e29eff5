import ClusterConfig.Proofs.Controller

/-!
# Describing a description again

The description of a deployment is itself a list of properties, and its description is the same again. No name of a controller
is the sign for the controller, so nothing is left to resolve; the resolved partitions give the same instance types, in the place
that is already there; and a null is picked as what is missing is.
-/

namespace ClusterConfig

namespace Config

/-! ## Resolving twice -/

theorem resolveMount_resolveMount (cluster : String) (mount : Namespace) :
    resolveMount (controllerName cluster) (resolveMount (controllerName cluster) mount) =
      resolveMount (controllerName cluster) mount := by
  have hnone : ¬StandsForController (.ofNamespace (resolveMount (controllerName cluster) mount)) :=
    not_standsForController_of_resolved (mountResolved_resolveMount (controllerName cluster) (.ofNamespace mount))
  exact if_neg (mt standsForController_map.mpr hnone)

theorem resolveMounts_resolveMounts (cluster : String) (v : Value) :
    resolveMounts (controllerName cluster) (resolveMounts (controllerName cluster) v) =
      resolveMounts (controllerName cluster) v :=
  Value.mapItems_mapItems (Value.mapNamespace_mapNamespace (resolveMount_resolveMount cluster)) v

theorem resolvePartition_resolvePartition (cluster : String) (v : Value) :
    resolvePartition (controllerName cluster) (resolvePartition (controllerName cluster) v) =
      resolvePartition (controllerName cluster) v :=
  Value.mapNamespace_mapNamespace
    (fun partition => Namespace.modify_modify (resolveMounts_resolveMounts cluster) partition "network_storage") v

theorem resolveProperty_resolveProperty (cluster key : String) (v : Value) :
    resolveProperty (controllerName cluster) key (resolveProperty (controllerName cluster) key v) =
      resolveProperty (controllerName cluster) key v := by
  unfold resolveProperty
  split
  · exact resolveMounts_resolveMounts cluster v
  · split
    · exact Value.mapItems_mapItems (resolvePartition_resolvePartition cluster) v
    · rfl

/-! ## What a description describes -/

/-- A description names the same cluster as the properties. -/
theorem clusterNameOf_describe (p : Namespace) : clusterNameOf (describe p) = clusterNameOf p := by
  have hname : (describe p).getRaw? "cluster_name" = some ((p.get? "cluster_name").getD .null) :=
    getRaw_describe_of_not_mem p (by decide) (by decide)
  rw [clusterNameOf, clusterNameOf, Namespace.getString?, Namespace.getString?, Namespace.get_bind rfl, hname]
  cases p.get? "cluster_name" <;> rfl

/-- A description has the partitions of the properties, resolved. -/
theorem partitionsOf_describe (p : Namespace) :
    partitionsOf (describe p) = (partitionsOf p).map (resolvePartition (controllerName (clusterNameOf p))) := by
  have hpartitions : (describe p).getRaw? "partitions" =
      some (resolveProperty (controllerName (clusterNameOf p)) "partitions" ((p.get? "partitions").getD .null)) :=
    getRaw_describe_of_ne p (by decide) (by decide)
  rw [partitionsOf, partitionsOf, Namespace.get_bind rfl, hpartitions, resolveProperty, if_neg (by decide), if_pos rfl,
    Option.bind_some, Value.asSeq_mapItems]
  cases p.get? "partitions" with
  | none => rfl
  | some v => cases v <;> rfl

/-- Each property of a description is described as it is. -/
theorem getRaw_describe_describe (p : Namespace) {key : String} (h : key ∈ Property.all) :
    (describe (describe p)).getRaw? key = (describe p).getRaw? key := by
  have hagain : ∀ partition, resolvePartition (controllerName (clusterNameOf p))
      (resolvePartition (controllerName (clusterNameOf p)) partition) =
        resolvePartition (controllerName (clusterNameOf p)) partition :=
    resolvePartition_resolvePartition (clusterNameOf p)
  rw [getRaw_describe (describe p) h, clusterNameOf_describe, partitionsOf_describe, Namespace.getD_get,
    getRaw_describe p h, Option.getD_some]
  simp only [ne_eq, List.map_eq_nil_iff, List.map_map, Function.comp_def, hagain]
  by_cases htypes : key = "instance_types" ∧ ¬partitionsOf p = []
  · rw [if_pos htypes, if_pos htypes]
  · rw [if_neg htypes, if_neg htypes, resolveProperty_resolveProperty]

/-- The description of a description is that description: the same keys in the same order, with the same values. -/
theorem ofProperties_idempotent (p : Namespace) (host host' : Host) :
    (ofProperties (ofProperties p host).fields host').fields = (ofProperties p host).fields := by
  simp only [ofProperties, wrap]
  have hn : (describe (describe p)).keys.Nodup := by
    rw [keys_describe]
    decide
  refine Namespace.eq_of_keys hn (by rw [keys_describe, keys_describe]) fun key hkey => ?_
  rw [keys_describe] at hkey
  exact getRaw_describe_describe p hkey

end Config

end ClusterConfig
