import Mathlib.Data.List.Nodup
import ClusterConfig.Proofs.Controller
import ClusterConfig.Proofs.NodeName

/-!
# Instance types of partitions

The instance types of a deployment are its partitions, each under the name that its place gives it. The digits of the place end
that name, so places have different names, whatever the name of the cluster is: no partition takes the place of another, and the
name of a node leads to its partition.
-/

namespace ClusterConfig

namespace Config

/-! ## Names of instance types -/

/-- Different places give different names. -/
theorem instanceTypeName_injective (cluster : String) : Function.Injective (instanceTypeName cluster) := by
  intro i j h
  rw [instanceTypeName, instanceTypeName, String.append_right_inj] at h
  have hdigits : Nat.toDigits 10 i = Nat.toDigits 10 j := by
    rw [← Nat.toList_repr, ← Nat.toList_repr]
    exact congrArg String.toList h
  calc i = Nat.ofDigitChars 10 (Nat.toDigits 10 i) 0 := Nat.ofDigitChars_ten_toDigits.symm
    _ = Nat.ofDigitChars 10 (Nat.toDigits 10 j) 0 := by rw [hdigits]
    _ = j := Nat.ofDigitChars_ten_toDigits

/-- The name of a node leads to the instance type of its partition. -/
theorem partitionOf_node (cluster : String) (place node : Nat) :
    partitionOf (cluster ++ "-compute-" ++ toString place ++ "-" ++ toString node) = instanceTypeName cluster place :=
  partitionOf_append _ node

/-! ## The entries -/

theorem keys_pairs (cluster : String) (partitions : List Value) :
    (partitions.mapIdx fun place partition => (instanceTypeName cluster place, partition)).map Prod.fst =
      (List.range partitions.length).map (instanceTypeName cluster) := by
  refine List.ext_getElem (by simp) fun i hi hi' => ?_
  simp

/-- No instance type takes the place of another. -/
theorem entries_instanceTypesOf (cluster : String) (partitions : List Value) :
    (instanceTypesOf cluster partitions).entries =
      partitions.mapIdx fun place partition => (instanceTypeName cluster place, partition) := by
  refine Namespace.entries_ofPairs ?_
  rw [keys_pairs]
  exact List.Nodup.map (instanceTypeName_injective cluster) List.nodup_range

/-- Under the name of a place stands the partition there. -/
theorem getRaw_instanceTypesOf {cluster : String} {partitions : List Value} {place : Nat} {partition : Value}
    (h : partitions[place]? = some partition) :
    (instanceTypesOf cluster partitions).getRaw? (instanceTypeName cluster place) = some partition := by
  refine Namespace.lookup_of_mem (Namespace.nodup_ofPairs _) ?_
  change _ ∈ (instanceTypesOf cluster partitions).entries
  rw [entries_instanceTypesOf, List.mem_mapIdx]
  obtain ⟨hplace, rfl⟩ := List.getElem?_eq_some_iff.mp h
  exact ⟨place, hplace, rfl⟩

/-! ## The instance types of a deployment -/

theorem partitionsOf_of_seq {p : Namespace} {items : List Value} (h : p.getRaw? "partitions" = some (.seq items)) :
    partitionsOf p = items := by
  rw [partitionsOf, Namespace.get_bind rfl, h]
  rfl

theorem partitionsOf_eq_nil {p : Namespace} (h : ∀ items, p.getRaw? "partitions" = some (.seq items) → items = []) :
    partitionsOf p = [] := by
  rw [partitionsOf, Namespace.get_bind rfl]
  cases hitems : (p.getRaw? "partitions").bind Value.asSeq? with
  | none => rfl
  | some items =>
    obtain ⟨v, hv, hseq⟩ := Option.bind_eq_some_iff.mp hitems
    exact h items (hv.trans (congrArg some (Value.asSeq_eq_some.mp hseq)))

/-- No partition of a deployment is lost. Its instance types are its partitions in order, with the addresses of the controller
resolved, each under a name of its own, and the name of a node leads to its partition. Without partitions the instance types
are the given ones. -/
theorem instanceTypes_of_partitions (p : Namespace) (host : Host) :
    ∃ cluster, NamesCluster p cluster ∧
      (∀ items, p.getRaw? "partitions" = some (.seq items) → items ≠ [] → ∃ resolved types,
        (ofProperties p host).fields.getRaw? "partitions" = some (.seq resolved) ∧
          (ofProperties p host).fields.getRaw? "instance_types" = some (.ofNamespace types) ∧
          List.Forall₂ (PartitionResolved (cluster ++ "-controller")) items resolved ∧
          types.size = items.length ∧ types.keys.Nodup ∧
          (∀ i : Nat, types.entries[i]? = resolved[i]?.map fun partition => (cluster ++ "-compute-" ++ toString i, partition)) ∧
          ∀ i < items.length, ∃ partition, resolved[i]? = some partition ∧ ∀ node : Nat,
            types.getRaw? (partitionOf (cluster ++ "-compute-" ++ toString i ++ "-" ++ toString node)) = some partition) ∧
      ((∀ items, p.getRaw? "partitions" = some (.seq items) → items = []) →
        (ofProperties p host).fields.getRaw? "instance_types" = some ((p.get? "instance_types").getD .null)) := by
  simp only [ofProperties, wrap]
  refine ⟨clusterNameOf p, namesCluster_clusterNameOf p, ?derived, ?given⟩
  case derived =>
    intro items hitems hne
    have hof : partitionsOf p = items := partitionsOf_of_seq hitems
    have hgiven : (p.get? "partitions").getD .null = .seq items := by
      rw [Namespace.get?, hitems]
      rfl
    have hmem : "partitions" ∈ Property.all := by decide
    have hmem' : "instance_types" ∈ Property.all := by decide
    have hpartitions := getRaw_describe_of_ne p hmem (by decide)
    rw [hgiven, resolveProperty, if_neg (by decide), if_pos rfl, Value.mapItems] at hpartitions
    have htypes := getRaw_describe p hmem'
    rw [if_pos ⟨rfl, hof ▸ hne⟩, hof] at htypes
    refine ⟨_, _, hpartitions, htypes, ?_, ?_, Namespace.nodup_ofPairs _, fun i => ?_, fun i hi => ?_⟩
    · exact List.forall₂_map_right_iff.mpr (List.forall₂_same.mpr fun v _ => partitionResolved_resolvePartition _ v)
    · rw [Namespace.size, entries_instanceTypesOf, List.length_mapIdx, List.length_map]
    · rw [entries_instanceTypesOf, List.getElem?_mapIdx]
      rfl
    · have hresolved : (items.map (resolvePartition (controllerName (clusterNameOf p))))[i]? =
          some (resolvePartition (controllerName (clusterNameOf p)) items[i]) := by
        rw [List.getElem?_map, List.getElem?_eq_getElem hi, Option.map_some]
      refine ⟨_, hresolved, fun node => ?_⟩
      rw [partitionOf_node]
      exact getRaw_instanceTypesOf hresolved
  case given =>
    intro hnone
    rw [getRaw_describe p (by decide), if_neg fun h => h.2 (partitionsOf_eq_nil hnone)]
    rfl

end Config

end ClusterConfig
