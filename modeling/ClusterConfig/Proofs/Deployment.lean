import ClusterConfig.Proofs.SavedView
import ClusterConfig.Proofs.Value.Keys

/-!
# What a deployment saves

The configuration of a deployment takes each property by its key, and what is derived comes from the name of the cluster and
the partitions. So what is saved depends on the saved properties and on what partitions hold besides their fields of run time:
`savedView_ofProperties_congr` compares two deployments that agree on these.
-/

namespace ClusterConfig

namespace Config

/-! ## The properties that are taken -/

/-- Each property that a configuration has is the given one, or null where none is given. -/
theorem getRaw_pick (p : Namespace) (key : String) :
    (pick p).getRaw? key = if key ∈ Property.all then some ((p.get? key).getD .null) else none := by
  have hpairs : Property.all.map (fun key => (key, (p.get? key).getD .null)) =
      Property.all.filterMap fun key => (some ((p.get? key).getD .null)).map fun v => (key, v) := by
    rw [← List.filterMap_eq_map]
    rfl
  have hn : ((Property.all.map fun key => (key, (p.get? key).getD .null)).map Prod.fst).Nodup := by
    rw [hpairs]
    exact Namespace.nodup_filterMap (fun key => some ((p.get? key).getD .null)) (by decide)
  rw [pick, Namespace.getRaw?, Namespace.entries_ofPairs hn, hpairs]
  exact Namespace.lookup_filterMap (fun key => some ((p.get? key).getD .null)) Property.all key

/-- What is read from a property that is taken is read from the given one. -/
theorem getRaw_pick_bind {α : Type} {f : Value → Option α} (hf : f .null = none) (p : Namespace) {key : String}
    (h : key ∈ Property.all) : ((pick p).getRaw? key).bind f = (p.get? key).bind f := by
  rw [getRaw_pick, if_pos h]
  cases p.get? key with
  | none => exact hf
  | some v => rfl

/-- The name of the cluster is the given one. -/
theorem clusterNameOf_pick (p : Namespace) : clusterNameOf (pick p) = clusterNameOf p := by
  rw [clusterNameOf, clusterNameOf, Namespace.getString?, Namespace.getString?, Namespace.get_bind rfl,
    getRaw_pick_bind rfl p (by decide)]

/-- What the address of the controller is put into: the lists of mounts, and those of partitions. -/
def resolveProperty (controller : String) (key : String) (v : Value) : Value :=
  if key = "network_storage" ∨ key = "login_network_storage" then resolveMounts controller v
  else if key = "partitions" then Value.mapItems (resolvePartition controller) v
  else v

theorem resolveController_eq (fields : Namespace) (controller : String) :
    resolveController fields controller = fields.mapEntries (resolveProperty controller) := by
  simp only [resolveController, Namespace.modify_eq_mapEntries, Namespace.mapEntries, List.map_map]
  refine congrArg Namespace.mk (List.map_congr_left fun e _ => ?_)
  by_cases h₁ : e.1 = "network_storage"
  · simp [resolveProperty, h₁]
  · by_cases h₂ : e.1 = "login_network_storage"
    · simp [resolveProperty, h₂]
    · by_cases h₃ : e.1 = "partitions" <;> simp [resolveProperty, h₁, h₂, h₃]

theorem getRaw_resolveController (p : Namespace) (controller key : String) :
    (resolveController (pick p) controller).getRaw? key =
      if key ∈ Property.all then some (resolveProperty controller key ((p.get? key).getD .null)) else none := by
  rw [resolveController_eq, Namespace.getRaw_mapEntries, getRaw_pick]
  by_cases hk : key ∈ Property.all
  · rw [if_pos hk, if_pos hk, Option.map_some]
  · rw [if_neg hk, if_neg hk, Option.map_none]

/-! ## Instance types -/

/-- The partitions that instance types are derived from. -/
def partitionsOf (fields : Namespace) : List Value := ((fields.get? "partitions").bind Value.asSeq?).getD []

theorem mem_partitionsOf {fields : Namespace} {partition : Value} (h : partition ∈ partitionsOf fields) :
    ∃ items, fields.get? "partitions" = some (.seq items) ∧ partition ∈ items := by
  rw [partitionsOf] at h
  cases hv : (fields.get? "partitions").bind Value.asSeq? with
  | none => simp [hv] at h
  | some items =>
    rw [hv] at h
    obtain ⟨v, hget, hseq⟩ := Option.bind_eq_some_iff.mp hv
    cases v with
    | seq =>
      cases hseq
      exact ⟨items, hget, h⟩
    | _ => cases hseq

/-- The partitions of a configuration are the given ones, with the address of the controller put in. -/
theorem partitionsOf_resolveController (p : Namespace) (controller : String) :
    partitionsOf (resolveController (pick p) controller) = (partitionsOf p).map (resolvePartition controller) := by
  have hmem : "partitions" ∈ Property.all := by decide
  have hresolve : ∀ v, resolveProperty controller "partitions" v = Value.mapItems (resolvePartition controller) v := by
    intro v
    simp [resolveProperty]
  rw [partitionsOf, partitionsOf, Namespace.get_bind rfl, getRaw_resolveController, if_pos hmem, hresolve,
    Option.bind_some, Value.asSeq_mapItems]
  cases p.get? "partitions" with
  | none => rfl
  | some v => cases v <;> rfl

/-- Instance types are derived from partitions where there are any, and kept as they are otherwise. -/
theorem getRaw_deriveInstanceTypes (fields : Namespace) (cluster key : String) :
    (deriveInstanceTypes fields cluster).getRaw? key =
      if key = "instance_types" ∧ partitionsOf fields ≠ [] then
        some (.ofNamespace (instanceTypesOf cluster (partitionsOf fields)))
      else fields.getRaw? key := by
  unfold deriveInstanceTypes partitionsOf
  split
  · rename_i first rest h
    rw [h, Namespace.getRaw_insert]
    by_cases hk : key = "instance_types" <;> simp [hk]
  · rename_i hno
    cases h : (fields.get? "partitions").bind Value.asSeq? with
    | none => simp
    | some items =>
      cases items with
      | nil => simp
      | cons first rest => exact absurd h (hno first rest)

/-- The instance types of a deployment are its partitions, with the address of the controller put in. -/
theorem getRaw_describe (p : Namespace) {key : String} (h : key ∈ Property.all) :
    (describe p).getRaw? key = some (
      if key = "instance_types" ∧ partitionsOf p ≠ [] then
        .ofNamespace (instanceTypesOf (clusterNameOf p)
          ((partitionsOf p).map (resolvePartition (controllerName (clusterNameOf p)))))
      else resolveProperty (controllerName (clusterNameOf p)) key ((p.get? key).getD .null)) := by
  rw [describe]
  simp only [clusterNameOf_pick, getRaw_deriveInstanceTypes, partitionsOf_resolveController, getRaw_resolveController,
    if_pos h, ne_eq, List.map_eq_nil_iff]
  split <;> rfl

/-! ## Fields of run time of partitions -/

/-- Putting the address of the controller in changes no field of run time. -/
theorem strip_resolvePartition (controller : String) (v : Value) :
    Value.mapNamespace strip (resolvePartition controller v) =
      resolvePartition controller (Value.mapNamespace strip v) := by
  cases v with
  | map entries =>
    have hstrip := strip_mapEntries ⟨entries⟩ fun k v => if k = "network_storage" then resolveMounts controller v else v
    rw [← Namespace.modify_eq_mapEntries, ← Namespace.modify_eq_mapEntries] at hstrip
    exact congrArg Value.ofNamespace hstrip
  | _ => rfl

/-- What is saved of derived instance types comes from what the partitions hold besides their fields of run time. -/
theorem savedValue_instanceTypesOf (cluster : String) (partitions : List Value) :
    savedValue "instance_types" (.ofNamespace (instanceTypesOf cluster partitions)) =
      .ofNamespace (instanceTypesOf cluster (partitions.map (Value.mapNamespace strip))) := by
  have hmapped : (instanceTypesOf cluster partitions).mapValues (Value.mapNamespace strip) =
      instanceTypesOf cluster (partitions.map (Value.mapNamespace strip)) := by
    rw [instanceTypesOf, instanceTypesOf, Namespace.mapValues_ofPairs, List.mapIdx_eq_zipIdx_map,
      List.mapIdx_eq_zipIdx_map, List.zipIdx_map, List.map_map, List.map_map]
    rfl
  rw [← hmapped]
  rfl

/-- A list of partitions without their fields of run time. -/
def stripItems : Value → Value := Value.mapItems (Value.mapNamespace strip)

theorem partitionsOf_stripItems (p : Namespace) :
    (((p.get? "partitions").map stripItems).bind Value.asSeq?).getD [] = (partitionsOf p).map (Value.mapNamespace strip) := by
  rw [partitionsOf]
  cases p.get? "partitions" with
  | none => rfl
  | some v => cases v <;> rfl

/-! ## The saved view of a deployment -/

/-- Of a deployment every saved property is saved: its instance types are derived where there are partitions, and the address of
the controller is put into the others. -/
theorem getRaw_savedView_ofProperties (p : Namespace) (host : Host) {key : String} (h : key ∈ Property.saved) :
    (ofProperties p host).savedView.getRaw? key = some (
      if key = "instance_types" ∧ partitionsOf p ≠ [] then
        .ofNamespace (instanceTypesOf (clusterNameOf p)
          ((partitionsOf p).map fun partition =>
            resolvePartition (controllerName (clusterNameOf p)) (Value.mapNamespace strip partition)))
      else savedValue key (resolveProperty (controllerName (clusterNameOf p)) key ((p.get? key).getD .null))) := by
  rw [getRaw_savedView, if_pos h, ofProperties, wrap, getRaw_describe p (List.mem_append_left _ h), Option.map_some]
  by_cases htypes : key = "instance_types" ∧ partitionsOf p ≠ []
  · rw [if_pos htypes, if_pos htypes, htypes.1, savedValue_instanceTypesOf, List.map_map]
    simp only [Function.comp_def, strip_resolvePartition]
  · rw [if_neg htypes, if_neg htypes]

/-! ## Merge keys of what is saved -/

theorem addsNoKey_resolveMounts (controller : String) : Value.AddsNoKey "<<" (resolveMounts controller) := by
  refine Value.AddsNoKey.mapItems (Value.addsNoKey_mapNamespace fun mount h => ?_)
  rw [resolveMount] at h
  split at h
  · exact Value.hasKey_insert (by decide) (Value.not_hasKey_of_leaf rfl rfl) h
  · exact h

theorem addsNoKey_resolvePartition (controller : String) : Value.AddsNoKey "<<" (resolvePartition controller) :=
  Value.addsNoKey_mapNamespace fun _ h => Value.hasKey_modify (addsNoKey_resolveMounts controller) h

theorem addsNoKey_resolveProperty (controller key : String) :
    Value.AddsNoKey "<<" (resolveProperty controller key) := by
  intro v h
  rw [resolveProperty] at h
  split at h
  · exact addsNoKey_resolveMounts controller v h
  · split at h
    · exact Value.AddsNoKey.mapItems (addsNoKey_resolvePartition controller) v h
    · exact h

theorem addsNoKey_strip : Value.AddsNoKey "<<" (Value.mapNamespace strip) := by
  refine Value.addsNoKey_mapNamespace fun ns h => ?_
  rw [strip_eq_filter] at h
  exact Value.hasKey_filter h

theorem addsNoKey_savedValue (key : String) : Value.AddsNoKey "<<" (savedValue key) := by
  intro v h
  rw [savedValue] at h
  split at h
  · refine Value.addsNoKey_mapNamespace (fun types htypes => ?_) v h
    exact Value.hasKey_mapEntries (fun _ => addsNoKey_strip) htypes
  · exact h

/-- The name of an instance type is not the merge key. -/
theorem getRaw_instanceTypesOf_mergeKey (cluster : String) (partitions : List Value) :
    (instanceTypesOf cluster partitions).getRaw? "<<" = none := by
  refine Namespace.lookup_eq_none.mpr fun hmem => ?_
  obtain ⟨e, he, hname⟩ := List.mem_map.mp (Namespace.mem_keys_ofPairs.mp hmem)
  obtain ⟨place, hplace, rfl⟩ := List.mem_mapIdx.mp he
  have hdash := congrArg (fun s => decide ('-' ∈ s.toList)) hname
  simp [instanceTypeName] at hdash

/-- Where a deployment is saved with a merge key at any depth, it was given one. -/
theorem hasKey_of_savedView {p : Namespace} {host : Host}
    (h : (Value.ofNamespace (ofProperties p host).savedView).HasKey "<<") : (Value.ofNamespace p).HasKey "<<" := by
  have hgiven : ∀ key v, p.get? key = some v → v.HasKey "<<" → (Value.ofNamespace p).HasKey "<<" := by
    intro key v hget hk
    exact Value.hasKey_of_getRaw (Option.filter_eq_some_iff.mp hget).1 hk
  have hkeys := Namespace.lookup_eq_none.mp (getRaw_savedView_mergeKey (ofProperties p host))
  rcases Value.hasKey_map.mp h with hk | ⟨e, he, hk⟩
  · exact absurd hk hkeys
  · obtain ⟨hsaved, hget⟩ := getRaw_of_mem_savedView he
    rw [getRaw_savedView_ofProperties p host hsaved, Option.some.injEq] at hget
    rw [← hget] at hk
    split at hk
    · rcases Value.hasKey_map.mp hk with hname | ⟨type, htype, hk⟩
      · exact absurd hname (Namespace.lookup_eq_none.mp (getRaw_instanceTypesOf_mergeKey _ _))
      · obtain ⟨place, hplace, rfl⟩ := List.mem_mapIdx.mp (Namespace.mem_of_mem_ofPairs htype)
        rw [List.getElem_map] at hk
        obtain ⟨items, hget, hmem⟩ := mem_partitionsOf (List.getElem_mem (List.length_map _ ▸ hplace))
        have hpartition := addsNoKey_strip _ (addsNoKey_resolvePartition _ _ hk)
        exact hgiven _ _ hget (Value.hasKey_seq.mpr ⟨_, hmem, hpartition⟩)
    · have hvalue := addsNoKey_resolveProperty _ _ _ (addsNoKey_savedValue _ _ hk)
      cases hv : p.get? e.1 with
      | none =>
        rw [hv] at hvalue
        exact absurd hvalue (Value.not_hasKey_of_leaf rfl rfl)
      | some v =>
        rw [hv] at hvalue
        exact hgiven e.1 v hv hvalue

/-! ## Two deployments -/

/-- Deployments that agree on the saved properties and, but for fields of run time, on the partitions are saved alike. -/
theorem savedView_ofProperties_congr {p q : Namespace} (hsaved : ∀ key ∈ Property.saved, p.get? key = q.get? key)
    (hpartitions : (p.get? "partitions").map stripItems = (q.get? "partitions").map stripItems) (host host' : Host) :
    (ofProperties p host).savedView = (ofProperties q host').savedView := by
  have hcluster : clusterNameOf p = clusterNameOf q := by
    rw [clusterNameOf, clusterNameOf, Namespace.getString?, Namespace.getString?, hsaved "cluster_name" (by decide)]
  have hstripped : (partitionsOf p).map (Value.mapNamespace strip) = (partitionsOf q).map (Value.mapNamespace strip) := by
    rw [← partitionsOf_stripItems, ← partitionsOf_stripItems, hpartitions]
  have hnil : partitionsOf p = [] ↔ partitionsOf q = [] := by
    rw [← List.map_eq_nil_iff (f := Value.mapNamespace strip), hstripped, List.map_eq_nil_iff]
  refine savedView_congr fun key hkey => ?_
  have hnonempty : (key = "instance_types" ∧ partitionsOf p ≠ []) = (key = "instance_types" ∧ partitionsOf q ≠ []) := by
    rw [ne_eq, hnil]
  have hresolved := congrArg (List.map (resolvePartition (controllerName (clusterNameOf q)))) hstripped
  rw [List.map_map, List.map_map] at hresolved
  rw [getRaw_savedView_ofProperties p host hkey, getRaw_savedView_ofProperties q host' hkey, hcluster, hsaved key hkey]
  simp only [hnonempty]
  rw [← Function.comp_def, hresolved]

/-- Properties that are not saved do not influence the saved file. Two deployments that agree on the saved properties and, but
for fields of run time, on the partitions write the same text and fail alike, whatever else is put into either. -/
theorem save_eq_of_agree {p q : Namespace} (hsaved : ∀ key ∈ Property.saved, p.get? key = q.get? key)
    (hpartitions : (p.get? "partitions").map stripItems = (q.get? "partitions").map stripItems)
    {puts puts' : List (String × Value)} (hputs : ∀ e ∈ puts, e.1 ∉ Property.saved)
    (hputs' : ∀ e ∈ puts', e.1 ∉ Property.saved) (host host' : Host) :
    textOf ((ofProperties p host).setAll puts).savedView = textOf ((ofProperties q host').setAll puts').savedView ∧
      ∀ fs file, ((ofProperties p host).setAll puts).save fs file = ((ofProperties q host').setAll puts').save fs file := by
  have hview : ((ofProperties p host).setAll puts).savedView = ((ofProperties q host').setAll puts').savedView :=
    calc ((ofProperties p host).setAll puts).savedView = (ofProperties p host).savedView := savedView_setAll hputs
      _ = (ofProperties q host').savedView := savedView_ofProperties_congr hsaved hpartitions host host'
      _ = ((ofProperties q host').setAll puts').savedView := (savedView_setAll hputs').symm
  exact ⟨by rw [hview], save_congr hview⟩

/-- Two deployments with different keys, orders of properties and counts of nodes, and one where a key is put later. -/
theorem save_eq_of_agree_secrets :
    let partition (count : String) : Value := .map [("max_node_count", .string count), ("zone", .string "z")]
    let p : Namespace := ⟨[("munge_key", .string "k"), ("cluster_name", .string "c"), ("partitions", .seq [partition "1"])]⟩
    let q : Namespace := ⟨[("partitions", .seq [partition "2"]), ("cluster_name", .string "c"), ("zone", .null)]⟩
    let host := Host.fixed 0 none "h"
    ∀ fs file, ((ofProperties p host).setAll [("jwt_key", .string "j")]).save fs file =
      ((ofProperties q host).setAll []).save fs file := by
  intro partition p q host
  have hsaved : ∀ key ∈ Property.saved, p.get? key = q.get? key := by
    simp [p, q, Property.saved, Namespace.get?, Namespace.getRaw?, Namespace.lookup_cons, Option.filter_some]
  have hpartitions : (p.get? "partitions").map stripItems = (q.get? "partitions").map stripItems := by
    simp [p, q, partition, Namespace.get?, Namespace.getRaw?, Namespace.lookup_cons, Option.filter_some, stripItems,
      Value.mapItems, Value.mapNamespace, Value.ofNamespace, strip_eq_filter, Property.stripped]
  exact (save_eq_of_agree hsaved hpartitions (by simp [Property.saved]) (List.forall_mem_nil _) host host).2

end Config

end ClusterConfig
