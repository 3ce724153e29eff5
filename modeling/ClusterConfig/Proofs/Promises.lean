import ClusterConfig.Proofs.Controller
import ClusterConfig.Proofs.Reload

/-!
# What a saved deployment promises

Fields of run time are stripped and the address of the controller is put in before a deployment is saved. Both look at the
entries that stand in a namespace, and not at those that its merge key names, which loading puts in afterwards. So the promises
hold of what is loaded exactly where no merge key brings such an entry in.
-/

namespace ClusterConfig

namespace Config

/-! ## The promises -/

section

variable (look : Namespace → String → Option Value)

/-- The instance types have a field of run time, as `look` finds values under keys. -/
def HasRuntimeField (ns : Namespace) : Prop :=
  ∃ types, (look ns "instance_types").bind Value.asMap? = some types ∧ ∃ name type,
    (look types name).bind Value.asMap? = some type ∧ ∃ field ∈ Property.stripped, (look type field).isSome = true

/-- The list of mounts under the key has one whose server stands for the controller, as `look` finds values under keys. -/
def MountsController (key : String) (ns : Namespace) : Prop :=
  ∃ items, (look ns key).bind Value.asSeq? = some items ∧ ∃ mount ∈ items, ∃ m, mount.asMap? = some m ∧
    (look m "server_ip").bind Value.asString? = some Property.controllerSign

/-- A list of mounts for all nodes or for login nodes has one whose server stands for the controller, and where instance types
are derived, one of theirs may. -/
def LeavesController (derived : Prop) (ns : Namespace) : Prop :=
  MountsController look "network_storage" ns ∨ MountsController look "login_network_storage" ns ∨
    derived ∧ ∃ types, (look ns "instance_types").bind Value.asMap? = some types ∧ ∃ name type,
      (look types name).bind Value.asMap? = some type ∧ MountsController look "network_storage" type

end

/-! ## What is loaded and what stands in what is saved -/

/-- The second namespace is what the first one comes back as. -/
def ReloadsAs (ns ns' : Namespace) : Prop := ∀ key, Option.Rel Value.Reloads (ns.standing? key) (ns'.getRaw? key)

theorem ReloadsAs.bind_asMap {ns ns' : Namespace} (h : ReloadsAs ns ns') (key : String) :
    Option.Rel ReloadsAs ((ns.standing? key).bind Value.asMap?) ((ns'.getRaw? key).bind Value.asMap?) :=
  rel_bind (h key) fun _ _ hv => hv.asMap

theorem ReloadsAs.bind_asString {ns ns' : Namespace} (h : ReloadsAs ns ns') (key : String) :
    (ns'.getRaw? key).bind Value.asString? = (ns.standing? key).bind Value.asString? :=
  bind_eq_of_rel (h key) fun _ _ hv => hv.asString

/-- Fields of run time are loaded exactly where they stand in what is saved. -/
theorem ReloadsAs.hasRuntimeField {ns ns' : Namespace} (h : ReloadsAs ns ns') :
    HasRuntimeField Namespace.getRaw? ns' ↔ HasRuntimeField Namespace.standing? ns := by
  refine exists_iff_of_rel (h.bind_asMap "instance_types") fun types types' _ htypes => ?_
  refine exists_congr fun name => ?_
  refine exists_iff_of_rel (htypes.bind_asMap name) fun type type' _ htype => ?_
  refine exists_congr fun field => and_congr_right fun _ => ?_
  rw [isSome_eq_of_rel (htype field)]

theorem ReloadsAs.mountsController {ns ns' : Namespace} (h : ReloadsAs ns ns') (key : String) :
    MountsController Namespace.getRaw? key ns' ↔ MountsController Namespace.standing? key ns := by
  have hitems : Option.Rel (List.Forall₂ Value.Reloads) ((ns.standing? key).bind Value.asSeq?)
      ((ns'.getRaw? key).bind Value.asSeq?) := rel_bind (h key) fun _ _ hv => hv.asSeq
  refine exists_iff_of_rel hitems fun items items' _ hrel => exists_mem_iff_of_forall₂ hrel fun mount _ mount' hmount => ?_
  refine exists_iff_of_rel hmount.asMap fun m m' _ hm => ?_
  rw [ReloadsAs.bind_asString hm]

/-- Servers that stand for the controller are loaded exactly where they stand in what is saved. -/
theorem ReloadsAs.leavesController {ns ns' : Namespace} (h : ReloadsAs ns ns') (derived : Prop) :
    LeavesController Namespace.getRaw? derived ns' ↔ LeavesController Namespace.standing? derived ns := by
  refine or_congr (h.mountsController _) (or_congr (h.mountsController _) (and_congr_right fun _ => ?_))
  refine exists_iff_of_rel (h.bind_asMap "instance_types") fun types types' _ htypes => ?_
  refine exists_congr fun name => ?_
  exact exists_iff_of_rel (htypes.bind_asMap name) fun type type' _ htype => htype.mountsController _

/-! ## What stands in a saved deployment -/

/-- An instance type of a saved view has no field of run time of its own. -/
theorem getRaw_stripped {c : Config} {types type : Namespace} {name field : String}
    (htypes : (c.savedView.getRaw? "instance_types").bind Value.asMap? = some types)
    (htype : (types.getRaw? name).bind Value.asMap? = some type) (hf : field ∈ Property.stripped) :
    type.getRaw? field = none := by
  have hmem : "instance_types" ∈ Property.saved := by decide
  rw [getRaw_savedView, if_pos hmem] at htypes
  obtain ⟨v, hv, hmap⟩ := Option.bind_eq_some_iff.mp htypes
  obtain ⟨v, -, rfl⟩ := Option.map_eq_some_iff.mp hv
  rw [savedValue, if_pos rfl, Value.asMap_mapNamespace] at hmap
  obtain ⟨types, -, rfl⟩ := Option.map_eq_some_iff.mp hmap
  rw [Namespace.getRaw_mapValues] at htype
  obtain ⟨w, hw, hmap⟩ := Option.bind_eq_some_iff.mp htype
  obtain ⟨w, -, rfl⟩ := Option.map_eq_some_iff.mp hw
  rw [Value.asMap_mapNamespace] at hmap
  obtain ⟨type, -, rfl⟩ := Option.map_eq_some_iff.mp hmap
  rw [getRaw_strip, if_pos hf]

/-- After the address of the controller is put in, no server of a mount stands for it itself. -/
theorem server_of_resolveMounts {cluster : String} {v mount : Value} {items : List Value} {m : Namespace}
    (hitems : (resolveMounts (controllerName cluster) v).asSeq? = some items) (hmem : mount ∈ items)
    (hm : mount.asMap? = some m) : (m.getRaw? "server_ip").bind Value.asString? ≠ some Property.controllerSign := by
  have hnone := noneStands_of_resolved (mountsResolved_resolveMounts (controllerName cluster) v)
    items (Value.asSeq_eq_some.mp hitems) mount hmem
  rw [Value.asMap_eq_some.mp hm, Value.ofNamespace, standsForController_map, Namespace.getString?,
    Namespace.get_bind rfl] at hnone
  exact hnone

/-- No mount that a deployment saves for all nodes or for login nodes stands for the controller itself. -/
theorem server_of_savedView {p : Namespace} {host : Host} {key : String}
    (hkey : key = "network_storage" ∨ key = "login_network_storage") {items : List Value}
    (hitems : ((ofProperties p host).savedView.getRaw? key).bind Value.asSeq? = some items) {mount : Value}
    (hmem : mount ∈ items) {m : Namespace} (hm : mount.asMap? = some m) :
    (m.getRaw? "server_ip").bind Value.asString? ≠ some Property.controllerSign := by
  have hsaved : key ∈ Property.saved := by rcases hkey with rfl | rfl <;> decide
  have htypes : key ≠ "instance_types" := by rcases hkey with rfl | rfl <;> decide
  have hderived : ¬(key = "instance_types" ∧ partitionsOf p ≠ []) := fun h => htypes h.1
  rw [getRaw_savedView_ofProperties p host hsaved, if_neg hderived, Option.bind_some, savedValue, if_neg htypes,
    resolveProperty, if_pos hkey] at hitems
  exact server_of_resolveMounts hitems hmem hm

/-- An instance type that is derived is a partition that is stripped and has the address of the controller put in. -/
theorem type_of_instanceTypesOf {cluster controller : String} {partitions : List Value} {name : String} {type : Namespace}
    (htype : ((instanceTypesOf cluster (partitions.map fun partition =>
      resolvePartition controller (Value.mapNamespace strip partition))).getRaw? name).bind Value.asMap? = some type) :
    ∃ partition : Namespace, type = partition.modify "network_storage" (resolveMounts controller) := by
  obtain ⟨v, hv, hmap⟩ := Option.bind_eq_some_iff.mp htype
  have hmem := Namespace.mem_of_mem_ofPairs (Namespace.mem_of_lookup hv)
  obtain ⟨place, hplace, heq⟩ := List.mem_mapIdx.mp hmem
  rw [Prod.mk.injEq, List.getElem_map] at heq
  obtain ⟨-, rfl⟩ := heq
  simp only [resolvePartition, Value.asMap_mapNamespace] at hmap
  obtain ⟨partition, -, rfl⟩ := Option.map_eq_some_iff.mp hmap
  exact ⟨partition, rfl⟩

/-! ## What merge keys bring in -/

/-- A merge key brings a field of run time in: that of an instance type the field, or that of the instance types a whole
type. -/
def MergesRuntimeField (ns : Namespace) : Prop :=
  ∃ types, (ns.getRaw? "instance_types").bind Value.asMap? = some types ∧ ∃ name type,
    (name ≠ "<<" ∧ (types.getRaw? name).bind Value.asMap? = some type ∧
        ∃ field ∈ Property.stripped, ∃ v, type.MergesIn field v) ∨
      (∃ v, types.MergesIn name v ∧ v.asMap? = some type) ∧
        ∃ field ∈ Property.stripped, (type.standing? field).isSome = true

/-- The merge key of a mount in the list under the key brings in a server that stands for the controller. -/
def MergesServer (key : String) (ns : Namespace) : Prop :=
  ∃ items, (ns.getRaw? key).bind Value.asSeq? = some items ∧ ∃ mount ∈ items, ∃ m, mount.asMap? = some m ∧
    ∃ v, m.MergesIn "server_ip" v ∧ v.asString? = some Property.controllerSign

/-- The merge key brings in a list of mounts under the key, with one whose server stands for the controller. -/
def MergesMounts (key : String) (ns : Namespace) : Prop :=
  ∃ items, (∃ v, ns.MergesIn key v ∧ v.asSeq? = some items) ∧ ∃ mount ∈ items, ∃ m, mount.asMap? = some m ∧
    (m.standing? "server_ip").bind Value.asString? = some Property.controllerSign

/-- A merge key brings in a server that stands for the controller: that of a mount, or where instance types are derived, that of
an instance type with a list of mounts. -/
def MergesController (derived : Prop) (ns : Namespace) : Prop :=
  MergesServer "network_storage" ns ∨ MergesServer "login_network_storage" ns ∨
    derived ∧ ∃ types, (ns.getRaw? "instance_types").bind Value.asMap? = some types ∧ ∃ name type,
      (types.getRaw? name).bind Value.asMap? = some type ∧
        (MergesServer "network_storage" type ∨ MergesMounts "network_storage" type)

theorem hasKey_of_mergesRuntimeField {ns : Namespace} (h : MergesRuntimeField ns) :
    (Value.ofNamespace ns).HasKey "<<" := by
  obtain ⟨types, htypes, name, type, ⟨-, htype, field, -, v, hmerges⟩ | ⟨⟨v, hmerges, -⟩, -⟩⟩ := h
  · exact Value.hasKey_of_asMap htypes (Value.hasKey_of_asMap htype (Namespace.hasKey_of_mergesIn hmerges))
  · exact Value.hasKey_of_asMap htypes (Namespace.hasKey_of_mergesIn hmerges)

theorem hasKey_of_mergesController {derived : Prop} {ns : Namespace} (h : MergesController derived ns) :
    (Value.ofNamespace ns).HasKey "<<" := by
  have hserver : ∀ {key : String} {ns : Namespace}, MergesServer key ns → (Value.ofNamespace ns).HasKey "<<" := by
    rintro key ns ⟨items, hitems, mount, hmem, m, hm, v, hmerges, -⟩
    exact Value.hasKey_of_asSeq hitems hmem hm (Namespace.hasKey_of_mergesIn hmerges)
  rcases h with h | h | ⟨-, types, htypes, name, type, htype, h | ⟨items, ⟨v, hmerges, -⟩, -⟩⟩
  · exact hserver h
  · exact hserver h
  · exact Value.hasKey_of_asMap htypes (Value.hasKey_of_asMap htype (hserver h))
  · exact Value.hasKey_of_asMap htypes (Value.hasKey_of_asMap htype (Namespace.hasKey_of_mergesIn hmerges))

/-- Fields of run time stand in a saved view exactly where a merge key brings one in. -/
theorem hasRuntimeField_savedView (c : Config) :
    HasRuntimeField Namespace.standing? c.savedView ↔ MergesRuntimeField c.savedView := by
  have htop : c.savedView.standing? "instance_types" = c.savedView.getRaw? "instance_types" :=
    Namespace.standing_of_not_merging (getRaw_savedView_mergeKey c) "instance_types"
  rw [HasRuntimeField, htop]
  refine exists_congr fun types => and_congr_right fun htypes => exists_congr fun name => exists_congr fun type => ?_
  rw [Namespace.standing_bind_eq_some]
  constructor
  · rintro ⟨⟨hname, htype⟩ | hmerged, field, hf, hstands⟩
    · obtain ⟨v, hv⟩ := Option.isSome_iff_exists.mp hstands
      rcases Namespace.standing_eq_some.mp hv with ⟨-, hown⟩ | hmerges
      · rw [getRaw_stripped htypes htype hf] at hown
        nomatch hown
      · exact Or.inl ⟨hname, htype, field, hf, v, hmerges⟩
    · exact Or.inr ⟨hmerged, field, hf, hstands⟩
  · rintro (⟨hname, htype, field, hf, v, hmerges⟩ | ⟨hmerged, field, hf, hstands⟩)
    · exact ⟨Or.inl ⟨hname, htype⟩, field, hf,
        Option.isSome_iff_exists.mpr ⟨v, Namespace.standing_eq_some.mpr (Or.inr hmerges)⟩⟩
    · exact ⟨Or.inr hmerged, field, hf, hstands⟩

/-- Where no mount stands for the controller itself, one does exactly where a merge key brings the server or the list in. -/
theorem mountsController_standing {ns : Namespace} {key : String} (hkey : key ≠ "<<")
    (hserver : ∀ items, (ns.getRaw? key).bind Value.asSeq? = some items → ∀ mount ∈ items, ∀ m, mount.asMap? = some m →
      (m.getRaw? "server_ip").bind Value.asString? ≠ some Property.controllerSign) :
    MountsController Namespace.standing? key ns ↔ MergesServer key ns ∨ MergesMounts key ns := by
  simp only [MountsController, MergesServer, MergesMounts, Namespace.standing_bind_eq_some (f := Value.asSeq?)]
  constructor
  · rintro ⟨items, ⟨-, hitems⟩ | hmerged, mount, hmem, m, hm, hstands⟩
    · rcases Namespace.standing_bind_eq_some.mp hstands with ⟨-, hown⟩ | hmerges
      · exact absurd hown (hserver items hitems mount hmem m hm)
      · exact Or.inl ⟨items, hitems, mount, hmem, m, hm, hmerges⟩
    · exact Or.inr ⟨items, hmerged, mount, hmem, m, hm, hstands⟩
  · rintro (⟨items, hitems, mount, hmem, m, hm, hmerges⟩ | ⟨items, hmerged, mount, hmem, m, hm, hstands⟩)
    · exact ⟨items, Or.inl ⟨hkey, hitems⟩, mount, hmem, m, hm, Namespace.standing_bind_eq_some.mpr (Or.inr hmerges)⟩
    · exact ⟨items, Or.inr hmerged, mount, hmem, m, hm, hstands⟩

/-- Servers that stand for the controller stand in the saved view of a deployment exactly where a merge key brings one in. -/
theorem leavesController_savedView (p : Namespace) (host : Host) :
    LeavesController Namespace.standing? (partitionsOf p ≠ []) (ofProperties p host).savedView ↔
      MergesController (partitionsOf p ≠ []) (ofProperties p host).savedView := by
  have hmergeKey := getRaw_savedView_mergeKey (ofProperties p host)
  have hmounts : ∀ key, key = "network_storage" ∨ key = "login_network_storage" →
      (MountsController Namespace.standing? key (ofProperties p host).savedView ↔
        MergesServer key (ofProperties p host).savedView) := by
    intro key hkey
    have hne : key ≠ "<<" := by rcases hkey with rfl | rfl <;> decide
    rw [mountsController_standing hne fun items hitems mount hmem m hm => server_of_savedView hkey hitems hmem hm]
    refine or_iff_left ?_
    rintro ⟨items, ⟨v, hmerges, -⟩, -⟩
    exact Namespace.not_mergesIn hmergeKey key v hmerges
  refine or_congr (hmounts _ (Or.inl rfl)) (or_congr (hmounts _ (Or.inr rfl)) (and_congr_right fun hp => ?_))
  rw [Namespace.standing_of_not_merging hmergeKey, getRaw_savedView_ofProperties p host (by decide), if_pos ⟨rfl, hp⟩,
    Option.bind_some]
  refine exists_congr fun types => and_congr_right fun htypes => exists_congr fun name => exists_congr fun type => ?_
  obtain rfl := Option.some.inj htypes
  rw [Namespace.standing_of_not_merging (getRaw_instanceTypesOf_mergeKey _ _)]
  refine and_congr_right fun htype => mountsController_standing (by decide) ?_
  intro items hitems mount hmem m hm
  obtain ⟨partition, rfl⟩ := type_of_instanceTypesOf htype
  rw [Namespace.getRaw_modify, if_pos rfl] at hitems
  obtain ⟨v, hv, hseq⟩ := Option.bind_eq_some_iff.mp hitems
  obtain ⟨v, -, rfl⟩ := Option.map_eq_some_iff.mp hv
  exact server_of_resolveMounts hseq hmem hm

/-! ## A merge key that names a field -/

/-- A deployment with an instance type whose merge key names it. -/
def mergingProperties : Namespace := ⟨[("instance_types", .map [("t", .map [("<<", .map [("name", .string "x")])])])]⟩

/-- The tree in which the instance type alone is set. -/
def treeOfType (type : Yaml.Node) : List (Yaml.Node × Yaml.Node) :=
  Property.saved.map fun key =>
    (.string key, if key = "instance_types" then .map [(.string "t", type)] else .null)

/-- What is saved of the deployment. -/
def mergingTree : Yaml.Node := .map (treeOfType (.map [(.string "<<", .map [(.string "name", .string "x")])]))

theorem read_write_mergingTree : Yaml.read (Yaml.write mergingTree) = .ok mergingTree := by
  have hwrite : Yaml.write mergingTree =
      "project: null\n" ++ "zone: null\n" ++ "cluster_name: null\n" ++ "external_compute_ips: null\n" ++
      "shared_vpc_host_project: null\n" ++ "compute_node_prefix: null\n" ++ "compute_node_service_account: null\n" ++
      "compute_node_scopes: null\n" ++ "slurm_cmd_path: null\n" ++ "log_dir: null\n" ++ "google_app_cred_path: null\n" ++
      "update_node_addrs: null\n" ++ "network_storage: null\n" ++ "login_network_storage: null\n" ++
      "instance_types:\n" ++ "  t:\n" ++ "    <<:\n" ++ "      name: x\n" := by decide +kernel
  -- The characters are those of the lines: taking a long text apart at once is slow.
  rw [hwrite, Yaml.read, Yaml.Document.ofText]
  simp only [String.toList_append]
  decide +kernel

theorem toNode_mergingProperties :
    (ofProperties mergingProperties (.fixed 0 none "h")).savedView.toNode = .ok mergingTree := by rfl

/-- The deployment can be saved. -/
theorem save_mergingProperties :
    (ofProperties mergingProperties (.fixed 0 none "h")).save (.holding "") ⟨[99]⟩ =
      .ok (.holding (Yaml.write mergingTree)) :=
  save_eq_ok.mpr ⟨_, toNode_mergingProperties, FileSystem.write_holding _ _⟩

/-- The deployment is loaded with the name as a field of the instance type. -/
theorem load_mergingProperties :
    load (.holding (Yaml.write mergingTree)) ⟨[99]⟩ (.fixed 0 none "h") = .ok
      (wrap (Namespace.ofMapping (treeOfType (.map [(.string "name", .string "x")]))) (.fixed 0 none "h")) :=
  (load_of_save save_mergingProperties toNode_mergingProperties read_write_mergingTree rfl).mpr ⟨_, by rfl, rfl⟩

/-! ## The promises of a loaded deployment -/

/-- A deployment that is saved comes back as its saved view does. -/
theorem reloadsAs_of_load {c loaded : Config} {fs fs' : FileSystem} {file : Path} {host : Host}
    (hsave : c.save fs file = .ok fs') (hload : load fs' file host = .ok loaded)
    (hread : ∀ node, c.savedView.toNode = .ok node → Yaml.read (Yaml.write node) = .ok node) :
    ReloadsAs c.savedView loaded.fields := by
  obtain ⟨node, hnode, -⟩ := save_eq_ok.mp hsave
  have hread := hread node hnode
  obtain ⟨entries, hexpand, rfl⟩ := (load_of_save hsave hnode hread (isFile_of_load hload)).mp hload
  have hreloads : Value.Reloads (.ofNamespace c.savedView) (.ofNamespace (Namespace.ofMapping entries)) :=
    ⟨node, .map entries, hnode, Yaml.distinct_of_read hread, hexpand, rfl⟩
  cases hreloads.asMap with
  | some h => exact h

/-- A deployment without merge keys, however its properties are nested, keeps its promises. -/
theorem promises_of_mergeFree {p : Namespace} {host host' : Host} {fs fs' : FileSystem} {file : Path} {loaded : Config}
    (hfree : ¬(Value.ofNamespace p).HasKey "<<") (hsave : (ofProperties p host).save fs file = .ok fs')
    (hload : load fs' file host' = .ok loaded)
    (hread : ∀ node, (ofProperties p host).savedView.toNode = .ok node → Yaml.read (Yaml.write node) = .ok node) :
    ¬HasRuntimeField Namespace.getRaw? loaded.fields ∧
      ¬LeavesController Namespace.getRaw? (partitionsOf p ≠ []) loaded.fields := by
  have hreloads := reloadsAs_of_load hsave hload hread
  constructor
  · rw [hreloads.hasRuntimeField, hasRuntimeField_savedView]
    exact fun h => hfree (hasKey_of_savedView (hasKey_of_mergesRuntimeField h))
  · rw [hreloads.leavesController, leavesController_savedView]
    exact fun h => hfree (hasKey_of_savedView (hasKey_of_mergesController h))

/-- A deployment that is saved and loaded keeps its two promises exactly where no merge key breaks them: there is no field of run
time in an instance type unless a merge key brings one in, and no server that stands for the controller unless a merge key brings
one in. -/
theorem promises_of_load {p : Namespace} {host host' : Host} {fs fs' : FileSystem} {file : Path} {loaded : Config}
    (hsave : (ofProperties p host).save fs file = .ok fs') (hload : load fs' file host' = .ok loaded)
    (hread : ∀ node, (ofProperties p host).savedView.toNode = .ok node → Yaml.read (Yaml.write node) = .ok node) :
    (¬HasRuntimeField Namespace.getRaw? loaded.fields ↔ ¬MergesRuntimeField (ofProperties p host).savedView) ∧
      (¬LeavesController Namespace.getRaw? (partitionsOf p ≠ []) loaded.fields ↔
        ¬MergesController (partitionsOf p ≠ []) (ofProperties p host).savedView) := by
  have hreloads := reloadsAs_of_load hsave hload hread
  constructor
  · rw [hreloads.hasRuntimeField, hasRuntimeField_savedView]
  · rw [hreloads.leavesController, leavesController_savedView]

/-- The name comes back as a field of the instance type, and no server comes back that stands for the controller. -/
theorem promises_of_load_merging :
    ∃ loaded, load (.holding (Yaml.write mergingTree)) ⟨[99]⟩ (.fixed 0 none "h") = .ok loaded ∧
      HasRuntimeField Namespace.getRaw? loaded.fields ∧
      ¬LeavesController Namespace.getRaw? (partitionsOf mergingProperties ≠ []) loaded.fields := by
  obtain ⟨hfields, hcontroller⟩ :=
    promises_of_load save_mergingProperties load_mergingProperties
      (readsBack_of_toNode toNode_mergingProperties read_write_mergingTree)
  refine ⟨_, load_mergingProperties, (not_iff_not.mp hfields).mpr ?_, hcontroller.mpr ?_⟩
  · exact ⟨⟨[("t", .map [("<<", .map [("name", .string "x")])])]⟩, by rfl, "t", ⟨[("<<", .map [("name", .string "x")])]⟩,
      Or.inl ⟨by decide, by rfl, "name", by decide, .string "x", Or.inr (by rfl), by rfl⟩⟩
  · rintro (⟨items, hitems, -⟩ | ⟨items, hitems, -⟩ | ⟨hpartitions, -⟩)
    · nomatch hitems
    · nomatch hitems
    · exact hpartitions rfl

/-- Not every deployment that is saved and loaded is free of fields of run time. -/
theorem load_keeps_mergedField :
    ¬∀ (p : Namespace) (host host' : Host) (fs fs' : FileSystem) (file : Path) (loaded : Config),
      (ofProperties p host).save fs file = .ok fs' → load fs' file host' = .ok loaded →
      (∀ node, (ofProperties p host).savedView.toNode = .ok node → Yaml.read (Yaml.write node) = .ok node) →
      ¬HasRuntimeField Namespace.getRaw? loaded.fields := by
  intro hall
  refine hall _ _ _ _ _ _ _ save_mergingProperties load_mergingProperties
    (readsBack_of_toNode toNode_mergingProperties read_write_mergingTree) ?_
  exact ⟨⟨[("t", .map [("name", .string "x")])]⟩, by rfl, "t", ⟨[("name", .string "x")]⟩, by rfl, "name", by decide, by rfl⟩

end Config

end ClusterConfig
