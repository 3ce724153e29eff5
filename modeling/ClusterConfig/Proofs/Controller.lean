import ClusterConfig.Proofs.Deployment
import ClusterConfig.Proofs.Outcome
import ClusterConfig.Proofs.Text

/-!
# Addresses of the controller

A server address that stands for the controller is replaced by the name of the controller, in the mounts of all nodes, in those
of login nodes and in those of each partition. The relations of this file say what a value may look like before and after, part
by part: `MountResolved` for one mount, `Itemwise` for a list, `PartitionResolved` for a partition. Whatever they do not name is
the same on both sides.
-/

namespace ClusterConfig

namespace Value

/-- The value reads as the text: it is that string, or the path that is written so. -/
def Reads (v : Value) (s : String) : Prop := v = .string s ∨ v = .path (.ofString s)

theorem asString_eq_some {v : Value} {s : String} : v.asString? = some s ↔ v.Reads s := by
  cases v with
  | string t => simp [asString?, Reads]
  | path p => simp [asString?, Reads, Path.text_eq_some]
  | _ => simp [asString?, Reads]

/-- Of two sequences the elements are related one by one; values that are no sequences are the same. -/
inductive Itemwise (r : Value → Value → Prop) : Value → Value → Prop where
  | seq {items items' : List Value} : List.Forall₂ r items items' → Itemwise r (.seq items) (.seq items')
  | other {v : Value} : v.asSeq? = none → Itemwise r v v

/-- A sequence is what another one has become. -/
theorem Itemwise.eq_seq {r : Value → Value → Prop} {v : Value} {items' : List Value} (h : Itemwise r v (.seq items')) :
    ∃ items, v = .seq items ∧ List.Forall₂ r items items' := by
  cases h with
  | seq hitems => exact ⟨_, rfl, hitems⟩
  | other hno => nomatch hno

theorem itemwise_mapItems {r : Value → Value → Prop} {f : Value → Value} (h : ∀ v, r v (f v)) (v : Value) :
    Itemwise r v (mapItems f v) := by
  cases v with
  | seq items =>
    refine Itemwise.seq ?_
    rw [List.forall₂_map_right_iff, List.forall₂_same]
    exact fun item _ => h item
  | _ => exact Itemwise.other rfl

end Value

namespace Namespace

/-- A value that is put under a key takes the place of the first one there, and nothing else changes. -/
theorem put_of_lookup {key : String} {v w : Value} {entries : List (String × Value)} (h : entries.lookup key = some v) :
    ∃ before after, entries = before ++ (key, v) :: after ∧ key ∉ before.map Prod.fst ∧
      put key w entries = before ++ (key, w) :: after := by
  induction entries with
  | nil => nomatch h
  | cons e entries ih =>
    obtain ⟨k, u⟩ := e
    rw [lookup_cons] at h
    by_cases hk : key = k
    · rw [if_pos hk, Option.some.injEq] at h
      subst hk h
      exact ⟨[], entries, rfl, List.not_mem_nil, if_pos rfl⟩
    · rw [if_neg hk] at h
      obtain ⟨before, after, rfl, hbefore, hput⟩ := ih h
      refine ⟨(k, u) :: before, after, rfl, ?_, ?_⟩
      · rw [List.map_cons, List.mem_cons, not_or]
        exact ⟨hk, hbefore⟩
      · rw [put, if_neg (Ne.symm hk), hput, List.cons_append]

theorem getString_eq_some {ns : Namespace} {key s : String} :
    ns.getString? key = some s ↔ ∃ v, ns.getRaw? key = some v ∧ v.Reads s := by
  rw [getString?, get_bind rfl, Option.bind_eq_some_iff]
  exact exists_congr fun v => and_congr_right fun _ => Value.asString_eq_some

end Namespace

namespace Config

/-! ## What resolving may change -/

/-- The value is a mount whose server reads as the sign for the controller. -/
def StandsForController (v : Value) : Prop :=
  ∃ entries server, v = .map entries ∧ entries.lookup "server_ip" = some server ∧ server.Reads Property.controllerSign

/-- The second value is the first one with its server resolved: if that stands for the controller, its name is in the place of
the sign, and otherwise nothing has changed. -/
inductive MountResolved (controller : String) : Value → Value → Prop where
  | replaced {before after : List (String × Value)} {server : Value} :
      "server_ip" ∉ before.map Prod.fst → server.Reads Property.controllerSign →
      MountResolved controller (.map (before ++ ("server_ip", server) :: after))
        (.map (before ++ ("server_ip", .string controller) :: after))
  | kept {v : Value} : ¬StandsForController v → MountResolved controller v v

/-- The second value is the first one with its mounts resolved. -/
abbrev MountsResolved (controller : String) : Value → Value → Prop := Value.Itemwise (MountResolved controller)

/-- The second value is the first one with the mounts of the partition resolved: a namespace keeps its keys in order and the
values of all others. -/
inductive PartitionResolved (controller : String) : Value → Value → Prop where
  | entries {es es' : List (String × Value)} :
      List.Forall₂ (fun e e' => e'.1 = e.1 ∧ (e.1 = "network_storage" → MountsResolved controller e.2 e'.2) ∧
        (e.1 ≠ "network_storage" → e'.2 = e.2)) es es' →
      PartitionResolved controller (.map es) (.map es')
  | other {v : Value} : v.asMap? = none → PartitionResolved controller v v

/-- No mount of the list stands for the controller. -/
def NoneStands (v : Value) : Prop := ∀ items, v = .seq items → ∀ mount ∈ items, ¬StandsForController mount

/-! ## Resolving -/

theorem standsForController_map {entries : List (String × Value)} :
    StandsForController (.map entries) ↔
      (⟨entries⟩ : Namespace).getString? "server_ip" = some Property.controllerSign := by
  rw [Namespace.getString_eq_some]
  constructor
  · rintro ⟨_, server, ⟨⟩, hserver, hreads⟩
    exact ⟨server, hserver, hreads⟩
  · rintro ⟨server, hserver, hreads⟩
    exact ⟨entries, server, rfl, hserver, hreads⟩

theorem mountResolved_resolveMount (controller : String) (v : Value) :
    MountResolved controller v (Value.mapNamespace (resolveMount controller) v) := by
  cases v with
  | map entries =>
    rw [Value.mapNamespace, resolveMount]
    split
    · rename_i hsign
      obtain ⟨server, hserver, hreads⟩ := Namespace.getString_eq_some.mp hsign
      obtain ⟨before, after, rfl, hbefore, hput⟩ := Namespace.put_of_lookup (w := .string controller) hserver
      rw [Namespace.insert, hput]
      exact MountResolved.replaced hbefore hreads
    · rename_i hsign
      exact MountResolved.kept (mt standsForController_map.mp hsign)
  | _ =>
    apply MountResolved.kept
    rintro ⟨_, _, ⟨⟩, _⟩

theorem mountsResolved_resolveMounts (controller : String) (v : Value) :
    MountsResolved controller v (resolveMounts controller v) :=
  Value.itemwise_mapItems (mountResolved_resolveMount controller) v

theorem partitionResolved_resolvePartition (controller : String) (v : Value) :
    PartitionResolved controller v (resolvePartition controller v) := by
  cases v with
  | map entries =>
    refine PartitionResolved.entries (List.forall₂_map_right_iff.mpr (List.forall₂_same.mpr fun e _ => ?_))
    by_cases hk : e.1 = "network_storage"
    · rw [if_pos hk]
      exact ⟨rfl, fun _ => mountsResolved_resolveMounts controller e.2, fun hne => absurd hk hne⟩
    · rw [if_neg hk]
      exact ⟨rfl, fun heq => absurd heq hk, fun _ => rfl⟩
  | _ => exact PartitionResolved.other rfl

/-- The name of a controller is not the sign for it. -/
theorem controllerName_ne (cluster : String) : controllerName cluster ≠ Property.controllerSign := by
  intro h
  have hlength : cluster.length + 11 = 11 := by
    rw [controllerName] at h
    exact (String.length_append (s := cluster) (t := "-controller")).symm.trans (congrArg String.length h)
  have hempty : cluster = "" := String.length_eq_zero_iff.mp (Nat.add_eq_right.mp hlength)
  rw [hempty] at h
  exact absurd h (by decide)

/-- After the address of the controller is put in, a mount does not stand for it. -/
theorem not_standsForController_of_resolved {cluster : String} {v v' : Value}
    (h : MountResolved (controllerName cluster) v v') : ¬StandsForController v' := by
  cases h with
  | kept hkept => exact hkept
  | @replaced before after server hbefore hreads =>
    rintro ⟨_, found, ⟨⟩, hlookup, hsign⟩
    rw [List.lookup_append, Namespace.lookup_eq_none.mpr hbefore, Option.none_or, Namespace.lookup_cons, if_pos rfl,
      Option.some.injEq] at hlookup
    subst hlookup
    rcases hsign with hsign | hsign
    · exact controllerName_ne cluster (Value.string.inj hsign)
    · nomatch hsign

/-- After the address of the controller is put in, no mount of a list stands for it. -/
theorem noneStands_of_resolved {cluster : String} {v v' : Value} (h : MountsResolved (controllerName cluster) v v') :
    NoneStands v' := by
  rintro items rfl mount hmem
  obtain ⟨_, -, hitems⟩ := h.eq_seq
  obtain ⟨_, -, hmount⟩ := exists_left_of_forall₂ hitems hmem
  exact not_standsForController_of_resolved hmount

/-- After the address of the controller is put in, no list of mounts of a partition has one that stands for it. -/
theorem noneStands_of_partitionResolved {cluster : String} {v : Value} {es : List (String × Value)} {mounts : Value}
    (h : PartitionResolved (controllerName cluster) v (.map es)) (hmem : ("network_storage", mounts) ∈ es) :
    NoneStands mounts := by
  cases h with
  | entries hes =>
    obtain ⟨e, -, hkey, hmounts, -⟩ := exists_left_of_forall₂ hes hmem
    exact noneStands_of_resolved (hmounts hkey.symm)
  | other hno => nomatch hno

/-! ## The keys of a deployment -/

theorem keys_pick (p : Namespace) : (pick p).keys = Property.all := by
  have hkeys : ((Property.all.map fun key => (key, (p.get? key).getD .null)).map Prod.fst) = Property.all := by
    rw [List.map_map]
    exact List.map_id Property.all
  have hn : ((Property.all.map fun key => (key, (p.get? key).getD .null)).map Prod.fst).Nodup := by
    rw [hkeys]
    decide
  rw [pick, Namespace.keys, Namespace.entries_ofPairs hn, hkeys]

/-- Deriving instance types replaces those that are there. -/
theorem keys_deriveInstanceTypes {fields : Namespace} (cluster : String) (h : "instance_types" ∈ fields.keys) :
    (deriveInstanceTypes fields cluster).keys = fields.keys := by
  unfold deriveInstanceTypes
  split
  · exact Namespace.keys_put_of_mem h
  · rfl

/-- A deployment has all properties, in their order. -/
theorem keys_describe (p : Namespace) : (describe p).keys = Property.all := by
  have hresolved : ∀ controller, (resolveController (pick p) controller).keys = Property.all := by
    intro controller
    rw [resolveController_eq, Namespace.keys_mapEntries, keys_pick]
  rw [describe, keys_deriveInstanceTypes, hresolved]
  rw [hresolved]
  decide

/-! ## The description of a deployment -/

/-- The cluster that the properties describe has the name: their name for it reads so, or they have none that reads as a text
and the name is empty. -/
def NamesCluster (p : Namespace) (cluster : String) : Prop :=
  (∃ v, p.getRaw? "cluster_name" = some v ∧ v.Reads cluster) ∨
    cluster = "" ∧ ∀ v s, p.getRaw? "cluster_name" = some v → ¬v.Reads s

theorem namesCluster_clusterNameOf (p : Namespace) : NamesCluster p (clusterNameOf p) := by
  rw [clusterNameOf]
  cases h : p.getString? "cluster_name" with
  | some s => exact Or.inl (Namespace.getString_eq_some.mp h)
  | none =>
    refine Or.inr ⟨rfl, fun v s hv hreads => ?_⟩
    rw [Namespace.getString_eq_some.mpr ⟨v, hv, hreads⟩] at h
    cases h

/-- A property that no instance type is derived for is the given one, or null, with the address of the controller put in. -/
theorem getRaw_describe_of_ne {key : String} (p : Namespace) (hall : key ∈ Property.all) (hne : key ≠ "instance_types") :
    (describe p).getRaw? key =
      some (resolveProperty (controllerName (clusterNameOf p)) key ((p.get? key).getD .null)) := by
  rw [getRaw_describe p hall, if_neg fun h => hne h.1]

/-- A property that is neither instance types nor holds mounts is the given one, or null. -/
theorem getRaw_describe_of_not_mem {key : String} (p : Namespace) (hall : key ∈ Property.all)
    (hnone : key ∉ ["network_storage", "login_network_storage", "partitions", "instance_types"]) :
    (describe p).getRaw? key = some ((p.get? key).getD .null) := by
  simp only [List.mem_cons, List.not_mem_nil, or_false, not_or] at hnone
  obtain ⟨hmounts, hlogin, hpartitions, htypes⟩ := hnone
  rw [getRaw_describe_of_ne p hall htypes, resolveProperty, if_neg (not_or.mpr ⟨hmounts, hlogin⟩), if_neg hpartitions]

/-- The lists of mounts are the given ones, resolved. -/
theorem describe_mounts {key : String} (p : Namespace) (hkey : key = "network_storage" ∨ key = "login_network_storage") :
    ∃ mounts, (describe p).getRaw? key = some mounts ∧
      MountsResolved (controllerName (clusterNameOf p)) ((p.get? key).getD .null) mounts := by
  have hall : key ∈ Property.all := by rcases hkey with rfl | rfl <;> decide
  have hne : key ≠ "instance_types" := by rcases hkey with rfl | rfl <;> decide
  refine ⟨_, getRaw_describe_of_ne p hall hne, ?_⟩
  rw [resolveProperty, if_pos hkey]
  exact mountsResolved_resolveMounts _ _

/-- The partitions are the given ones, resolved. -/
theorem describe_partitions (p : Namespace) :
    ∃ partitions, (describe p).getRaw? "partitions" = some partitions ∧
      Value.Itemwise (PartitionResolved (controllerName (clusterNameOf p))) ((p.get? "partitions").getD .null)
        partitions := by
  refine ⟨_, getRaw_describe_of_ne p (by decide) (by decide), ?_⟩
  rw [resolveProperty, if_neg (by decide), if_pos rfl]
  exact Value.itemwise_mapItems (partitionResolved_resolvePartition _) _

/-- The description of a deployment is its properties with every address of the controller resolved, and nothing else touched
besides the instance types. It has all properties in order, each as it is given or null; in the lists of mounts, those of
partitions included, exactly the servers that stand for the controller are replaced by its name, and none stands for it
afterwards. -/
theorem describe_resolves (p : Namespace) (host : Host) :
    ∃ cluster, NamesCluster p cluster ∧ (ofProperties p host).fields.keys = Property.all ∧
      (∀ key ∈ Property.all, key ∉ ["network_storage", "login_network_storage", "partitions", "instance_types"] →
        (ofProperties p host).fields.getRaw? key = some ((p.get? key).getD .null)) ∧
      (∀ key, key = "network_storage" ∨ key = "login_network_storage" → ∃ mounts,
        (ofProperties p host).fields.getRaw? key = some mounts ∧
          MountsResolved (cluster ++ "-controller") ((p.get? key).getD .null) mounts ∧ NoneStands mounts) ∧
      ∃ partitions, (ofProperties p host).fields.getRaw? "partitions" = some partitions ∧
        Value.Itemwise (PartitionResolved (cluster ++ "-controller")) ((p.get? "partitions").getD .null) partitions ∧
          ∀ items, partitions = .seq items → ∀ es, .map es ∈ items → ∀ mounts, ("network_storage", mounts) ∈ es →
            NoneStands mounts := by
  simp only [ofProperties, wrap]
  refine ⟨clusterNameOf p, namesCluster_clusterNameOf p, keys_describe p, ?others, ?mounts, ?partitions⟩
  case others => exact fun key hall hnone => getRaw_describe_of_not_mem p hall hnone
  case mounts =>
    intro key hkey
    obtain ⟨mounts, hmounts, hresolved⟩ := describe_mounts p hkey
    exact ⟨mounts, hmounts, hresolved, noneStands_of_resolved hresolved⟩
  case partitions =>
    obtain ⟨partitions, hpartitions, hresolved⟩ := describe_partitions p
    refine ⟨partitions, hpartitions, hresolved, ?_⟩
    rintro items rfl es hes mounts hmounts
    obtain ⟨_, -, hitems⟩ := hresolved.eq_seq
    obtain ⟨_, -, hpartition⟩ := exists_left_of_forall₂ hitems hes
    exact noneStands_of_partitionResolved hpartition hmounts

end Config

end ClusterConfig
