import ClusterConfig.Config.Operation
import ClusterConfig.Proofs.Value.Tree
import Mathlib.Data.List.Forall2

/-!
# What is saved

The saved view of a configuration holds the saved properties that are there, in the order of the list of them, each as
`savedValue` leaves it. So it depends on nothing else in the configuration, and the saved view of a saved view is the same again.
`TypeStripped` and `TypesStripped` say what an instance type and all of them may look like before and after.
-/

namespace ClusterConfig

namespace Config

/-! ## Fields of run time -/

/-- An instance type is left with all entries under other keys than those of run time. -/
theorem strip_eq_filter (ns : Namespace) :
    strip ns = ⟨ns.entries.filter fun e => decide (e.1 ∉ Property.stripped)⟩ := by
  have hfold : ∀ keys : List String, keys.foldl Namespace.erase ns = ⟨ns.entries.filter fun e => decide (e.1 ∉ keys)⟩ := by
    intro keys
    induction keys generalizing ns with
    | nil => simp
    | cons key keys ih =>
      rw [List.foldl_cons, ih, Namespace.erase, Namespace.drop, List.filter_filter]
      congr 2
      funext e
      by_cases hk : e.1 = key <;> simp [hk]
  exact hfold Property.stripped

theorem getRaw_strip (ns : Namespace) (key : String) :
    (strip ns).getRaw? key = if key ∈ Property.stripped then none else ns.getRaw? key := by
  have hfold : ∀ (keys : List String) (ns : Namespace),
      (keys.foldl Namespace.erase ns).getRaw? key = if key ∈ keys then none else ns.getRaw? key := by
    intro keys
    induction keys with
    | nil => simp
    | cons k keys ih =>
      intro ns
      rw [List.foldl_cons, ih, Namespace.getRaw_erase]
      by_cases hk : key = k <;> simp [hk]
  exact hfold Property.stripped ns

/-- Nothing is left to strip after stripping. -/
theorem strip_strip (ns : Namespace) : strip (strip ns) = strip ns := by
  simp [strip_eq_filter, List.filter_filter]

/-- Stripping leaves values as they are, so it goes with any change of them. -/
theorem strip_mapEntries (ns : Namespace) (f : String → Value → Value) :
    strip (ns.mapEntries f) = (strip ns).mapEntries f := by
  simp only [strip_eq_filter, Namespace.mapEntries, List.filter_map]
  rfl

/-! ## The saved view -/

/-- What is saved of the value of a property: all of it, except for the fields of run time of instance types. -/
def savedValue (key : String) (v : Value) : Value :=
  if key = "instance_types" then Value.mapNamespace (fun types => types.mapValues (Value.mapNamespace strip)) v else v

/-- What is saved of a saved value is all of it. -/
theorem savedValue_savedValue (key : String) (v : Value) : savedValue key (savedValue key v) = savedValue key v := by
  unfold savedValue
  split
  · exact Value.mapNamespace_mapNamespace
      (fun types => Namespace.mapValues_mapValues (Value.mapNamespace_mapNamespace strip_strip) types) v
  · rfl

/-- The saved view: each saved property that is there, in order. -/
theorem savedView_eq (c : Config) :
    c.savedView = ⟨Property.saved.filterMap fun key => ((c.fields.getRaw? key).map (savedValue key)).map fun v => (key, v)⟩ := by
  have hn : ((Property.saved.filterMap fun key => (c.fields.getRaw? key).map fun v => (key, v)).map Prod.fst).Nodup :=
    Namespace.nodup_filterMap c.fields.getRaw? (by decide)
  rw [savedView, Namespace.modify_eq_mapEntries, Namespace.mapEntries, Namespace.entries_ofPairs hn, List.map_filterMap]
  congr 2
  funext key
  cases c.fields.getRaw? key with
  | none => rfl
  | some v =>
    rw [Option.map_some, Option.map_some, Option.map_some, Option.map_some, savedValue]

theorem getRaw_savedView (c : Config) (key : String) :
    c.savedView.getRaw? key = if key ∈ Property.saved then (c.fields.getRaw? key).map (savedValue key) else none := by
  rw [savedView_eq]
  exact Namespace.lookup_filterMap (fun key => (c.fields.getRaw? key).map (savedValue key)) Property.saved key

/-- The saved view holds every entry under a saved key. -/
theorem getRaw_of_mem_savedView {c : Config} {e : String × Value} (h : e ∈ c.savedView.entries) :
    e.1 ∈ Property.saved ∧ c.savedView.getRaw? e.1 = some e.2 := by
  have hn : (c.savedView.entries.map Prod.fst).Nodup := by
    rw [savedView_eq]
    exact Namespace.nodup_filterMap (fun key => (c.fields.getRaw? key).map (savedValue key)) (by decide)
  have hget : c.savedView.getRaw? e.1 = some e.2 := Namespace.lookup_of_mem hn h
  refine ⟨?_, hget⟩
  by_contra hsaved
  rw [getRaw_savedView, if_neg hsaved] at hget
  cases hget

/-- The saved view has no merge key of its own. -/
theorem getRaw_savedView_mergeKey (c : Config) : c.savedView.getRaw? "<<" = none := by
  rw [getRaw_savedView]
  exact if_neg (by decide)

/-- The saved views of configurations are the same where they hold the same under each saved key. -/
theorem savedView_congr {c d : Config} (h : ∀ key ∈ Property.saved, c.savedView.getRaw? key = d.savedView.getRaw? key) :
    c.savedView = d.savedView := by
  rw [savedView_eq, savedView_eq]
  refine congrArg Namespace.mk (List.filterMap_congr fun key hkey => ?_)
  have hvalue := h key hkey
  rw [getRaw_savedView, getRaw_savedView, if_pos hkey, if_pos hkey] at hvalue
  rw [hvalue]

/-- A value under a key that is not saved does not change what is saved. -/
theorem savedView_set {c : Config} {key : String} (h : key ∉ Property.saved) (v : Value) :
    (c.set key v).savedView = c.savedView := by
  refine savedView_congr fun k hk => ?_
  have hne : k ≠ key := fun heq => h (heq ▸ hk)
  rw [getRaw_savedView, getRaw_savedView, set, mapFields, Namespace.getRaw_insert, if_neg hne]

/-- The configuration after values were put under keys, one after the other. -/
def setAll (c : Config) (puts : List (String × Value)) : Config := puts.foldl (fun c e => c.set e.1 e.2) c

/-- Values under keys that are not saved do not change what is saved, however many are put. -/
theorem savedView_setAll {c : Config} {puts : List (String × Value)} (h : ∀ e ∈ puts, e.1 ∉ Property.saved) :
    (c.setAll puts).savedView = c.savedView := by
  induction puts generalizing c with
  | nil => rfl
  | cons e puts ih =>
    obtain ⟨he, hputs⟩ := List.forall_mem_cons.mp h
    calc ((c.set e.1 e.2).setAll puts).savedView = (c.set e.1 e.2).savedView := ih hputs
      _ = c.savedView := savedView_set he e.2

/-- Saving is up to the saved view. -/
theorem save_congr {c d : Config} (h : c.savedView = d.savedView) (fs : FileSystem) (file : Path) :
    c.save fs file = d.save fs file := by
  rw [save, save, h]

/-! ## The saved view as a projection -/

/-- The second value is what is saved of the first one, an instance type: a namespace loses the entries that are only known at run
time and keeps all others as they are, and any other value is the same. -/
inductive TypeStripped : Value → Value → Prop where
  | entries (es : List (String × Value)) :
      TypeStripped (.map es) (.map (es.filter fun e => e.1 ∉ ["max_node_count", "name", "static_node_count"]))
  | other {v : Value} : v.asMap? = none → TypeStripped v v

/-- The second value is what is saved of the first one, all instance types: those of a namespace stay under their keys, in order,
and any other value is the same. -/
inductive TypesStripped : Value → Value → Prop where
  | entries {es es' : List (String × Value)} :
      List.Forall₂ (fun e e' => e'.1 = e.1 ∧ TypeStripped e.2 e'.2) es es' → TypesStripped (.map es) (.map es')
  | other {v : Value} : v.asMap? = none → TypesStripped v v

theorem typeStripped_strip (v : Value) : TypeStripped v (Value.mapNamespace strip v) := by
  cases v with
  | map es =>
    rw [Value.mapNamespace, strip_eq_filter]
    exact TypeStripped.entries es
  | _ => exact TypeStripped.other rfl

theorem typesStripped_savedValue (v : Value) : TypesStripped v (savedValue "instance_types" v) := by
  rw [savedValue, if_pos rfl]
  cases v with
  | map es =>
    refine TypesStripped.entries (List.forall₂_map_right_iff.mpr (List.forall₂_same.mpr fun e _ => ?_))
    exact ⟨rfl, typeStripped_strip e.2⟩
  | _ => exact TypesStripped.other rfl

theorem keys_savedView (c : Config) : c.savedView.keys = Property.saved.filter fun key => key ∈ c.fields.keys := by
  rw [savedView_eq, Namespace.keys, List.map_filterMap, ← List.filterMap_eq_filter]
  refine List.filterMap_congr fun key _ => ?_
  cases hv : c.fields.getRaw? key with
  | none =>
    have hkey : key ∉ c.fields.keys := Namespace.lookup_eq_none.mp hv
    simp [Option.guard, hkey]
  | some v =>
    have hkey : key ∈ c.fields.keys := List.mem_map_of_mem (Namespace.mem_of_lookup hv)
    simp [Option.guard, hkey]

/-- The saved view of a configuration that holds a saved view is that view. -/
theorem savedView_savedView (c : Config) (host : Host) : (wrap c.savedView host).savedView = c.savedView := by
  refine savedView_congr fun key hkey => ?_
  rw [getRaw_savedView, if_pos hkey, wrap, getRaw_savedView, if_pos hkey, Option.map_map]
  exact congrArg (Option.map · (c.fields.getRaw? key)) (funext (savedValue_savedValue key))

/-- The saved view holds the saved properties that the configuration has, nulls included, in the order of the list of them. All
but instance types are as they are; the namespaces among those lose their own fields of run time. The saved view of a saved view
is the same again, and asking for it leaves all configurations and files as they are. -/
theorem savedView_projects (c : Config) (host : Host) :
    (c.savedView.keys = Property.saved.filter fun key => key ∈ c.fields.keys) ∧
      (∀ key ∈ Property.saved, key ≠ "instance_types" → c.savedView.getRaw? key = c.fields.getRaw? key) ∧
      (∀ types, c.fields.getRaw? "instance_types" = some types →
        ∃ types', c.savedView.getRaw? "instance_types" = some types' ∧ TypesStripped types types') ∧
      (wrap c.savedView host).savedView = c.savedView ∧
      ∀ (s : Configs) (now : Host → Host) (on : Nat), s.list[on]? = some c →
        s.step ⟨now, .use on .savedView⟩ = (s, ⟨⟨now, .use on .savedView⟩, .fields c.savedView, []⟩) := by
  refine ⟨keys_savedView c, fun key hkey hne => ?_, fun types htypes => ?_, savedView_savedView c host,
    fun s now on hc => ?_⟩
  · have hvalue : savedValue key = id := funext fun v => if_neg hne
    rw [getRaw_savedView, if_pos hkey, hvalue, Option.map_id, id_eq]
  · refine ⟨savedValue "instance_types" types, ?_, typesStripped_savedValue types⟩
    rw [getRaw_savedView, if_pos (by decide), htypes, Option.map_some]
  · simp only [Configs.step, hc, Configs.use, List.map_nil]

end Config

end ClusterConfig
