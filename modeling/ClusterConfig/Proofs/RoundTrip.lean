import ClusterConfig.FileSystem.Standard
import ClusterConfig.Proofs.LoadSave
import ClusterConfig.Proofs.SavedView
import ClusterConfig.Proofs.Value.Equality

/-!
# Loading what was saved

A saved file is loaded as the saved view with paths replaced by their text, as long as no namespace in it has the merge key.
Such a configuration answers alike and is saved as the same text again. With a merge key anywhere, what is loaded is smaller than
what was saved, so that it is not the same.
-/

namespace ClusterConfig

namespace Config

open Yaml

/-! ## What is saved of values with paths replaced -/

/-- What is saved does not depend on when paths are replaced. -/
theorem savedValue_written (key : String) (v : Value) : savedValue key v.written = (savedValue key v).written := by
  have hstrip : ∀ v, Value.mapNamespace strip (Value.written v) = (Value.mapNamespace strip v).written :=
    Value.mapNamespace_written fun ns => strip_mapEntries ns fun _ => Value.written
  unfold savedValue
  split
  · refine Value.mapNamespace_written (fun types => ?_) v
    simp only [Namespace.mapValues, List.map_map, Function.comp_def, hstrip]
  · rfl

/-- A configuration that holds a saved view with paths replaced has the same saved view with paths replaced. -/
theorem savedView_written {c d : Config} (h : d.fields = c.savedView.mapValues Value.written) :
    d.savedView = c.savedView.mapValues Value.written := by
  have hsaved : ∀ key ∈ Property.saved, (d.fields.getRaw? key).map (savedValue key) =
      ((c.fields.getRaw? key).map (savedValue key)).map Value.written := by
    intro key hkey
    rw [h, Namespace.getRaw_mapValues, getRaw_savedView, if_pos hkey]
    simp only [Option.map_map, Function.comp_def, savedValue_written, savedValue_savedValue]
  rw [savedView_eq d, savedView_eq c, Namespace.mapValues, List.map_filterMap]
  refine congrArg Namespace.mk (List.filterMap_congr fun key hkey => ?_)
  rw [hsaved key hkey]
  simp only [Option.map_map, Function.comp_def]

/-! ## The same answers -/

/-- Two configurations answer alike about everything that is saved; sequences and namespaces are compared as values are. -/
structure AnswersAlike (c d : Config) : Prop where
  project : c.project = d.project
  zone : c.zone = d.zone
  region : c.region = d.region
  clusterName : c.clusterName = d.clusterName
  externalComputeIps : c.externalComputeIps = d.externalComputeIps
  sharedVpcHostProject : c.sharedVpcHostProject = d.sharedVpcHostProject
  computeNodePrefix : c.computeNodePrefix = d.computeNodePrefix
  computeNodeServiceAccount : c.computeNodeServiceAccount = d.computeNodeServiceAccount
  computeNodeScopes : (c.computeNodeScopes == d.computeNodeScopes) = true
  slurmCmdPath : c.slurmCmdPath = d.slurmCmdPath
  logDir : c.logDir = d.logDir
  googleAppCredPath : c.googleAppCredPath = d.googleAppCredPath
  updateNodeAddrs : c.updateNodeAddrs = d.updateNodeAddrs
  networkStorage : (c.networkStorage == d.networkStorage) = true
  loginNetworkStorage : (c.loginNetworkStorage == d.loginNetworkStorage) = true
  instanceTypes : (c.instanceTypes == d.instanceTypes) = true

section

variable {c d : Config} (h : c.fields = d.fields.mapValues Value.written)

include h

/-- What is read alike from a value and from what it is written as is the same answer. -/
theorem get_bind_written {α : Type} {f : Value → Option α} (hnull : f .null = none) (hf : ∀ v, f v.written = f v)
    (key : String) : (c.fields.get? key).bind f = (d.fields.get? key).bind f := by
  rw [Namespace.get_bind hnull, Namespace.get_bind hnull, h, Namespace.getRaw_mapValues]
  cases d.fields.getRaw? key with
  | none => rfl
  | some v => exact hf v

theorem seqProperty_written (hd : (Value.ofNamespace d.fields).Distinct) (key : String) :
    (c.seqProperty key == d.seqProperty key) = true := by
  rw [seqProperty, seqProperty, Namespace.get_bind rfl, Namespace.get_bind rfl, h, Namespace.getRaw_mapValues]
  cases hv : d.fields.getRaw? key with
  | none => rfl
  | some v =>
    rw [Option.map_some, Option.bind_some, Option.bind_some, Value.asSeq_written]
    cases v with
    | seq items =>
      refine Value.beq_of_forall₂ (List.forall₂_map_left_iff.mpr (List.forall₂_same.mpr fun x hx => ?_))
      exact Value.same_written fun es hw => hd es (.value (Namespace.mem_of_lookup hv) (.item hx hw))
    | _ => rfl

theorem mapProperty_written (hd : (Value.ofNamespace d.fields).Distinct) (key : String) :
    (c.mapProperty key == d.mapProperty key) = true := by
  rw [mapProperty, mapProperty, Namespace.get_bind rfl, Namespace.get_bind rfl, h, Namespace.getRaw_mapValues]
  cases hv : d.fields.getRaw? key with
  | none => rfl
  | some v =>
    rw [Option.map_some, Option.bind_some, Option.bind_some, Value.asMap_written]
    cases v with
    | map es =>
      have hsame := Value.same_written (v := .ofNamespace ⟨es⟩) fun fs hw => hd fs (.value (Namespace.mem_of_lookup hv) hw)
      rw [Value.written_ofNamespace] at hsame
      exact hsame
    | _ => rfl

/-- Replacing paths by their text changes no answer. -/
theorem answersAlike_written (hd : (Value.ofNamespace d.fields).Distinct) : AnswersAlike c d := by
  have htext := get_bind_written h rfl Value.asString_written
  have hpath := get_bind_written h rfl Value.asPath_written
  have hbool := get_bind_written h rfl Value.asBool_written
  have hseq := seqProperty_written h hd
  exact {
    project := htext _
    zone := htext _
    region := congrArg (Option.map beforeLastDash) (htext "zone")
    clusterName := htext _
    externalComputeIps := hbool _
    sharedVpcHostProject := htext _
    computeNodePrefix := htext _
    computeNodeServiceAccount := htext _
    computeNodeScopes := hseq _
    slurmCmdPath := hpath _
    logDir := hpath _
    googleAppCredPath := hpath _
    updateNodeAddrs := hbool _
    networkStorage := hseq _
    loginNetworkStorage := hseq _
    instanceTypes := mapProperty_written h hd _ }

end

/-! ## There and back -/

/-- What is read from the text of a saved view is the saved view with paths replaced, unless it has a merge key. -/
theorem load_of_save_of_mergeFree {c : Config} {fs fs' : FileSystem} {file : Path} {node : Node}
    (hsave : c.save fs file = .ok fs') (hnode : c.savedView.toNode = .ok node)
    (hread : Yaml.read (Yaml.write node) = .ok node) (hf : fs'.isFile file = true)
    (hfree : ¬(Value.ofNamespace c.savedView).HasKey "<<") (host : Host) :
    load fs' file host = .ok (wrap (c.savedView.mapValues Value.written) host) := by
  have hvalue : (Value.ofNamespace c.savedView).toNode = .ok node := hnode
  obtain ⟨entries, -, rfl⟩ := Value.toNode_map_eq_ok.mp hvalue
  have hexpand : Node.expandMerges (.map entries) = .ok (.map entries) := by
    refine Node.expandMerges_of_mergeFree fun es hw e he hk => hfree ?_
    exact (Value.hasMergeEntry_toNode hvalue).mp ⟨es, hw, e, he, hk⟩
  have hback : Value.ofNode (.map entries) = (Value.ofNamespace c.savedView).written :=
    Value.ofNode_toNode hvalue (distinct_of_read hread)
  rw [Value.written_ofNamespace, Value.ofNode_map] at hback
  have hfields : Namespace.ofMapping entries = c.savedView.mapValues Value.written :=
    congrArg Namespace.mk (Value.map.inj hback)
  exact (load_of_save hsave hnode hread hf).mpr ⟨entries, hexpand, by rw [hfields]⟩

/-- With a merge key anywhere, what is loaded is smaller than what was saved. -/
theorem not_same_of_hasKey {c loaded : Config} {fs fs' : FileSystem} {file : Path} {host : Host} {node : Node}
    (hsave : c.save fs file = .ok fs') (hnode : c.savedView.toNode = .ok node)
    (hread : Yaml.read (Yaml.write node) = .ok node) (hkey : (Value.ofNamespace c.savedView).HasKey "<<")
    (hload : load fs' file host = .ok loaded) : loaded.fields.same c.savedView = false := by
  have hvalue : (Value.ofNamespace c.savedView).toNode = .ok node := hnode
  obtain ⟨entries, hexpand, rfl⟩ := (load_of_save hsave hnode hread (isFile_of_load hload)).mp hload
  rw [← Bool.not_eq_true]
  intro hsame
  have hsize : (Value.ofNamespace (Namespace.ofMapping entries)).size = (Value.ofNamespace c.savedView).size :=
    Value.size_eq_of_same hsame (Value.distinct_ofNode (.map entries))
      (Value.distinct_of_toNode hvalue (distinct_of_read hread))
  have hle := Value.size_ofNode_le (.map entries)
  have hlt := (Node.size_expandMerges hexpand).2 ((Value.hasMergeEntry_toNode hvalue).mpr hkey)
  have hnode := Value.size_toNode hvalue
  rw [Value.ofNode_map] at hle
  omega

/-- Saving and loading undo each other exactly for saved views without merge keys. Where the save leaves a file at its path, such
a view is loaded with paths replaced by their text, answers alike and is saved as the same text again; a view with a merge key
is never loaded as one that is the same. -/
theorem load_save {c : Config} {fs fs' : FileSystem} {file : Path} (hsave : c.save fs file = .ok fs')
    (hread : ∀ node, c.savedView.toNode = .ok node → Yaml.read (Yaml.write node) = .ok node) (host : Host) :
    (¬(Value.ofNamespace c.savedView).HasKey "<<" → fs'.isFile file = true →
      ∃ loaded, load fs' file host = .ok loaded ∧ loaded.fields = c.savedView.mapValues Value.written ∧
        loaded.fields.same c.savedView = true ∧ AnswersAlike loaded (wrap c.savedView host) ∧
        textOf loaded.savedView = textOf c.savedView ∧ ∀ fs₂ file₂, loaded.save fs₂ file₂ = c.save fs₂ file₂) ∧
      ((Value.ofNamespace c.savedView).HasKey "<<" →
        ∀ loaded, load fs' file host = .ok loaded → loaded.fields.same c.savedView = false) := by
  obtain ⟨node, hnode, -⟩ := save_eq_ok.mp hsave
  have hread := hread node hnode
  refine ⟨fun hfree hf => ?_, fun hkey loaded hload => not_same_of_hasKey hsave hnode hread hkey hload⟩
  have hvalue : (Value.ofNamespace c.savedView).toNode = .ok node := hnode
  have hd : (Value.ofNamespace c.savedView).Distinct := Value.distinct_of_toNode hvalue (distinct_of_read hread)
  have hsame : (Value.ofNamespace (c.savedView.mapValues Value.written)).same (.ofNamespace c.savedView) = true := by
    rw [← Value.written_ofNamespace]
    exact Value.same_written hd
  have htext : textOf (wrap (c.savedView.mapValues Value.written) host).savedView = textOf c.savedView := by
    have hwritten : (c.savedView.mapValues Value.written).toNode = .ok node := by
      have htoNode := Value.toNode_written hvalue
      rw [Value.written_ofNamespace] at htoNode
      exact htoNode
    rw [savedView_written (c := c) rfl, textOf, textOf, hwritten, hnode]
  refine ⟨wrap (c.savedView.mapValues Value.written) host, load_of_save_of_mergeFree hsave hnode hread hf hfree host, rfl,
    hsame, answersAlike_written rfl hd, htext, fun fs₂ file₂ => ?_⟩
  rw [save, save, htext]

/-- A path and a zone, saved in a file that was empty. -/
theorem load_save_path :
    let c := wrap ⟨[("log_dir", .path (.ofString "/v")), ("zone", .string "z")]⟩ (.fixed 0 none "h")
    c.save (.holding "") ⟨[99]⟩ = .ok (.holding "zone: z\nlog_dir: /v\n") ∧
      ∃ loaded, load (.holding "zone: z\nlog_dir: /v\n") ⟨[99]⟩ (.fixed 0 none "h") = .ok loaded ∧
        loaded.fields.same c.savedView = true ∧ AnswersAlike loaded (wrap c.savedView (.fixed 0 none "h")) := by
  intro c
  have hnode : c.savedView.toNode = .ok (.map [(.string "zone", .string "z"), (.string "log_dir", .string "/v")]) := by rfl
  have hwrite : Yaml.write (.map [(.string "zone", .string "z"), (.string "log_dir", .string "/v")]) =
      "zone: z\nlog_dir: /v\n" := by rfl
  have hread : Yaml.read "zone: z\nlog_dir: /v\n" =
      .ok (.map [(.string "zone", .string "z"), (.string "log_dir", .string "/v")]) := by rfl
  have hsave : c.save (.holding "") ⟨[99]⟩ = .ok (.holding "zone: z\nlog_dir: /v\n") :=
    save_eq_ok.mpr ⟨_, hnode, by rw [hwrite]; rfl⟩
  have hback := readsBack_of_toNode hnode (by rw [hwrite, hread])
  have hfree : ¬(Value.ofNamespace c.savedView).HasKey "<<" := by
    have hview : c.savedView = ⟨[("zone", .string "z"), ("log_dir", .path (.ofString "/v"))]⟩ := by rfl
    simp [hview, Value.HasKey, Value.ofNamespace]
  obtain ⟨loaded, hload, -, hsame, halike, -⟩ := (load_save hsave hback (.fixed 0 none "h")).1 hfree rfl
  exact ⟨hsave, loaded, hload, hsame, halike⟩

/-- A device takes what is saved and has nothing to load: not every saved view without merge keys is loaded again. -/
theorem load_save_sink :
    ¬∀ (c : Config) (fs fs' : FileSystem) (file : Path) (host : Host), c.save fs file = .ok fs' →
      (∀ node, c.savedView.toNode = .ok node → Yaml.read (Yaml.write node) = .ok node) →
      ¬(Value.ofNamespace c.savedView).HasKey "<<" → ∃ loaded, load fs' file host = .ok loaded := by
  intro hall
  have hnode : (wrap .empty (.fixed 0 none "h")).savedView.toNode = .ok (.map []) := by rfl
  have hsave : (wrap .empty (.fixed 0 none "h")).save .machine (.ofString "/dev/null") = .ok .machine :=
    save_eq_ok.mpr ⟨_, hnode, by rfl⟩
  have hback := readsBack_of_toNode hnode (by rfl)
  have hfree : ¬(Value.ofNamespace (wrap .empty (.fixed 0 none "h")).savedView).HasKey "<<" := by
    have hview : (wrap .empty (.fixed 0 none "h")).savedView = ⟨[]⟩ := by rfl
    rw [hview]
    simp [Value.HasKey, Value.ofNamespace]
  obtain ⟨loaded, hload⟩ := hall _ _ _ _ (.fixed 0 none "h") hsave hback hfree
  have hfile : FileSystem.machine.isFile (.ofString "/dev/null") = false := by rfl
  rw [isFile_of_load hload] at hfile
  cases hfile

end Config

end ClusterConfig
