import ClusterConfig.Proofs.Value.Conversion

/-!
# Values as they are written

The tree that a value is written as becomes the value again, except that a path comes back as the string it is written as:
`written` is the value that comes back. It reads like the one that was written.
-/

namespace ClusterConfig

namespace Value

open Yaml

/-! ## There and back -/

mutual

/-- The value with every path that has a text replaced by that text. -/
def written : Value → Value
  | path p =>
    match p.text? with
    | some s => string s
    | none => path p
  | seq items => seq (writtenItems items)
  | map es => map (writtenEntries es)
  | v => v

/-- The elements of a sequence with paths replaced. -/
def writtenItems : List Value → List Value
  | [] => []
  | v :: rest => written v :: writtenItems rest

/-- The entries of a namespace with paths replaced in their values. -/
def writtenEntries : List (String × Value) → List (String × Value)
  | [] => []
  | (k, v) :: rest => (k, written v) :: writtenEntries rest

end

theorem writtenItems_eq_map (vs : List Value) : writtenItems vs = vs.map written := by
  induction vs with
  | nil => rfl
  | cons v vs ih => exact congrArg (written v :: ·) ih

theorem writtenEntries_eq_map (es : List (String × Value)) : writtenEntries es = es.map fun e => (e.1, written e.2) := by
  induction es with
  | nil => rfl
  | cons e es ih => exact congrArg ((e.1, written e.2) :: ·) ih

theorem written_seq (items : List Value) : (seq items).written = seq (items.map written) :=
  congrArg seq (writtenItems_eq_map items)

theorem written_map (es : List (String × Value)) : (map es).written = map (es.map fun e => (e.1, written e.2)) :=
  congrArg map (writtenEntries_eq_map es)

/-- A namespace with paths replaced keeps its keys, and the values under them are replaced. -/
theorem written_ofNamespace (ns : Namespace) : (ofNamespace ns).written = ofNamespace (ns.mapValues written) :=
  written_map ns.entries

theorem written_path_of_some {p : Path} {s : String} (h : p.text? = some s) : (path p).written = .string s := by
  rw [written, h]

theorem written_path_of_none {p : Path} (h : p.text? = none) : (path p).written = path p := by
  rw [written, h]

theorem written_path (s : String) : (path (Path.ofString s)).written = .string s :=
  written_path_of_some (Path.text_eq_some.mpr rfl)

/-- The tree of a value becomes the value again, with paths replaced. -/
theorem ofNode_toNode {v : Value} {n : Node} (h : v.toNode = .ok n) (hd : n.Distinct) : ofNode n = v.written := by
  induction v using induct generalizing n with
  | null | bool b | number m | string s =>
    cases h
    rfl
  | path p =>
    obtain ⟨s, rfl, rfl⟩ := toNode_path_eq_ok.mp h
    exact (written_path s).symm
  | seq items ih =>
    obtain ⟨ns, hns, rfl⟩ := toNode_seq_eq_ok.mp h
    have hitems : items.map written = ns.map ofNode :=
      map_eq_of_forall₂ (forall₂_imp_of_mem hns fun v hv n hn hvn =>
        (ih v hv hvn fun es hw => hd es (.item hn hw)).symm)
    rw [ofNode_seq, written_seq, hitems]
  | map es ih =>
    obtain ⟨fs, hfs, rfl⟩ := toNode_map_eq_ok.mp h
    have hentries : ofEntries fs = es.map fun e => (e.1, written e.2) := by
      rw [ofEntries_of_written hfs]
      refine (map_eq_of_forall₂ (forall₂_imp_of_mem hfs fun e he f hf hw => ?_)).symm
      rw [ih e he hw.2 fun gs hg => hd gs (.value hf hg), hw.1]
      rfl
    have hn : ((ofEntries fs).map Prod.fst).Nodup := by
      rw [hentries, List.map_map]
      exact nodup_of_written hfs (hd fs (.self fs))
    rw [ofNode_map, Namespace.ofMapping, ofNamespace, Namespace.entries_ofPairs hn, hentries]
    exact (written_map es).symm

/-- With paths replaced a value is written as the same tree. -/
theorem toNode_written {v : Value} {n : Node} (h : v.toNode = .ok n) : v.written.toNode = .ok n := by
  induction v using induct generalizing n with
  | null | bool b | number m | string s => exact h
  | path p =>
    obtain ⟨s, rfl, rfl⟩ := toNode_path_eq_ok.mp h
    rw [written_path]
    rfl
  | seq items ih =>
    obtain ⟨ns, hns, rfl⟩ := toNode_seq_eq_ok.mp h
    rw [written_seq, toNode_seq_eq_ok]
    exact ⟨ns, List.forall₂_map_left_iff.mpr (forall₂_imp_of_mem hns fun v hv _ _ hn => ih v hv hn), rfl⟩
  | map es ih =>
    obtain ⟨fs, hfs, rfl⟩ := toNode_map_eq_ok.mp h
    rw [written_map, toNode_map_eq_ok]
    refine ⟨fs, List.forall₂_map_left_iff.mpr ?_, rfl⟩
    exact forall₂_imp_of_mem hfs fun e he _ _ hf => ⟨hf.1, ih e he hf.2⟩

/-! ## Paths without text -/

mutual

/-- All paths in the value, in document order. -/
def paths : Value → List Path
  | path p => [p]
  | seq items => pathsOfItems items
  | map es => pathsOfEntries es
  | _ => []

/-- The paths in the elements of a sequence. -/
def pathsOfItems : List Value → List Path
  | [] => []
  | v :: rest => paths v ++ pathsOfItems rest

/-- The paths in the values of entries. -/
def pathsOfEntries : List (String × Value) → List Path
  | [] => []
  | (_, v) :: rest => paths v ++ pathsOfEntries rest

end

/-- The first path in the value that has no text. -/
def unwritable? (v : Value) : Option Path := v.paths.find? fun p => p.text?.isNone

theorem mem_of_unwritable {v : Value} {p : Path} (h : v.unwritable? = some p) : p ∈ v.paths ∧ p.text? = none := by
  rw [unwritable?] at h
  have hnone := List.find?_some h
  exact ⟨List.mem_of_find?_eq_some h, Option.isNone_iff_eq_none.mp hnone⟩

theorem unwritable_eq_none {v : Value} : v.unwritable? = none ↔ ∀ p ∈ v.paths, p.text? ≠ none := by
  simp [unwritable?, List.find?_eq_none]

theorem paths_seq (items : List Value) : (seq items).paths = items.flatMap paths := by
  rw [paths]
  induction items with
  | nil => rfl
  | cons v items ih => rw [pathsOfItems, ih, List.flatMap_cons]

theorem paths_map (es : List (String × Value)) : (map es).paths = es.flatMap fun e => e.2.paths := by
  rw [paths]
  induction es with
  | nil => rfl
  | cons e es ih => rw [pathsOfEntries, ih, List.flatMap_cons]

theorem faultOf_toNodes (items : List Value) : faultOf (toNodes items) = items.findSome? fun v => faultOf v.toNode := by
  induction items with
  | nil => rfl
  | cons v items ih =>
    rw [toNodes_cons, faultOf_both, ih, List.findSome?_cons]
    cases faultOf v.toNode <;> rfl

theorem faultOf_toEntries (es : List (String × Value)) :
    faultOf (toEntries es) = es.findSome? fun e => faultOf e.2.toNode := by
  induction es with
  | nil => rfl
  | cons e es ih =>
    rw [toEntries_cons, faultOf_both, ih, List.findSome?_cons]
    cases faultOf e.2.toNode <;> rfl

/-- What keeps a value from being written is the first path in it that has no text. -/
theorem faultOf_toNode (v : Value) : faultOf v.toNode = v.unwritable? := by
  induction v using induct with
  | null | bool b | number n | string s => rfl
  | path p =>
    cases hp : p.text? with
    | none => simp [toNode, hp, faultOf, unwritable?, paths]
    | some s => simp [toNode, hp, faultOf, unwritable?, paths]
  | seq items ih =>
    rw [toNode_seq, faultOf_map, faultOf_toNodes, unwritable?, paths_seq, List.find?_flatMap]
    exact findSome?_congr ih
  | map es ih =>
    rw [toNode_map, faultOf_map, faultOf_toEntries, unwritable?, paths_map, List.find?_flatMap]
    exact findSome?_congr ih

/-- With paths replaced only those without text are left. -/
theorem paths_written (v : Value) : v.written.paths = v.paths.filter fun p => p.text?.isNone := by
  induction v using induct with
  | null | bool b | number n | string s => rfl
  | path p =>
    cases hp : p.text? with
    | none => simp [written_path_of_none hp, paths, hp]
    | some s => simp [written_path_of_some hp, paths, hp]
  | seq items ih =>
    rw [written_seq, paths_seq, paths_seq, List.filter_flatMap, List.flatMap_map]
    exact List.flatMap_congr ih
  | map es ih =>
    rw [written_map, paths_map, paths_map, List.filter_flatMap, List.flatMap_map]
    exact List.flatMap_congr ih

/-! ## Reading values with paths replaced -/

theorem asString_written (v : Value) : v.written.asString? = v.asString? := by
  cases v with
  | path p =>
    cases hp : p.text? with
    | none => rw [written_path_of_none hp]
    | some s =>
      rw [written_path_of_some hp]
      exact hp.symm
  | _ => rfl

theorem asBool_written (v : Value) : v.written.asBool? = v.asBool? := by
  cases v with
  | path p =>
    cases hp : p.text? with
    | none => rw [written_path_of_none hp]
    | some s =>
      rw [written_path_of_some hp]
      rfl
  | _ => rfl

theorem asPath_written (v : Value) : v.written.asPath? = v.asPath? := by
  cases v with
  | path p =>
    cases hp : p.text? with
    | none => rw [written_path_of_none hp]
    | some s =>
      rw [written_path_of_some hp, Path.text_eq_some.mp hp]
      rfl
  | _ => rfl

theorem asSeq_written (v : Value) : v.written.asSeq? = v.asSeq?.map fun items => items.map written := by
  cases v with
  | path p =>
    cases hp : p.text? with
    | none =>
      rw [written_path_of_none hp]
      rfl
    | some s =>
      rw [written_path_of_some hp]
      rfl
  | seq items =>
    rw [written_seq]
    rfl
  | _ => rfl

theorem asMap_written (v : Value) : v.written.asMap? = v.asMap?.map fun ns => ns.mapValues written := by
  cases v with
  | path p =>
    cases hp : p.text? with
    | none =>
      rw [written_path_of_none hp]
      rfl
    | some s =>
      rw [written_path_of_some hp]
      rfl
  | map es => exact congrArg asMap? (written_map es)
  | _ => rfl

/-- A change of namespaces that goes with the replacement of paths does so inside a value. -/
theorem mapNamespace_written {f : Namespace → Namespace} (hf : ∀ ns, f (ns.mapValues written) = (f ns).mapValues written)
    (v : Value) : mapNamespace f v.written = (mapNamespace f v).written := by
  cases v with
  | map es =>
    calc mapNamespace f (ofNamespace ⟨es⟩).written = ofNamespace (f (Namespace.mapValues ⟨es⟩ written)) := by
          rw [written_ofNamespace]
          rfl
      _ = ofNamespace ((f ⟨es⟩).mapValues written) := by rw [hf]
      _ = (ofNamespace (f ⟨es⟩)).written := (written_ofNamespace _).symm
  | path p =>
    have hpath : mapNamespace f (path p) = path p := rfl
    rw [hpath]
    cases hp : p.text? with
    | none =>
      rw [written_path_of_none hp]
      rfl
    | some s =>
      rw [written_path_of_some hp]
      rfl
  | _ => rfl

end Value

end ClusterConfig
