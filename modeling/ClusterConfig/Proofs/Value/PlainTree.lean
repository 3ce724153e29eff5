import ClusterConfig.Proofs.Value.Written

/-!
# The trees of values

Values are written as plain trees: all keys are strings, and nothing has a tag. Between namespaces without paths and plain
mappings, writing and conversion are inverse to each other (`toNode_inverse`), so that neither of them drops, merges or reorders
an entry. The merge key is a key like any other here.
-/

namespace ClusterConfig

namespace Yaml.Node

/-- All keys in the tree are strings, and nothing has a tag. -/
inductive Plain : Node → Prop where
  | null : Plain .null
  | bool (b : Bool) : Plain (.bool b)
  | number (n : Number) : Plain (.number n)
  | string (s : String) : Plain (.string s)
  | seq {items : List Node} : (∀ n ∈ items, Plain n) → Plain (.seq items)
  | map {es : List (Node × Node)} : TextKeys es → (∀ e ∈ es, Plain e.2) → Plain (.map es)

theorem Plain.textKeys {n : Node} (hp : n.Plain) {es : List (Node × Node)} (hw : n.Within es) : TextKeys es := by
  induction hw with
  | self es =>
    cases hp with
    | map ht _ => exact ht
  | item hn _ ih =>
    cases hp with
    | seq hitems => exact ih (hitems _ hn)
  | value he _ ih =>
    cases hp with
    | map _ hvalues => exact ih (hvalues _ he)
  | tagged _ _ => cases hp

/-- In a plain tree keys are distinct where they are different. -/
theorem Plain.distinct {n : Node} (hp : n.Plain) (h : ∀ es, n.Within es → (es.map Prod.fst).Nodup) : n.Distinct := by
  intro es hw
  exact (hp.textKeys hw).distinctKeys (h es hw)

end Yaml.Node

namespace Value

open Yaml

/-! ## From values to trees -/

theorem exists_toNode {v : Value} (h : v.paths = []) : ∃ n, v.toNode = .ok n := by
  rw [← faultOf_eq_none, faultOf_toNode, unwritable?, h]
  rfl

theorem plain_toNode {v : Value} {n : Node} (h : v.toNode = .ok n) : n.Plain := by
  induction v using induct generalizing n with
  | null | bool b | number m | string s =>
    cases h
    constructor
  | path p =>
    obtain ⟨s, -, rfl⟩ := toNode_path_eq_ok.mp h
    exact .string s
  | seq items ih =>
    obtain ⟨ns, hns, rfl⟩ := toNode_seq_eq_ok.mp h
    refine .seq fun n hn => ?_
    obtain ⟨v, hv, hvn⟩ := exists_left_of_forall₂ hns hn
    exact ih v hv hvn
  | map es ih =>
    obtain ⟨fs, hfs, rfl⟩ := toNode_map_eq_ok.mp h
    refine .map (textKeys_of_written hfs) fun f hf => ?_
    obtain ⟨e, he, -, hvalue⟩ := exists_left_of_forall₂ hfs hf
    exact ih e he hvalue

theorem distinct_toNode {v : Value} {n : Node} (h : v.toNode = .ok n) (hd : v.Distinct) : n.Distinct := by
  refine (plain_toNode h).distinct fun fs hw => ?_
  obtain ⟨es, hes, hwritten⟩ := within_of_toNode h hw
  have hkeys : ((es.map Prod.fst).map Node.string).Nodup := (hd es hes).map fun s t hst => Node.string.inj hst
  rw [keys_of_written hwritten]
  rwa [List.map_map] at hkeys

/-- Without paths there is nothing to replace. -/
theorem written_of_paths {v : Value} (h : v.paths = []) : v.written = v := by
  induction v using induct with
  | null | bool b | number n | string s => rfl
  | path p => nomatch h
  | seq items ih =>
    rw [paths_seq, List.flatMap_eq_nil_iff] at h
    rw [written_seq, List.map_congr_left fun v hv => ih v hv (h v hv), List.map_id']
  | map es ih =>
    rw [paths_map, List.flatMap_eq_nil_iff] at h
    have hentries : ∀ e ∈ es, (e.1, e.2.written) = e := fun e he => by rw [ih e he (h e he)]
    rw [written_map, List.map_congr_left hentries, List.map_id']

/-! ## From trees to values -/

theorem paths_ofNode (n : Node) : (ofNode n).paths = [] := by
  induction n using Node.induct with
  | null | bool b | number m | string s => rfl
  | seq items ih =>
    rw [ofNode_seq, paths_seq, List.flatMap_eq_nil_iff]
    exact List.forall_mem_map.mpr ih
  | map es ih =>
    rw [ofNode_map, ofNamespace, paths_map, List.flatMap_eq_nil_iff]
    intro e he
    obtain ⟨f, hf, -, hvalue⟩ := mem_of_mem_ofMapping he
    rw [← hvalue]
    exact ih f hf
  | tagged tag n ih => exact ih

/-- Entries under string keys are written again as they stand, where their values are. -/
theorem written_ofEntries {fs : List (Node × Node)} (ht : Node.TextKeys fs)
    (hvalues : ∀ f ∈ fs, (ofNode f.2).toNode = .ok f.2) : List.Forall₂ Written (ofEntries fs) fs := by
  induction fs with
  | nil => exact List.Forall₂.nil
  | cons f fs ih =>
    obtain ⟨key, hkey⟩ := ht f List.mem_cons_self
    have htext : f.1.keyText? = some key := by rw [hkey, Node.keyText?]
    have hrest := ih (fun g hg => ht g (List.mem_cons_of_mem f hg)) fun g hg => hvalues g (List.mem_cons_of_mem f hg)
    rw [ofEntries_cons_of_some htext]
    exact List.Forall₂.cons ⟨hkey, hvalues f List.mem_cons_self⟩ hrest

/-- The value of a plain tree is written as that tree. -/
theorem toNode_ofNode {n : Node} (hp : n.Plain) (hd : n.Distinct) : (ofNode n).toNode = .ok n := by
  induction n using Node.induct with
  | null | bool b | number m | string s => rfl
  | seq items ih =>
    cases hp with
    | seq hitems =>
      have hback : ∀ n ∈ items, (ofNode n).toNode = .ok n := fun n hn =>
        ih n hn (hitems n hn) fun es hw => hd es (.item hn hw)
      rw [ofNode_seq, toNode_seq_eq_ok]
      exact ⟨items, List.forall₂_map_left_iff.mpr (List.forall₂_same.mpr hback), rfl⟩
  | map es ih =>
    cases hp with
    | map ht hes =>
      have hwritten : List.Forall₂ Written (ofEntries es) es :=
        written_ofEntries ht fun e he => ih e he (hes e he) fun fs hw => hd fs (.value he hw)
      -- Different keys are collected into entries in the order they stand in.
      have hn := nodup_of_written hwritten (hd es (.self es))
      rw [ofNode_map, Namespace.ofMapping, ofNamespace, Namespace.entries_ofPairs hn, toNode_map_eq_ok]
      exact ⟨es, hwritten, rfl⟩
  | tagged tag n ih => cases hp

end Value

namespace Namespace

open Yaml

/-- A namespace without paths is written as a plain mapping that becomes this very namespace again, keys in their order at every
depth; and a plain mapping becomes a namespace without paths that is written as this very mapping. -/
theorem toNode_inverse :
    (∀ ns : Namespace, (Value.ofNamespace ns).Distinct → (Value.ofNamespace ns).paths = [] →
      ∃ entries, ns.toNode = .ok (.map entries) ∧ (Node.map entries).Plain ∧ (Node.map entries).Distinct ∧
        ofMapping entries = ns) ∧
    ∀ entries, (Node.map entries).Plain → (Node.map entries).Distinct →
      (Value.ofNamespace (ofMapping entries)).Distinct ∧ (Value.ofNamespace (ofMapping entries)).paths = [] ∧
        (ofMapping entries).toNode = .ok (.map entries) := by
  constructor
  · intro ns hd hpaths
    obtain ⟨n, hn⟩ := Value.exists_toNode hpaths
    obtain ⟨entries, -, rfl⟩ := Value.toNode_map_eq_ok.mp hn
    have hdistinct := Value.distinct_toNode hn hd
    -- What comes back has texts for paths, and there are no paths here.
    have hback : Value.ofNamespace (ofMapping entries) = Value.ofNamespace ns :=
      (Value.ofNode_toNode hn hdistinct).trans (Value.written_of_paths hpaths)
    have hns : ofMapping entries = ns := congrArg mk (Value.map.inj hback)
    exact ⟨entries, hn, Value.plain_toNode hn, hdistinct, hns⟩
  · intro entries hp hd
    exact ⟨Value.distinct_ofNode (.map entries), Value.paths_ofNode (.map entries), Value.toNode_ofNode hp hd⟩

/-- A mapping under the merge key, with a key that is written like a number and with a number that is none. -/
theorem toNode_inverse_mergeKey :
    let inner : List (Node × Node) := [(.string "1", .seq [.null]), (.string "<<", .number (.float .nan))]
    let entries : List (Node × Node) := [(.string "<<", .map inner), (.string "apps", .bool true)]
    (Node.map entries).Plain ∧ (Node.map entries).Distinct ∧ (ofMapping entries).toNode = .ok (.map entries) ∧
      ∃ written, (ofMapping entries).toNode = .ok (.map written) ∧ ofMapping written = ofMapping entries := by
  intro inner entries
  have hplain : (Node.map inner).Plain := by
    refine .map (by simp [inner, Node.TextKeys]) ?_
    simp only [inner, List.forall_mem_cons]
    exact ⟨.seq (List.forall_mem_singleton.mpr .null), .number _, List.forall_mem_nil _⟩
  have hp : (Node.map entries).Plain := by
    refine .map (by simp [entries, Node.TextKeys]) ?_
    simp only [entries, List.forall_mem_cons]
    exact ⟨hplain, .bool true, List.forall_mem_nil _⟩
  have hd : (Node.map entries).Distinct := hp.distinct (by simp [entries, inner])
  obtain ⟨hwrites, hreads⟩ := toNode_inverse
  obtain ⟨hdistinct, hpaths, hback⟩ := hreads entries hp hd
  obtain ⟨written, hwritten, -, -, hns⟩ := hwrites (ofMapping entries) hdistinct hpaths
  exact ⟨hp, hd, hback, written, hwritten, hns⟩

end Namespace

end ClusterConfig
