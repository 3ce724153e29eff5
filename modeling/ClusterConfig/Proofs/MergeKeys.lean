import ClusterConfig.Proofs.LoadSave
import ClusterConfig.Proofs.Value.Conversion
import ClusterConfig.Proofs.Value.Keys

/-!
# Merge keys that loading leaves

Loading expands every mapping once, before the mappings in it. Its merge entry is taken out, but an entry that reads `<<` comes
back where a mapping that is merged in has one, and one under a key that only reads like the merge key is never taken out.
`hasKey_expandMerges` says that these are all the ways for a merge key to be left.
-/

namespace ClusterConfig

namespace Yaml.Node

/-! ## The mappings that loading keeps -/

/-- The tree keeps the mapping with these entries: it stands in the tree, and no other value takes its place or that of a
mapping around it once those are expanded. -/
inductive Keeps : Node → List (Node × Node) → Prop where
  | self (es : List (Node × Node)) : Keeps (.map es) es
  | item {items : List Node} {n : Node} {es : List (Node × Node)} : n ∈ items → Keeps n es → Keeps (.seq items) es
  | value {fs merged : List (Node × Node)} {key : String} {n : Node} {es : List (Node × Node)} :
      mergeEntries fs = .ok merged → lastUnder key merged = some n → Keeps n es → Keeps (.map fs) es
  | tagged {tag : String} {n : Node} {es : List (Node × Node)} : Keeps n es → Keeps (.tagged tag n) es

/-- Expanding the mapping leaves an entry that reads `<<`: one under another key than the merge key, or one that its merge entry
brings in. -/
def LeavesMergeKey (es : List (Node × Node)) : Prop :=
  ∃ e, e.1.keyText? = some "<<" ∧ (e ∈ es ∧ e.1 ≠ mergeKey ∨ e ∈ broughtIn es)

/-! ## Keys that read `<<` -/

/-- Doubles that are the same but have different texts are both zero or both no numbers, and none of these reads `<<`. -/
theorem text_of_same {m n : Number} (h : m.same n = true) (hm : m.text = "<<") : n.text = "<<" := by
  cases m with
  | int m =>
    cases n with
    | int n =>
      obtain rfl : m = n := by simpa [Number.same] using h
      exact hm
    | float y => simp [Number.same] at h
  | float x =>
    cases n with
    | int n => simp [Number.same] at h
    | float y =>
      simp only [Number.same, Binary64.same, Bool.or_eq_true, Bool.and_eq_true, beq_iff_eq] at h
      rcases h with ⟨hx, -⟩ | ⟨⟨hx, -⟩, ⟨hzero, -⟩ | rfl⟩
      · simp [Number.text, Number.floatText, hx] at hm
      · rw [Bool.not_eq_true'] at hx
        simp only [Number.text, Number.floatText, hx, hzero, Bool.false_eq_true, if_false, if_true] at hm
        have hno : ∀ negative infinite : Bool, (if infinite = true then (if negative = true then "-" else "") ++ ".inf"
            else (if negative = true then "-" else "") ++ "0.0") ≠ "<<" := by decide
        exact absurd hm (hno x.negative x.isInfinite)
      · exact hm

/-- A key that means the same as one that reads `<<` reads so too. -/
theorem keyText_of_same {k k' : Node} (h : k.same k' = true) (hk : k.keyText? = some "<<") : k'.keyText? = some "<<" := by
  induction k using induct generalizing k' with
  | null => nomatch hk
  | seq items ih => nomatch hk
  | map es ih => nomatch hk
  | bool b => cases b <;> exact absurd hk (by decide)
  | string s =>
    rw [same_string.mp h]
    exact hk
  | number m =>
    cases k' with
    | number n => exact congrArg some (text_of_same h (Option.some.inj hk))
    | _ => simp [same] at h
  | tagged tag k ih =>
    cases k' with
    | tagged tag' k' =>
      rw [same, Bool.and_eq_true] at h
      rw [keyText?]
      exact ih h.2 hk
    | _ => simp [same] at h

/-! ## One mapping -/

/-- A namespace has the keys that its mapping reads. -/
theorem mem_keys_expanded {merged es' : List (Node × Node)} (he : List.Forall₂ Expanded merged es') {key : String} :
    key ∈ (Namespace.ofMapping es').keys ↔ Reads merged key := by
  have hnone : (Namespace.ofMapping es').getRaw? key = none ↔ lastUnder key merged = none := by
    have hsome := isSome_eq_of_rel (lastUnder_expanded he key)
    rw [Value.getRaw_ofMapping, Option.map_eq_none_iff, ← Option.not_isSome_iff_eq_none, ← Option.not_isSome_iff_eq_none,
      hsome]
  have hno : key ∉ (Namespace.ofMapping es').keys ↔ ¬Reads merged key :=
    calc key ∉ (Namespace.ofMapping es').keys ↔ (Namespace.ofMapping es').getRaw? key = none :=
          Namespace.lookup_eq_none.symm
      _ ↔ lastUnder key merged = none := hnone
      _ ↔ ¬Reads merged key := lastUnder_eq_none
  exact not_iff_not.mp hno

/-- A namespace has the merge key exactly where expanding the mapping leaves it. -/
theorem mem_keys_mergeEntries {es merged es' : List (Node × Node)} (hd : DistinctKeys es)
    (hm : mergeEntries es = .ok merged) (he : List.Forall₂ Expanded merged es') :
    "<<" ∈ (Namespace.ofMapping es').keys ↔ LeavesMergeKey es := by
  rw [mem_keys_expanded he]
  constructor
  · rintro ⟨e, hmem, htext⟩
    refine ⟨e, htext, ?_⟩
    rcases mem_mergeEntries hm hmem with hown | hbrought
    · exact Or.inl ((mem_own hd).mp hown)
    · exact Or.inr hbrought
  · rintro ⟨e, htext, hmem⟩
    rw [mergeEntries_eq hm]
    rcases hmem with hown | hbrought
    · rw [addMissing_eq]
      exact ⟨e, List.mem_append_left _ ((mem_own hd).mpr hown), htext⟩
    · have hadded : e ∈ addMissing (own es) (broughtIn es) ∨
          ∃ f ∈ addMissing (own es) (broughtIn es), e.1.same f.1 = true := exists_key_addMissing hbrought
      rcases hadded with hmem | ⟨f, hf, hsame⟩
      · exact ⟨e, hmem, htext⟩
      · exact ⟨f, hf, keyText_of_same hsame htext⟩

/-! ## The whole tree -/

/-- A mapping that the tree keeps leaves a merge key. -/
def LeavesKept (n : Node) : Prop := ∃ es, n.Keeps es ∧ LeavesMergeKey es

theorem leavesKept_seq {items : List Node} : LeavesKept (.seq items) ↔ ∃ n ∈ items, n.LeavesKept := by
  constructor
  · rintro ⟨es, _ | ⟨hn, hkeeps⟩, hleaves⟩
    exact ⟨_, hn, es, hkeeps, hleaves⟩
  · rintro ⟨n, hn, es, hkeeps, hleaves⟩
    exact ⟨es, .item hn hkeeps, hleaves⟩

theorem leavesKept_map {es merged : List (Node × Node)} (hm : mergeEntries es = .ok merged) :
    LeavesKept (.map es) ↔ LeavesMergeKey es ∨ ∃ key n, lastUnder key merged = some n ∧ n.LeavesKept := by
  constructor
  · rintro ⟨fs, hkeeps, hleaves⟩
    cases hkeeps with
    | self => exact Or.inl hleaves
    | @value _ merged' key n _ hm' hlast hkeeps =>
      obtain rfl : merged' = merged := Except.ok.inj (hm'.symm.trans hm)
      exact Or.inr ⟨key, n, hlast, fs, hkeeps, hleaves⟩
  · rintro (hleaves | ⟨key, n, hlast, fs, hkeeps, hleaves⟩)
    · exact ⟨es, .self es, hleaves⟩
    · exact ⟨fs, .value hm hlast hkeeps, hleaves⟩

theorem leavesKept_tagged {tag : String} {n : Node} : LeavesKept (.tagged tag n) ↔ n.LeavesKept := by
  constructor
  · rintro ⟨es, _ | _ | _ | ⟨hkeeps⟩, hleaves⟩
    exact ⟨es, hkeeps, hleaves⟩
  · rintro ⟨es, hkeeps, hleaves⟩
    exact ⟨es, .tagged hkeeps, hleaves⟩

/-- A namespace has the keys of its mapping and those in the values that count. -/
theorem hasKey_ofMapping {es : List (Node × Node)} {key : String} :
    (Value.ofNamespace (Namespace.ofMapping es)).HasKey key ↔
      key ∈ (Namespace.ofMapping es).keys ∨ ∃ k n, lastUnder k es = some n ∧ (Value.ofNode n).HasKey key := by
  refine Value.hasKey_map.trans (or_congr_right ?_)
  constructor
  · rintro ⟨⟨k, v⟩, hmem, hkey⟩
    have hlast := Namespace.lookup_of_mem (Namespace.nodup_ofPairs (Value.ofEntries es)) hmem
    rw [← Namespace.getRaw?, ← Namespace.ofMapping, Value.getRaw_ofMapping] at hlast
    obtain ⟨n, hn, rfl⟩ := Option.map_eq_some_iff.mp hlast
    exact ⟨k, n, hn, hkey⟩
  · rintro ⟨k, n, hn, hkey⟩
    have hraw := Value.getRaw_ofMapping es k
    rw [hn] at hraw
    exact ⟨_, Namespace.mem_of_lookup hraw, hkey⟩

/-- The value of an expanded tree has the merge key exactly where a mapping that the tree keeps leaves it. -/
theorem hasKey_expandMerges {n n' : Node} (hd : n.Distinct) (h : expandMerges n = .ok n') :
    (Value.ofNode n').HasKey "<<" ↔ n.LeavesKept := by
  induction n using mergeInduct generalizing n' with
  | null | bool b | number m | string s =>
    cases h
    constructor
    · rintro ⟨es, hw, -⟩
      cases hw
    · rintro ⟨es, hkeeps, -⟩
      cases hkeeps
  | seq items ih =>
    obtain ⟨items', hitems, rfl⟩ := expandMerges_seq_eq_ok.mp h
    rw [Value.ofNode_seq, Value.hasKey_seq, leavesKept_seq]
    simp only [List.mem_map, exists_exists_and_eq_and]
    refine exists_mem_iff_of_forall₂ hitems fun n hn n' hexpand => ih n hn (fun es hw => ?_) hexpand
    exact hd es (.item hn hw)
  | map es ih =>
    obtain ⟨merged, es', hm, he, rfl⟩ := expandMerges_map_eq_ok.mp h
    have hroot := mem_keys_mergeEntries (hd es (.self es)) hm he
    rw [leavesKept_map hm]
    refine hasKey_ofMapping.trans (or_congr hroot (exists_congr fun key => ?_))
    refine exists_iff_of_rel (lastUnder_expanded he key) fun n n' hlast hexpand => ?_
    obtain ⟨e, hmem, -, rfl⟩ := mem_of_lastUnder hlast
    refine ih merged hm e hmem (fun fs hw => ?_) hexpand
    obtain ⟨f, hf, hw⟩ := within_of_mem_mergeEntries hm hmem hw
    exact hd fs (.value hf hw)
  | tagged tag n ih =>
    obtain ⟨inner, hinner, rfl⟩ := expandMerges_tagged_eq_ok.mp h
    rw [Value.ofNode_tagged, leavesKept_tagged]
    exact ih (fun es hw => hd es (.tagged hw)) hinner

end Yaml.Node

namespace Config

open Yaml

/-- A loaded configuration is free of merge keys exactly where no mapping that its document keeps leaves one. -/
theorem load_mergeFree_iff {fs : FileSystem} {file : Path} {host : Host} {text : String} {doc : Node} {c : Config}
    (htext : fs.readText file = .ok text) (hdoc : Yaml.read text = .ok doc) (hload : load fs file host = .ok c) :
    ¬(Value.ofNamespace c.fields).HasKey "<<" ↔ ∀ es, doc.Keeps es → ¬Node.LeavesMergeKey es := by
  obtain ⟨text', doc', entries, htext', hdoc', hexpand, rfl⟩ := load_eq_ok.mp hload
  obtain rfl : text' = text := Except.ok.inj (htext'.symm.trans htext)
  obtain rfl : doc' = doc := Except.ok.inj (hdoc'.symm.trans hdoc)
  have hiff := Node.hasKey_expandMerges (distinct_of_read hdoc) hexpand
  rw [Value.ofNode_map] at hiff
  rw [wrap, hiff, Node.LeavesKept]
  simp only [not_exists, not_and]

/-- A mapping that merges another one in by an alias. -/
theorem load_mergeFree_iff_alias :
    ¬(Value.map [("a", .map [("k", .null)]), ("m", .map [("k", .null)])]).HasKey "<<" ↔
      ∀ es, (Node.map [(.string "a", .map [(.string "k", .null)]),
        (.string "m", .map [(.string "<<", .map [(.string "k", .null)])])]).Keeps es → ¬Node.LeavesMergeKey es := by
  have hdoc : Yaml.read "a: &x {k: null}\nm: {<<: *x}\n" = .ok (.map [(.string "a", .map [(.string "k", .null)]),
      (.string "m", .map [(.string "<<", .map [(.string "k", .null)])])]) := by rfl
  have htext := FileSystem.readText_holding "a: &x {k: null}\nm: {<<: *x}\n"
  have hload : load (.holding "a: &x {k: null}\nm: {<<: *x}\n") ⟨[99]⟩ (.fixed 0 none "h") =
      .ok (wrap ⟨[("a", .map [("k", .null)]), ("m", .map [("k", .null)])]⟩ (.fixed 0 none "h")) :=
    load_eq_ok.mpr ⟨_, _, _, htext, hdoc, rfl, rfl⟩
  exact load_mergeFree_iff htext hdoc hload

/-- A merge key below a merge key is left: not every configuration that is loaded is free of merge keys. -/
theorem load_leaves_mergeKey :
    ¬∀ fs file host c, load fs file host = .ok c → ¬(Value.ofNamespace c.fields).HasKey "<<" := by
  intro hall
  have hdoc : Yaml.read "m: {<<: {<<: {}}}\n" =
      .ok (.map [(.string "m", .map [(.string "<<", .map [(.string "<<", .map [])])])]) := by rfl
  have hload : load (.holding "m: {<<: {<<: {}}}\n") ⟨[99]⟩ (.fixed 0 none "h") =
      .ok (wrap ⟨[("m", .map [("<<", .map [])])]⟩ (.fixed 0 none "h")) :=
    load_eq_ok.mpr ⟨_, _, _, FileSystem.readText_holding _, hdoc, rfl, rfl⟩
  exact hall _ _ _ _ hload ⟨[("<<", .map [])], .value (List.mem_singleton_self _) (.self _), List.mem_singleton_self _⟩

end Config

end ClusterConfig
