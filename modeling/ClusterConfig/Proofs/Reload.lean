import ClusterConfig.Proofs.LoadSave
import ClusterConfig.Proofs.Value.Keys
import ClusterConfig.Proofs.Value.Written

/-!
# Values that are saved and loaded

Saving writes the merge keys of a value as they are, and loading expands them. So a value comes back as `Reloads` relates it to
another one: leaves as they are, sequences element by element, and a namespace with what stands in it once the entries that its
merge key names are put where it has none.
-/

namespace ClusterConfig

namespace Namespace

/-! ## What stands in a namespace with a merge key -/

/-- The entries of the namespaces that a value names: of itself, or of its elements. -/
def named : Value → List (String × Value)
  | .map es => es
  | .seq items => items.flatMap fun v => (v.asMap?.map entries).getD []
  | _ => []

/-- The entries that the merge key of a namespace names. -/
def broughtIn (ns : Namespace) : List (String × Value) := ((ns.getRaw? "<<").map named).getD []

/-- The value that the merge key puts under a key, where the namespace has none of its own. -/
def MergesIn (ns : Namespace) (key : String) (v : Value) : Prop :=
  (key = "<<" ∨ ns.getRaw? key = none) ∧ ns.broughtIn.lookup key = some v

/-- What stands under a key once the merge key is expanded: the own value, or else the one that is merged in. -/
def standing? (ns : Namespace) (key : String) : Option Value :=
  (if key = "<<" then none else ns.getRaw? key).or (ns.broughtIn.lookup key)

theorem standing_eq_some {ns : Namespace} {key : String} {v : Value} :
    ns.standing? key = some v ↔ key ≠ "<<" ∧ ns.getRaw? key = some v ∨ ns.MergesIn key v := by
  unfold standing? MergesIn
  by_cases hk : key = "<<"
  · simp [hk]
  · rw [if_neg hk, Option.or_eq_some_iff]
    simp [hk]

/-- What is read from what stands under a key is read from the own value or from one that is merged in. -/
theorem standing_bind_eq_some {α : Type} {f : Value → Option α} {ns : Namespace} {key : String} {a : α} :
    (ns.standing? key).bind f = some a ↔
      key ≠ "<<" ∧ (ns.getRaw? key).bind f = some a ∨ ∃ v, ns.MergesIn key v ∧ f v = some a := by
  simp only [Option.bind_eq_some_iff, standing_eq_some]
  constructor
  · rintro ⟨v, ⟨hk, hv⟩ | hm, ha⟩
    · exact Or.inl ⟨hk, v, hv, ha⟩
    · exact Or.inr ⟨v, hm, ha⟩
  · rintro (⟨hk, v, hv, ha⟩ | ⟨v, hm, ha⟩)
    · exact ⟨v, Or.inl ⟨hk, hv⟩, ha⟩
    · exact ⟨v, Or.inr hm, ha⟩

/-- Nothing is merged in without a merge key. -/
theorem not_mergesIn {ns : Namespace} (h : ns.getRaw? "<<" = none) (key : String) (v : Value) : ¬ns.MergesIn key v := by
  rw [MergesIn, broughtIn, h]
  exact fun hm => nomatch hm.2

theorem hasKey_of_mergesIn {ns : Namespace} {key : String} {v : Value} (h : ns.MergesIn key v) :
    (Value.ofNamespace ns).HasKey "<<" := by
  by_contra hfree
  have hnone : ns.getRaw? "<<" = none := lookup_eq_none.mpr fun hmem => hfree (Value.hasKey_map.mpr (Or.inl hmem))
  exact not_mergesIn hnone key v h

/-- Without a merge key everything stands as it is. -/
theorem standing_of_not_merging {ns : Namespace} (h : ns.getRaw? "<<" = none) (key : String) :
    ns.standing? key = ns.getRaw? key := by
  have hnone : ns.broughtIn = [] := by
    rw [broughtIn, h]
    rfl
  rw [standing?, hnone, List.lookup_nil, Option.or_none]
  by_cases hk : key = "<<"
  · rw [if_pos hk, hk, h]
  · rw [if_neg hk]

end Namespace

namespace Value

open Yaml

/-! ## Entries and the trees they are written as -/

/-- The value under a key is written under the same key. -/
theorem lookup_written {es : List (String × Value)} {fs : List (Node × Node)} (h : List.Forall₂ Written es fs)
    (key : String) : Option.Rel (fun v n => toNode v = .ok n) (es.lookup key) (Node.lookup (.string key) fs) := by
  induction h with
  | nil => exact Option.Rel.none
  | @cons e f es fs hw _ ih =>
    rw [Namespace.lookup_cons, Node.lookup]
    by_cases hk : key = e.1
    · rw [if_pos hk, List.find?_cons_of_pos (by rw [hw.1, Node.same_string, hk])]
      exact Option.Rel.some hw.2
    · rw [if_neg hk, List.find?_cons_of_neg (by rw [hw.1, Node.same_string, Node.string.injEq]; exact Ne.symm hk)]
      exact ih

/-- The entries that a value names are written as those that its tree names. -/
theorem named_written {v : Value} {n : Node} {sources : List (List (Node × Node))} (h : v.toNode = .ok n)
    (hs : Node.mergeSources n = .ok sources) : List.Forall₂ Written (Namespace.named v) sources.flatten := by
  rcases Node.mergeSources_eq_ok.mp hs with ⟨fs, rfl, rfl⟩ | rfl
  · obtain ⟨es, rfl, hfs⟩ := eq_map_of_toNode h
    simpa [Namespace.named] using hfs
  · obtain ⟨items, rfl, hns⟩ := eq_seq_of_toNode h
    rw [Namespace.named]
    clear h hs
    induction sources generalizing items with
    | nil =>
      cases hns
      exact List.Forall₂.nil
    | cons fs sources ih =>
      obtain ⟨v, items, hv, hrest, rfl⟩ := List.forall₂_cons_right_iff.mp hns
      obtain ⟨es, rfl, hfs⟩ := eq_map_of_toNode hv
      exact List.rel_append hfs (ih items hrest)

/-- Under a key of a written mapping stands, once its merge entry is expanded, what stands in the namespace. -/
theorem lookup_mergeEntries_written {es : List (String × Value)} {fs merged : List (Node × Node)}
    (h : List.Forall₂ Written es fs) (hd : Node.DistinctKeys fs) (hm : Node.mergeEntries fs = .ok merged) (key : String) :
    Option.Rel (fun v n => toNode v = .ok n) (Namespace.standing? ⟨es⟩ key) (Node.lookup (.string key) merged) := by
  have hor : ∀ {x x' : Option Value} {y y' : Option Node}, Option.Rel (fun v n => toNode v = .ok n) x y →
      Option.Rel (fun v n => toNode v = .ok n) x' y' → Option.Rel (fun v n => toNode v = .ok n) (x.or x') (y.or y') := by
    intro x x' y y' hxy hxy'
    cases hxy with
    | some hvn => exact Option.Rel.some hvn
    | none => exact hxy'
  rw [Namespace.standing?, Node.lookup_mergeEntries hm]
  apply hor
  · rw [Node.lookup_own hd (textKeys_of_written h)]
    by_cases hk : key = "<<"
    · rw [if_pos hk, if_pos hk]
      exact Option.Rel.none
    · rw [if_neg hk, if_neg hk]
      exact lookup_written h key
  · rw [Namespace.broughtIn, Namespace.getRaw?]
    cases hv : es.lookup "<<" with
    | none =>
      have hnone : Node.broughtIn fs = [] := by
        refine Node.broughtIn_of_not_mem fun f hf hk => Namespace.lookup_eq_none.mp hv ?_
        obtain ⟨e, he, hw⟩ := exists_left_of_forall₂ h hf
        rw [hw.1, Node.mergeKey, Node.string.injEq] at hk
        exact hk ▸ List.mem_map_of_mem he
      rw [hnone]
      exact Option.Rel.none
    | some v =>
      obtain ⟨f, hf, hk, hvn⟩ := exists_right_of_forall₂ h (Namespace.mem_of_lookup hv)
      have hmem : (Node.mergeKey, f.2) ∈ fs := by
        rw [Node.mergeKey, ← hk]
        exact hf
      obtain ⟨sources, hs, hb⟩ := Node.broughtIn_of_mem hm hd hmem
      rw [hb]
      exact lookup_written (named_written hvn hs) key

/-! ## Values that come back -/

/-- The second value is what the first one comes back as: it is written as a tree with distinct keys, and this one is expanded
and converted. -/
def Reloads (v v' : Value) : Prop := ∃ n n', v.toNode = .ok n ∧ n.Distinct ∧ n.expandMerges = .ok n' ∧ ofNode n' = v'

/-- Sequences come back element by element. -/
theorem reloads_items {items : List Value} {ns ns' : List Node} (hn : List.Forall₂ (fun v n => toNode v = .ok n) items ns)
    (hd : ∀ n ∈ ns, n.Distinct) (hexpand : List.Forall₂ (fun n n' => Node.expandMerges n = .ok n') ns ns') :
    List.Forall₂ Reloads items (ns'.map ofNode) := by
  induction hn generalizing ns' with
  | nil =>
    cases hexpand
    exact List.Forall₂.nil
  | cons hvn _ ih =>
    obtain ⟨hhead, htail⟩ := List.forall_mem_cons.mp hd
    obtain ⟨n', ns', hn', hrest, rfl⟩ := List.forall₂_cons_left_iff.mp hexpand
    exact List.Forall₂.cons ⟨_, n', hvn, hhead, hn', rfl⟩ (ih htail hrest)

/-- A mapping that a namespace is written as is merged to one with distinct keys, all of them strings. -/
theorem keys_mergeEntries_written {es : List (String × Value)} {fs merged : List (Node × Node)}
    (hn : toNode (.map es) = .ok (.map fs)) (hd : Node.DistinctKeys fs) (hm : Node.mergeEntries fs = .ok merged) :
    Node.TextKeys merged ∧ (merged.map Prod.fst).Nodup := by
  obtain ⟨fs', hfs, heq⟩ := toNode_map_eq_ok.mp hn
  cases heq
  have hbrought : Node.TextKeys (Node.broughtIn fs) := by
    intro e he
    obtain ⟨f, hf, gs, hw, he⟩ := Node.within_of_mem_broughtIn he
    obtain ⟨es', -, hwritten⟩ := within_of_toNode hn (.value hf hw)
    exact textKeys_of_written hwritten e he
  constructor
  · intro e he
    rcases Node.mem_mergeEntries hm he with he | he
    · exact textKeys_of_written hfs e (Node.mem_of_mem_own he)
    · exact hbrought e he
  · rw [Node.mergeEntries_eq hm]
    exact Node.nodup_addMissing (Node.nodup_own (hd.nodup (textKeys_of_written hfs))) hbrought

/-- A namespace comes back with what stands under each of its keys: the value is written, expanded and converted under the same
key. -/
theorem reloads_standing {es : List (String × Value)} {fs merged fs' : List (Node × Node)}
    (hn : toNode (.map es) = .ok (.map fs)) (hd : Node.Distinct (.map fs)) (hm : Node.mergeEntries fs = .ok merged)
    (hexpand : List.Forall₂ Node.Expanded merged fs') (key : String) :
    Option.Rel Reloads (Namespace.standing? ⟨es⟩ key) ((Namespace.ofMapping fs').getRaw? key) := by
  obtain ⟨fs₂, hfs, heq⟩ := toNode_map_eq_ok.mp hn
  cases heq
  have hdistinct := hd fs (.self fs)
  obtain ⟨htext, hnodup⟩ := keys_mergeEntries_written hn hdistinct hm
  have hwritten := lookup_mergeEntries_written hfs hdistinct hm key
  have hexpanded := Node.lastUnder_expanded hexpand key
  rw [← Node.lastUnder_eq_lookup hnodup htext] at hwritten
  rw [getRaw_ofMapping]
  generalize Namespace.standing? ⟨es⟩ key = x at hwritten ⊢
  generalize Node.lastUnder key fs' = z at hexpanded ⊢
  cases hlast : Node.lastUnder key merged with
  | none =>
    rw [hlast] at hwritten hexpanded
    cases hwritten
    cases hexpanded
    exact Option.Rel.none
  | some n =>
    rw [hlast] at hwritten hexpanded
    obtain ⟨e, he, -, rfl⟩ := Node.mem_of_lastUnder hlast
    cases hwritten with
    | some hvn =>
      cases hexpanded with
      | some hexpand' =>
        refine Option.Rel.some ⟨e.2, _, hvn, fun gs hw => ?_, hexpand', rfl⟩
        obtain ⟨f, hf, hw⟩ := Node.within_of_mem_mergeEntries hm he hw
        exact hd gs (.value hf hw)

/-- Leaves come back as they are written, sequences element by element and namespaces key by key. -/
theorem Reloads.cases {v v' : Value} (h : Reloads v v') :
    (v.asSeq? = none ∧ v.asMap? = none ∧ v' = v.written) ∨
      (∃ items items', v = .seq items ∧ v' = .seq items' ∧ List.Forall₂ Reloads items items') ∨
      ∃ es ns, v = .map es ∧ v' = .ofNamespace ns ∧
        ∀ key, Option.Rel Reloads (Namespace.standing? ⟨es⟩ key) (ns.getRaw? key) := by
  obtain ⟨n, n', hn, hd, hexpand, rfl⟩ := h
  cases v with
  | path p =>
    obtain ⟨s, rfl, rfl⟩ := toNode_path_eq_ok.mp hn
    cases hexpand
    exact Or.inl ⟨rfl, rfl, (written_path s).symm⟩
  | seq items =>
    obtain ⟨ns, hns, rfl⟩ := toNode_seq_eq_ok.mp hn
    obtain ⟨ns', hns', rfl⟩ := Node.expandMerges_seq_eq_ok.mp hexpand
    refine Or.inr (Or.inl ⟨items, ns'.map ofNode, rfl, ofNode_seq ns', ?_⟩)
    exact reloads_items hns (fun n hn es hw => hd es (.item hn hw)) hns'
  | map es =>
    obtain ⟨fs, hfs, rfl⟩ := toNode_map_eq_ok.mp hn
    obtain ⟨merged, fs', hm, hfs', rfl⟩ := Node.expandMerges_map_eq_ok.mp hexpand
    exact Or.inr (Or.inr ⟨es, Namespace.ofMapping fs', rfl, rfl, reloads_standing hn hd hm hfs'⟩)
  | _ =>
    cases hn
    cases hexpand
    exact Or.inl ⟨rfl, rfl, rfl⟩

theorem Reloads.asString {v v' : Value} (h : Reloads v v') : v'.asString? = v.asString? := by
  rcases h.cases with ⟨-, -, rfl⟩ | ⟨items, items', rfl, rfl, -⟩ | ⟨es, ns, rfl, rfl, -⟩
  · exact asString_written v
  · rfl
  · rfl

/-- A sequence comes back element by element, and nothing else comes back as one. -/
theorem Reloads.asSeq {v v' : Value} (h : Reloads v v') : Option.Rel (List.Forall₂ Reloads) v.asSeq? v'.asSeq? := by
  rcases h.cases with ⟨hseq, -, rfl⟩ | ⟨items, items', rfl, rfl, hitems⟩ | ⟨es, ns, rfl, rfl, -⟩
  · rw [asSeq_written, hseq]
    exact Option.Rel.none
  · exact Option.Rel.some hitems
  · exact Option.Rel.none

/-- A namespace comes back with what stands under each of its keys, and nothing else comes back as one. -/
theorem Reloads.asMap {v v' : Value} (h : Reloads v v') :
    Option.Rel (fun ns ns' => ∀ key, Option.Rel Reloads (Namespace.standing? ns key) (Namespace.getRaw? ns' key))
      v.asMap? v'.asMap? := by
  rcases h.cases with ⟨-, hmap, rfl⟩ | ⟨items, items', rfl, rfl, -⟩ | ⟨es, ns, rfl, rfl, hstanding⟩
  · rw [asMap_written, hmap]
    exact Option.Rel.none
  · exact Option.Rel.none
  · exact Option.Rel.some hstanding

end Value

end ClusterConfig
