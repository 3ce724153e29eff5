import Mathlib.Data.List.Nodup
import ClusterConfig.Proofs.Text
import ClusterConfig.Proofs.Value.Tree
import ClusterConfig.Proofs.Yaml.Expansion
import ClusterConfig.Proofs.Yaml.Reading
import ClusterConfig.Value.Conversion

/-!
# Values and the trees they are written as

A value is written as a tree of the same shape: `Written` relates the entries of a namespace to those of its mapping. In the
other direction a tree becomes a value that is not larger, since only entries are lost.
-/

namespace ClusterConfig

namespace Yaml.Node

/-! ## The entry that counts -/

/-- The value of the last entry under a key with the given text. It is the one that is kept of all under such keys. -/
def lastUnder (key : String) (es : List (Node × Node)) : Option Node :=
  (es.reverse.find? fun e => e.1.keyText? == some key).map Prod.snd

theorem mem_of_lastUnder {key : String} {es : List (Node × Node)} {n : Node} (h : lastUnder key es = some n) :
    ∃ e ∈ es, e.1.keyText? = some key ∧ e.2 = n := by
  obtain ⟨e, he, rfl⟩ := Option.map_eq_some_iff.mp h
  have hk := List.find?_some he
  exact ⟨e, List.mem_reverse.mp (List.mem_of_find?_eq_some he), beq_iff_eq.mp hk, rfl⟩

/-- Some entry is under a key with the text. -/
def Reads (es : List (Node × Node)) (key : String) : Prop := ∃ e ∈ es, e.1.keyText? = some key

theorem reads_append {es fs : List (Node × Node)} {key : String} : Reads (es ++ fs) key ↔ Reads es key ∨ Reads fs key := by
  simp only [Reads, List.mem_append, or_and_right, exists_or]

theorem Reads.mono {es fs : List (Node × Node)} {key : String} (h : Reads es key) (hsub : ∀ e ∈ es, e ∈ fs) :
    Reads fs key := by
  obtain ⟨e, he, hk⟩ := h
  exact ⟨e, hsub e he, hk⟩

theorem lastUnder_eq_none {key : String} {es : List (Node × Node)} : lastUnder key es = none ↔ ¬Reads es key := by
  simp [lastUnder, Reads]

theorem lastUnder_append (key : String) (es fs : List (Node × Node)) :
    lastUnder key (es ++ fs) = (lastUnder key fs).or (lastUnder key es) := by
  rw [lastUnder, List.reverse_append, List.find?_append, Option.map_or, lastUnder, lastUnder]

/-- The last entry under a text is one of the later entries if any of these reads so. -/
theorem lastUnder_append_of_reads {key : String} {fs : List (Node × Node)} (h : Reads fs key) (es : List (Node × Node)) :
    lastUnder key (es ++ fs) = lastUnder key fs := by
  rw [lastUnder_append]
  cases hlast : lastUnder key fs with
  | none => exact absurd h (lastUnder_eq_none.mp hlast)
  | some n => rfl

theorem lastUnder_append_of_not_reads {key : String} {fs : List (Node × Node)} (h : ¬Reads fs key)
    (es : List (Node × Node)) : lastUnder key (es ++ fs) = lastUnder key es := by
  rw [lastUnder_append, lastUnder_eq_none.mpr h, Option.none_or]

/-- Of different string keys the last with a text is the only one. -/
theorem lastUnder_eq_lookup {es : List (Node × Node)} (hn : (es.map Prod.fst).Nodup) (ht : TextKeys es) (key : String) :
    lastUnder key es = lookup (.string key) es := by
  have hkey : ∀ e ∈ es, e.1.keyText? = some key → e.1 = .string key := by
    intro e he hk
    obtain ⟨s, hs⟩ := ht e he
    rw [hs] at hk ⊢
    rw [Option.some.inj hk]
  have hmem : ∀ v, lastUnder key es = some v ↔ (.string key, v) ∈ es := by
    intro v
    constructor
    · intro h
      obtain ⟨e, he, hk, rfl⟩ := mem_of_lastUnder h
      rw [← hkey e he hk]
      exact he
    · intro h
      have hsome : (es.reverse.find? fun e => e.1.keyText? == some key).isSome = true :=
        List.find?_isSome.mpr ⟨_, List.mem_reverse.mpr h, beq_self_eq_true _⟩
      obtain ⟨e, hfind⟩ := Option.isSome_iff_exists.mp hsome
      have he := List.mem_reverse.mp (List.mem_of_find?_eq_some hfind)
      have hk := List.find?_some hfind
      have heq : e = (.string key, v) := List.inj_on_of_nodup_map hn he h (hkey e he (beq_iff_eq.mp hk))
      rw [lastUnder, hfind, heq, Option.map_some]
  exact Option.ext fun v => (hmem v).trans (lookup_eq_some hn).symm

/-- Values that are expanded keep their places. -/
theorem lastUnder_expanded {es es' : List (Node × Node)} (h : List.Forall₂ Expanded es es') (key : String) :
    Option.Rel (fun n n' => expandMerges n = .ok n') (lastUnder key es) (lastUnder key es') := by
  have hfind : ∀ {fs fs' : List (Node × Node)}, List.Forall₂ Expanded fs fs' →
      Option.Rel (fun n n' => expandMerges n = .ok n') ((fs.find? fun e => e.1.keyText? == some key).map Prod.snd)
        ((fs'.find? fun e => e.1.keyText? == some key).map Prod.snd) := by
    intro fs fs' h
    induction h with
    | nil => exact Option.Rel.none
    | @cons e e' _ _ he _ ih =>
      by_cases hk : e.1.keyText? = some key
      · rw [List.find?_cons_of_pos (by simp [hk]), List.find?_cons_of_pos (by simp [he.1, hk])]
        exact Option.Rel.some he.2
      · rw [List.find?_cons_of_neg (by simpa using hk), List.find?_cons_of_neg (by simpa [he.1] using hk)]
        exact ih
  exact hfind (List.rel_reverse h)

end Yaml.Node

namespace Value

open Yaml

/-! ## The tree of a value -/

theorem toNode_seq (items : List Value) : toNode (.seq items) = (toNodes items).map .seq := rfl

theorem toNode_map (es : List (String × Value)) : toNode (.map es) = (toEntries es).map .map := rfl

theorem toNodes_cons (v : Value) (vs : List Value) :
    toNodes (v :: vs) = toNode v >>= fun n => toNodes vs >>= fun ns => pure (n :: ns) := rfl

theorem toEntries_cons (e : String × Value) (es : List (String × Value)) :
    toEntries (e :: es) = toNode e.2 >>= fun n => toEntries es >>= fun fs => pure ((.string e.1, n) :: fs) := rfl

theorem toNodes_eq_ok {vs : List Value} {ns : List Node} :
    toNodes vs = .ok ns ↔ List.Forall₂ (fun v n => toNode v = .ok n) vs ns := by
  induction vs generalizing ns with
  | nil => cases ns <;> simp [toNodes]
  | cons v vs ih =>
    simp only [toNodes_cons, bind_eq_ok, pure_eq_ok, ih]
    constructor
    · rintro ⟨n, hn, ms, hms, rfl⟩
      exact List.Forall₂.cons hn hms
    · rintro (_ | ⟨hn, hms⟩)
      exact ⟨_, hn, _, hms, rfl⟩

/-- The entry of a mapping is the one that the entry of a namespace is written as. -/
def Written (e : String × Value) (f : Node × Node) : Prop := f.1 = .string e.1 ∧ e.2.toNode = .ok f.2

theorem toEntries_eq_ok {es : List (String × Value)} {fs : List (Node × Node)} :
    toEntries es = .ok fs ↔ List.Forall₂ Written es fs := by
  induction es generalizing fs with
  | nil => cases fs <;> simp [toEntries]
  | cons e es ih =>
    simp only [toEntries_cons, bind_eq_ok, pure_eq_ok, ih]
    constructor
    · rintro ⟨n, hn, gs, hgs, rfl⟩
      exact List.Forall₂.cons ⟨rfl, hn⟩ hgs
    · rintro (_ | ⟨⟨hk, hn⟩, hgs⟩)
      exact ⟨_, hn, _, hgs, by rw [← hk]⟩

theorem toNode_path_eq_ok {p : Path} {n : Node} : toNode (.path p) = .ok n ↔ ∃ s, p = Path.ofString s ∧ .string s = n := by
  simp only [← Path.text_eq_some]
  cases hp : p.text? <;> simp [toNode, hp]

theorem toNode_seq_eq_ok {items : List Value} {n : Node} :
    toNode (.seq items) = .ok n ↔ ∃ ns, List.Forall₂ (fun v n => toNode v = .ok n) items ns ∧ .seq ns = n := by
  simp only [toNode_seq, map_eq_ok, toNodes_eq_ok]

theorem toNode_map_eq_ok {es : List (String × Value)} {n : Node} :
    toNode (.map es) = .ok n ↔ ∃ fs, List.Forall₂ Written es fs ∧ .map fs = n := by
  simp only [toNode_map, map_eq_ok, toEntries_eq_ok]

/-- Only sequences are written as sequences. -/
theorem eq_seq_of_toNode {v : Value} {ns : List Node} (h : v.toNode = .ok (.seq ns)) :
    ∃ items, v = .seq items ∧ List.Forall₂ (fun v n => toNode v = .ok n) items ns := by
  cases v with
  | seq items =>
    obtain ⟨ns', hns, heq⟩ := toNode_seq_eq_ok.mp h
    obtain rfl := Node.seq.inj heq
    exact ⟨items, rfl, hns⟩
  | map es =>
    obtain ⟨fs, -, heq⟩ := toNode_map_eq_ok.mp h
    nomatch heq
  | path p =>
    obtain ⟨s, -, heq⟩ := toNode_path_eq_ok.mp h
    nomatch heq
  | _ => nomatch h

/-- Only namespaces are written as mappings. -/
theorem eq_map_of_toNode {v : Value} {fs : List (Node × Node)} (h : v.toNode = .ok (.map fs)) :
    ∃ es, v = .map es ∧ List.Forall₂ Written es fs := by
  cases v with
  | map es =>
    obtain ⟨fs', hfs, heq⟩ := toNode_map_eq_ok.mp h
    obtain rfl := Node.map.inj heq
    exact ⟨es, rfl, hfs⟩
  | seq items =>
    obtain ⟨ns, -, heq⟩ := toNode_seq_eq_ok.mp h
    nomatch heq
  | path p =>
    obtain ⟨s, -, heq⟩ := toNode_path_eq_ok.mp h
    nomatch heq
  | _ => nomatch h

/-- The keys of a mapping that a namespace is written as are its keys. -/
theorem keys_of_written {es : List (String × Value)} {fs : List (Node × Node)} (h : List.Forall₂ Written es fs) :
    fs.map Prod.fst = es.map fun e => .string e.1 := by
  induction h with
  | nil => rfl
  | cons hw _ ih => rw [List.map_cons, List.map_cons, ih, hw.1]

theorem textKeys_of_written {es : List (String × Value)} {fs : List (Node × Node)} (h : List.Forall₂ Written es fs) :
    Node.TextKeys fs := by
  intro f hf
  obtain ⟨e, -, hk, -⟩ := exists_left_of_forall₂ h hf
  exact ⟨e.1, hk⟩

/-- Keys are distinct where those of the mapping that is written are. -/
theorem nodup_of_written {es : List (String × Value)} {fs : List (Node × Node)} (h : List.Forall₂ Written es fs)
    (hd : Node.DistinctKeys fs) : (es.map Prod.fst).Nodup := by
  have hn := hd.nodup (textKeys_of_written h)
  rw [keys_of_written h] at hn
  refine List.Nodup.of_map Node.string ?_
  rwa [List.map_map]

/-- The mappings of the tree are the namespaces of the value, written. -/
theorem within_of_toNode {v : Value} {n : Node} (h : v.toNode = .ok n) {fs : List (Node × Node)} (hw : n.Within fs) :
    ∃ es, v.Within es ∧ List.Forall₂ Written es fs := by
  induction v using induct generalizing n with
  | null | bool b | number m | string s =>
    cases h
    nomatch hw
  | path p =>
    obtain ⟨s, -, rfl⟩ := toNode_path_eq_ok.mp h
    nomatch hw
  | seq items ih =>
    obtain ⟨ns, hns, rfl⟩ := toNode_seq_eq_ok.mp h
    obtain ⟨n, hn, hw⟩ := Node.within_seq.mp hw
    obtain ⟨v, hv, hvn⟩ := exists_left_of_forall₂ hns hn
    obtain ⟨es, hes, hwritten⟩ := ih v hv hvn hw
    exact ⟨es, .item hv hes, hwritten⟩
  | map es ih =>
    obtain ⟨gs, hgs, rfl⟩ := toNode_map_eq_ok.mp h
    rcases Node.within_map.mp hw with rfl | ⟨g, hg, hw⟩
    · exact ⟨es, .self es, hgs⟩
    · obtain ⟨e, he, -, hen⟩ := exists_left_of_forall₂ hgs hg
      obtain ⟨es', hes', hwritten⟩ := ih e he hen hw
      exact ⟨es', .value he hes', hwritten⟩

/-- The namespaces of the value are written as mappings of the tree. -/
theorem within_toNode {v : Value} {n : Node} (h : v.toNode = .ok n) {es : List (String × Value)} (hw : v.Within es) :
    ∃ fs, n.Within fs ∧ List.Forall₂ Written es fs := by
  induction hw generalizing n with
  | self es =>
    obtain ⟨fs, hfs, rfl⟩ := toNode_map_eq_ok.mp h
    exact ⟨fs, .self fs, hfs⟩
  | item hv _ ih =>
    obtain ⟨ns, hns, rfl⟩ := toNode_seq_eq_ok.mp h
    obtain ⟨n, hn, hvn⟩ := exists_right_of_forall₂ hns hv
    obtain ⟨fs, hw, hwritten⟩ := ih hvn
    exact ⟨fs, .item hn hw, hwritten⟩
  | value he _ ih =>
    obtain ⟨gs, hgs, rfl⟩ := toNode_map_eq_ok.mp h
    obtain ⟨g, hg, -, hen⟩ := exists_right_of_forall₂ hgs he
    obtain ⟨fs, hw, hwritten⟩ := ih hen
    exact ⟨fs, .value hg hw, hwritten⟩

/-- A value that is written as a tree with distinct keys has distinct keys. -/
theorem distinct_of_toNode {v : Value} {n : Node} (h : v.toNode = .ok n) (hd : n.Distinct) : v.Distinct := by
  intro es hw
  obtain ⟨fs, hfs, hwritten⟩ := within_toNode h hw
  exact nodup_of_written hwritten (hd fs hfs)

/-- A value has the merge key somewhere exactly where its tree has a merge entry. -/
theorem hasMergeEntry_toNode {v : Value} {n : Node} (h : v.toNode = .ok n) : n.HasMergeEntry ↔ v.HasKey "<<" := by
  have hkey : ∀ {es fs}, List.Forall₂ Written es fs →
      ((∃ f ∈ fs, f.1 = Node.mergeKey) ↔ "<<" ∈ es.map Prod.fst) := by
    intro es fs hwritten
    have hmem : (∃ f ∈ fs, f.1 = Node.mergeKey) ↔ Node.mergeKey ∈ fs.map Prod.fst := by simp
    rw [hmem, keys_of_written hwritten]
    simp [Node.mergeKey]
  constructor
  · rintro ⟨fs, hw, hf⟩
    obtain ⟨es, hes, hwritten⟩ := within_of_toNode h hw
    exact ⟨es, hes, (hkey hwritten).mp hf⟩
  · rintro ⟨es, hw, hk⟩
    obtain ⟨fs, hfs, hwritten⟩ := within_toNode h hw
    exact ⟨fs, hfs, (hkey hwritten).mpr hk⟩

/-- A tree is as large as the value it is written for. -/
theorem size_toNode {v : Value} {n : Node} (h : v.toNode = .ok n) : n.size = v.size := by
  induction v using induct generalizing n with
  | null | bool b | number m | string s =>
    cases h
    rfl
  | path p =>
    obtain ⟨s, -, rfl⟩ := toNode_path_eq_ok.mp h
    rfl
  | seq items ih =>
    obtain ⟨ns, hns, rfl⟩ := toNode_seq_eq_ok.mp h
    have hsizes : items.map size = ns.map Node.size :=
      map_eq_of_forall₂ (forall₂_imp_of_mem hns fun v hv _ _ hn => (ih v hv hn).symm)
    rw [Node.size_seq, size_seq, hsizes]
  | map es ih =>
    obtain ⟨fs, hfs, rfl⟩ := toNode_map_eq_ok.mp h
    have hsizes : (es.map fun e => e.2.size) = fs.map fun f => f.2.size :=
      map_eq_of_forall₂ (forall₂_imp_of_mem hfs fun e he _ _ hf => (ih e he hf.2).symm)
    rw [Node.size_map, size_map, hsizes]

/-! ## The value of a tree -/

theorem ofNodes_eq_map (ns : List Node) : ofNodes ns = ns.map ofNode := by
  induction ns with
  | nil => rfl
  | cons n ns ih => exact congrArg (ofNode n :: ·) ih

theorem ofNode_seq (ns : List Node) : ofNode (.seq ns) = .seq (ns.map ofNode) := congrArg seq (ofNodes_eq_map ns)

theorem ofNode_map (es : List (Node × Node)) : ofNode (.map es) = .ofNamespace (Namespace.ofMapping es) := rfl

theorem ofNode_tagged (tag : String) (n : Node) : ofNode (.tagged tag n) = ofNode n := rfl

/-- An entry under a key without a text is left out. -/
theorem ofEntries_cons_of_none {f : Node × Node} (h : f.1.keyText? = none) (fs : List (Node × Node)) :
    ofEntries (f :: fs) = ofEntries fs := by
  rw [ofEntries, h]

theorem ofEntries_cons_of_some {f : Node × Node} {key : String} (h : f.1.keyText? = some key) (fs : List (Node × Node)) :
    ofEntries (f :: fs) = (key, ofNode f.2) :: ofEntries fs := by
  rw [ofEntries, h]

/-- The entries under keys that have a text, each under its text. -/
theorem ofEntries_eq_filterMap (fs : List (Node × Node)) :
    ofEntries fs = fs.filterMap fun f => f.1.keyText?.map fun key => (key, ofNode f.2) := by
  induction fs with
  | nil => rfl
  | cons f fs ih =>
    cases hk : f.1.keyText? with
    | none => rw [ofEntries_cons_of_none hk, ih, List.filterMap_cons_none (by rw [hk]; rfl)]
    | some key => rw [ofEntries_cons_of_some hk, ih, List.filterMap_cons_some (by rw [hk]; rfl)]

/-- Under string keys all entries are kept. -/
theorem ofEntries_of_written {es : List (String × Value)} {fs : List (Node × Node)} (h : List.Forall₂ Written es fs) :
    ofEntries fs = fs.map fun f => ((f.1.keyText?).getD "", ofNode f.2) := by
  induction h with
  | nil => rfl
  | @cons e f _ _ hw _ ih =>
    have hk : f.1.keyText? = some e.1 := by rw [hw.1, Node.keyText?]
    rw [ofEntries_cons_of_some hk, List.map_cons, ← ih, hk]
    rfl

theorem mem_ofEntries {fs : List (Node × Node)} {e : String × Value} :
    e ∈ ofEntries fs ↔ ∃ f ∈ fs, f.1.keyText? = some e.1 ∧ ofNode f.2 = e.2 := by
  simp only [ofEntries_eq_filterMap, List.mem_filterMap, Option.map_eq_some_iff]
  constructor
  · rintro ⟨f, hf, key, hk, rfl⟩
    exact ⟨f, hf, hk, rfl⟩
  · rintro ⟨f, hf, hk, hv⟩
    exact ⟨f, hf, e.1, hk, by rw [hv]⟩

/-- The entries that a mapping keeps stand in it. -/
theorem mem_of_mem_ofMapping {fs : List (Node × Node)} {e : String × Value} (h : e ∈ (Namespace.ofMapping fs).entries) :
    ∃ f ∈ fs, f.1.keyText? = some e.1 ∧ ofNode f.2 = e.2 :=
  mem_ofEntries.mp (Namespace.mem_of_mem_ofPairs h)

/-- What a namespace holds under a key is the last value of the mapping under a key with that text. -/
theorem getRaw_ofMapping (es : List (Node × Node)) (key : String) :
    (Namespace.ofMapping es).getRaw? key = (Node.lastUnder key es).map ofNode := by
  rw [Namespace.ofMapping, Namespace.getRaw_ofPairs, ofEntries_eq_filterMap, ← List.filterMap_reverse, Node.lastUnder]
  induction es.reverse with
  | nil => rfl
  | cons e rest ih =>
    cases hk : e.1.keyText? with
    | none =>
      rw [List.filterMap_cons_none (by rw [hk]; rfl), ih, List.find?_cons_of_neg (by simp [hk])]
    | some k =>
      rw [List.filterMap_cons_some (by rw [hk]; rfl), Namespace.lookup_cons, ih]
      by_cases heq : key = k
      · rw [if_pos heq, List.find?_cons_of_pos (by simp [hk, heq])]
        rfl
      · rw [if_neg heq, List.find?_cons_of_neg (by simpa [hk] using Ne.symm heq)]

/-- The value of a tree has distinct keys. -/
theorem distinct_ofNode (n : Node) : (ofNode n).Distinct := by
  intro es hw
  induction n using Node.induct with
  | null | bool b | number m | string s => nomatch hw
  | seq items ih =>
    rw [ofNode_seq] at hw
    obtain ⟨v, hv, hw⟩ := within_seq.mp hw
    obtain ⟨n, hn, rfl⟩ := List.mem_map.mp hv
    exact ih n hn hw
  | map fs ih =>
    rw [ofNode_map] at hw
    rcases within_map.mp hw with rfl | ⟨e, he, hw⟩
    · exact Namespace.nodup_ofPairs (ofEntries fs)
    · obtain ⟨f, hf, -, hv⟩ := mem_of_mem_ofMapping he
      exact ih f hf (hv ▸ hw)
  | tagged tag n ih => exact ih hw

/-- The value of a tree is not larger than the tree. -/
theorem size_ofNode_le (n : Node) : (ofNode n).size ≤ n.size := by
  induction n using Node.induct with
  | null | bool b | number m | string s => exact Nat.le_refl _
  | seq items ih =>
    rw [ofNode_seq, size_seq, Node.size_seq, List.map_map]
    exact Nat.succ_le_succ (List.sum_le_sum ih)
  | map fs ih =>
    have hpairs : sizeEntries (ofEntries fs) ≤ Node.sizeEntries fs := by
      induction fs with
      | nil => exact Nat.le_refl _
      | cons f fs ih' =>
        have hrest := ih' fun g hg => ih g (List.mem_cons_of_mem f hg)
        have hfirst := ih f List.mem_cons_self
        cases hk : f.1.keyText? with
        | none =>
          rw [ofEntries_cons_of_none hk, Node.sizeEntries]
          omega
        | some key =>
          rw [ofEntries_cons_of_some hk, sizeEntries, Node.sizeEntries]
          omega
    exact Nat.succ_le_succ ((sizeEntries_ofPairs_le _).trans hpairs)
  | tagged tag n ih =>
    rw [ofNode_tagged, Node.size_tagged]
    omega

end Value

end ClusterConfig
