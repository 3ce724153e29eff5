import ClusterConfig.Proofs.MergeKeys

/-!
# Precedence of explicit keys

A mapping with a merge entry gets what is missing of the merged entries after its explicit ones, and a key is missing when none
means the same. The namespace goes by the texts of keys, of which the last one counts. Two keys with the same text may differ in
meaning, as the string `1` and the number do, and then a merged entry takes the place of an explicit one. `Settled` says where
this does not happen, and `Strays` what stands in the namespace where it does.
-/

namespace ClusterConfig

namespace Yaml.Node

/-! ## What precedence asks for -/

/-- The entries of a mapping but for its merge entry. -/
def explicit (es : List (Node × Node)) : List (Node × Node) := es.filter fun e => e.1 ≠ mergeKey

/-- The entries that stay are the explicit ones. -/
theorem mem_own_iff_explicit {es : List (Node × Node)} (hd : DistinctKeys es) (e : Node × Node) : e ∈ own es ↔ e ∈ explicit es := by
  rw [mem_own hd, explicit, List.mem_filter, decide_eq_true_iff]

/-- Under the text stands what the value of one of the entries, with a key that reads so, has become. -/
def TakenFrom (ns : Namespace) (key : String) (es : List (Node × Node)) : Prop :=
  ∃ e ∈ es, e.1.keyText? = some key ∧ ∃ n, expandMerges e.2 = .ok n ∧ ns.getRaw? key = some (Value.ofNode n)

theorem TakenFrom.mono {ns : Namespace} {key : String} {es fs : List (Node × Node)} (h : TakenFrom ns key es)
    (hsub : ∀ e ∈ es, e ∈ fs) : TakenFrom ns key fs := by
  obtain ⟨e, he, htaken⟩ := h
  exact ⟨e, hsub e he, htaken⟩

/-- Under the text stands an explicit entry if any reads so, and otherwise one of the earliest merged mapping that has any. -/
structure FollowsPrecedence (ns : Namespace) (key : String) (own : List (Node × Node))
    (sources : List (List (Node × Node))) : Prop where
  explicit : Reads own key → TakenFrom ns key own
  earliest : ¬Reads own key → ∀ before src after, sources = before ++ src :: after → ¬Reads before.flatten key →
    Reads src key → TakenFrom ns key src

/-- The meaning of keys settles the text as precedence does. If an explicit entry reads so, no missing one does; otherwise, in the
earliest merged mapping that has any, one is missing, and none is in later ones. -/
structure Settled (own : List (Node × Node)) (sources : List (List (Node × Node))) (key : String) : Prop where
  explicit : Reads own key → ¬Reads (missing own sources.flatten) key
  earliest : ¬Reads own key → ∀ before src after, sources = before ++ src :: after → ¬Reads before.flatten key →
    Reads src key → Reads (missing (addMissing own before.flatten) src) key ∧
      ¬Reads (missing (addMissing own (before.flatten ++ src)) after.flatten) key

/-- Under the text stands a merged entry although an explicit one reads so, or an entry of a later merged mapping or nothing
although an earlier one has an entry that reads so. -/
inductive Strays (ns : Namespace) (key : String) (own : List (Node × Node)) (sources : List (List (Node × Node))) : Prop where
  | merged : Reads own key → TakenFrom ns key (missing own sources.flatten) → Strays ns key own sources
  | later {before after : List (List (Node × Node))} {src : List (Node × Node)} : ¬Reads own key →
      sources = before ++ src :: after → ¬Reads before.flatten key → Reads src key → TakenFrom ns key after.flatten →
      Strays ns key own sources
  | lost {before after : List (List (Node × Node))} {src : List (Node × Node)} : ¬Reads own key →
      sources = before ++ src :: after → ¬Reads before.flatten key → Reads src key → ns.getRaw? key = none →
      Strays ns key own sources

/-- A key with the text means the same as exactly those with the text. -/
def TextDecides (es : List (Node × Node)) (key : String) : Prop :=
  ∀ e ∈ es, ∀ f ∈ es, e.1.keyText? = some key → (e.1.same f.1 = true ↔ f.1.keyText? = some key)

/-- String keys mean the same where they have the same text. -/
theorem textDecides_of_textKeys {es : List (Node × Node)} (ht : TextKeys es) (key : String) : TextDecides es key := by
  intro e he f hf hkey
  obtain ⟨s, hs⟩ := ht e he
  obtain ⟨t, ht⟩ := ht f hf
  rw [hs] at hkey
  obtain rfl : s = key := Option.some.inj hkey
  rw [hs, ht, same_string, keyText?, Node.string.injEq, Option.some.injEq]

/-! ## Where texts decide -/

theorem reads_addMissing {es merged : List (Node × Node)} {key : String} :
    Reads (addMissing es merged) key ↔ Reads es key ∨ Reads (missing es merged) key := by
  rw [addMissing_eq, reads_append]

section

variable {all es merged : List (Node × Node)} {key : String} (h : TextDecides all key) (hes : es ⊆ all) (hmerged : merged ⊆ all)

include h hes hmerged

/-- Nothing is missing under a text that a key of the mapping has. -/
theorem TextDecides.not_reads_missing (hreads : Reads es key) : ¬Reads (missing es merged) key := by
  rintro ⟨e, he, hke⟩
  obtain ⟨f, hf, hkf⟩ := hreads
  have hmem : e ∈ merged := (missing_sublist es merged).subset he
  have hsame : e.1.same f.1 = true := (h e (hmerged hmem) f (hes hf) hke).mpr hkf
  exact not_same_of_mem_missing he hf hsame

/-- Under a text that a merged key has there is an entry afterwards. -/
theorem TextDecides.reads_addMissing (hreads : Reads merged key) : Reads (addMissing es merged) key := by
  obtain ⟨e, he, hke⟩ := hreads
  have hadded : e ∈ addMissing es merged ∨ ∃ f ∈ addMissing es merged, e.1.same f.1 = true := exists_key_addMissing he
  rcases hadded with hmem | ⟨f, hf, hsame⟩
  · exact ⟨e, hmem, hke⟩
  · have hall : f ∈ all := (mem_of_mem_addMissing hf).elim (fun hmem => hes hmem) (fun hmem => hmerged hmem)
    exact ⟨f, hf, (h e (hmerged he) f hall hke).mp hsame⟩

end

/-- Of merged entries the earliest under a text are missing, and no later ones. -/
theorem TextDecides.earliest {own before src after : List (Node × Node)} {key : String}
    (h : TextDecides (own ++ (before ++ (src ++ after))) key) (hown : ¬Reads own key) (hbefore : ¬Reads before key)
    (hsrc : Reads src key) :
    Reads (missing (addMissing own before) src) key ∧ ¬Reads (missing (addMissing own (before ++ src)) after) key := by
  have hfirst : addMissing own before ⊆ own ++ (before ++ (src ++ after)) := by
    intro e he
    have hmem := mem_of_mem_addMissing he
    simp only [List.mem_append]
    tauto
  have hsecond : addMissing own (before ++ src) ⊆ own ++ (before ++ (src ++ after)) := by
    intro e he
    have hmem := mem_of_mem_addMissing he
    simp only [List.mem_append] at hmem ⊢
    tauto
  have hreads : Reads (addMissing own (before ++ src)) key := by
    rw [addMissing_append]
    exact h.reads_addMissing hfirst (fun e he => by simp [he]) hsrc
  refine ⟨?_, h.not_reads_missing hsecond (fun e he => by simp [he]) hreads⟩
  rw [addMissing_append, Node.reads_addMissing, Node.reads_addMissing] at hreads
  refine hreads.resolve_left (not_or.mpr ⟨hown, fun hmissing => hbefore ?_⟩)
  exact hmissing.mono fun e he => (missing_sublist own before).subset he

/-- Where texts decide what keys mean, precedence is settled. -/
theorem settled_of_textDecides {own : List (Node × Node)} {sources : List (List (Node × Node))} {key : String}
    (h : TextDecides (own ++ sources.flatten) key) : Settled own sources key := by
  constructor
  case explicit => exact h.not_reads_missing (List.subset_append_left _ _) (List.subset_append_right _ _)
  case earliest =>
    rintro hown before src after rfl hbefore hsrc
    rw [List.flatten_append, List.flatten_cons] at h
    exact h.earliest hown hbefore hsrc

/-! ## What stands in the namespace -/

section

variable {merged es' : List (Node × Node)} (he : List.Forall₂ Expanded merged es') {key : String}

include he

/-- Under a text the namespace holds what the value of the last entry has become. -/
theorem getRaw_of_lastUnder {n : Node} (hlast : lastUnder key merged = some n) :
    ∃ n', expandMerges n = .ok n' ∧ (Namespace.ofMapping es').getRaw? key = some (Value.ofNode n') := by
  obtain ⟨n', hfound, hexpand⟩ := exists_of_rel (lastUnder_expanded he key) hlast
  refine ⟨n', hexpand, ?_⟩
  rw [Value.getRaw_ofMapping, hfound, Option.map_some]

theorem getRaw_of_lastUnder_eq_none (hlast : lastUnder key merged = none) :
    (Namespace.ofMapping es').getRaw? key = none := by
  rw [Value.getRaw_ofMapping, eq_none_of_rel (lastUnder_expanded he key) hlast, Option.map_none]

/-- Where the last entry of the mapping is the last one of some entries, the namespace takes it from these. -/
theorem takenFrom_of_lastUnder {fs : List (Node × Node)} (hlast : lastUnder key merged = lastUnder key fs)
    (hreads : Reads fs key) : TakenFrom (Namespace.ofMapping es') key fs := by
  cases hn : lastUnder key fs with
  | none => exact absurd hreads (lastUnder_eq_none.mp hn)
  | some n =>
    obtain ⟨e, hmem, hkey, rfl⟩ := mem_of_lastUnder hn
    exact ⟨e, hmem, hkey, getRaw_of_lastUnder he (hlast.trans hn)⟩

end

/-- The mapping holds the entries of `own`, in whatever order, and then those of the merged mappings that are missing in them. -/
def Merges (own : List (Node × Node)) (sources : List (List (Node × Node))) (merged : List (Node × Node)) : Prop :=
  ∃ kept, (∀ e, e ∈ kept ↔ e ∈ own) ∧ merged = kept ++ missing own sources.flatten

section

variable {own merged : List (Node × Node)} {sources : List (List (Node × Node))} {key : String}
  (h : Merges own sources merged)

include h

theorem Merges.lastUnder_missing (hreads : Reads (missing own sources.flatten) key) :
    lastUnder key merged = lastUnder key (missing own sources.flatten) := by
  obtain ⟨kept, -, rfl⟩ := h
  exact lastUnder_append_of_reads hreads kept

theorem Merges.exists_lastUnder_own (hno : ¬Reads (missing own sources.flatten) key) :
    ∃ kept, (∀ e, e ∈ kept ↔ e ∈ own) ∧ lastUnder key merged = lastUnder key kept := by
  obtain ⟨kept, hkept, rfl⟩ := h
  exact ⟨kept, hkept, lastUnder_append_of_not_reads hno kept⟩

/-- Under a text that no entry before it has, the last one is missing in what is there before. -/
theorem Merges.lastUnder_earliest {before after : List (List (Node × Node))} {src : List (Node × Node)}
    (hown : ¬Reads own key) (hsources : sources = before ++ src :: after) (hbefore : ¬Reads before.flatten key) :
    lastUnder key merged = lastUnder key (missing (addMissing own before.flatten) src ++
      missing (addMissing own (before.flatten ++ src)) after.flatten) := by
  obtain ⟨kept, hkept, rfl⟩ := h
  have hkeptno : ¬Reads kept key := fun hreads => hown (hreads.mono fun e hmem => (hkept e).mp hmem)
  have hfirst : ¬Reads (missing own before.flatten) key := fun hreads =>
    hbefore (hreads.mono fun e hmem => (missing_sublist own before.flatten).subset hmem)
  have hnone : lastUnder key (kept ++ missing own before.flatten) = none :=
    lastUnder_eq_none.mpr fun hreads => (reads_append.mp hreads).elim hkeptno hfirst
  rw [hsources, List.flatten_append, List.flatten_cons, missing_append, missing_append, ← addMissing_append,
    ← List.append_assoc, lastUnder_append, hnone, Option.or_none]

end

section

variable {own merged es' : List (Node × Node)} {sources : List (List (Node × Node))} {key : String}
  (hm : Merges own sources merged) (he : List.Forall₂ Expanded merged es')

include hm he

theorem takenFrom_own (hreads : Reads own key) (hno : ¬Reads (missing own sources.flatten) key) :
    TakenFrom (Namespace.ofMapping es') key own := by
  obtain ⟨kept, hkept, hlast⟩ := hm.exists_lastUnder_own hno
  have hreads' : Reads kept key := hreads.mono fun e hmem => (hkept e).mpr hmem
  have htaken : TakenFrom (Namespace.ofMapping es') key kept := takenFrom_of_lastUnder he hlast hreads'
  exact htaken.mono fun e hmem => (hkept e).mp hmem

/-- Of a text that no entry before a merged mapping has, the namespace takes what comes last of this one and of later ones. -/
theorem takenFrom_earliest {before after : List (List (Node × Node))} {src : List (Node × Node)}
    (hown : ¬Reads own key) (hsources : sources = before ++ src :: after) (hbefore : ¬Reads before.flatten key) :
    (Reads (missing (addMissing own (before.flatten ++ src)) after.flatten) key →
        TakenFrom (Namespace.ofMapping es') key after.flatten) ∧
      (¬Reads (missing (addMissing own (before.flatten ++ src)) after.flatten) key →
        (Reads (missing (addMissing own before.flatten) src) key → TakenFrom (Namespace.ofMapping es') key src) ∧
        (¬Reads (missing (addMissing own before.flatten) src) key → (Namespace.ofMapping es').getRaw? key = none)) := by
  have hlast := hm.lastUnder_earliest hown hsources hbefore
  refine ⟨fun hafter => ?_, fun hafter => ?_⟩
  · rw [lastUnder_append_of_reads hafter] at hlast
    exact (takenFrom_of_lastUnder he hlast hafter).mono fun e hmem => (missing_sublist _ _).subset hmem
  · rw [lastUnder_append_of_not_reads hafter] at hlast
    refine ⟨fun hsrc => ?_, fun hsrc => ?_⟩
    · exact (takenFrom_of_lastUnder he hlast hsrc).mono fun e hmem => (missing_sublist _ _).subset hmem
    · rw [lastUnder_eq_none.mpr hsrc] at hlast
      exact getRaw_of_lastUnder_eq_none he hlast

/-- What is settled follows precedence. -/
theorem followsPrecedence_of_settled (h : Settled own sources key) :
    FollowsPrecedence (Namespace.ofMapping es') key own sources := by
  constructor
  case explicit =>
    intro hown
    exact takenFrom_own hm he hown (h.explicit hown)
  case earliest =>
    intro hown before src after hsources hbefore hsrc
    obtain ⟨hreads, hafter⟩ := h.earliest hown before src after hsources hbefore hsrc
    exact ((takenFrom_earliest hm he hown hsources hbefore).2 hafter).1 hreads

/-- What is not settled strays. -/
theorem strays_of_not_settled (h : ¬Settled own sources key) : Strays (Namespace.ofMapping es') key own sources := by
  by_contra hno
  refine h ⟨fun hown hmissing => hno ?_, fun hown before src after hsources hbefore hsrc => ?_⟩
  · exact Strays.merged hown (takenFrom_of_lastUnder he (hm.lastUnder_missing hmissing) hmissing)
  · obtain ⟨hlater, hearliest⟩ := takenFrom_earliest hm he hown hsources hbefore
    have hafter : ¬Reads (missing (addMissing own (before.flatten ++ src)) after.flatten) key := fun hreads =>
      hno (Strays.later hown hsources hbefore hsrc (hlater hreads))
    refine ⟨?_, hafter⟩
    by_contra hreads
    exact hno (Strays.lost hown hsources hbefore hsrc ((hearliest hafter).2 hreads))

end

/-- A mapping with a merge entry merges what this names into its explicit entries. -/
theorem merges_of_mergeEntries {es merged : List (Node × Node)} (hm : mergeEntries es = .ok merged) (hd : DistinctKeys es)
    {value : Node} (hv : (mergeKey, value) ∈ es) :
    ∃ sources, mergeSources value = .ok sources ∧ Merges (explicit es) sources merged := by
  obtain ⟨sources, hsources, hbrought⟩ := broughtIn_of_mem hm hd hv
  have hexplicit : ∀ e, e ∈ own es ↔ e ∈ explicit es := mem_own_iff_explicit hd
  refine ⟨sources, hsources, own es, hexplicit, ?_⟩
  rw [mergeEntries_eq hm, addMissing_eq, hbrought, missing_congr hexplicit]

/-! ## The place of a mapping -/

/-- The entries are those of the namespace in the value that stands where the tree keeps the mapping. -/
inductive Becomes : Node → Value → List (Node × Node) → List (String × Value) → Prop where
  | self (es : List (Node × Node)) (entries : List (String × Value)) : Becomes (.map es) (.map entries) es entries
  | item {items : List Node} {values : List Value} {i : Nat} {n : Node} {v : Value} {es : List (Node × Node)}
      {entries : List (String × Value)} : items[i]? = some n → values[i]? = some v → Becomes n v es entries →
      Becomes (.seq items) (.seq values) es entries
  | value {fs merged : List (Node × Node)} {fields : List (String × Value)} {key : String} {n : Node} {v : Value}
      {es : List (Node × Node)} {entries : List (String × Value)} : mergeEntries fs = .ok merged →
      lastUnder key merged = some n → fields.lookup key = some v → Becomes n v es entries →
      Becomes (.map fs) (.map fields) es entries
  | tagged {tag : String} {n : Node} {v : Value} {es : List (Node × Node)} {entries : List (String × Value)} :
      Becomes n v es entries → Becomes (.tagged tag n) v es entries

/-- A mapping that is kept stands in the tree. -/
theorem Keeps.within {n : Node} {es : List (Node × Node)} (h : n.Keeps es) : n.Within es := by
  induction h with
  | self es => exact .self es
  | item hn _ ih => exact .item hn ih
  | value hm hlast _ ih =>
    obtain ⟨e, he, -, rfl⟩ := mem_of_lastUnder hlast
    obtain ⟨f, hf, hw⟩ := within_of_mem_mergeEntries hm he ih
    exact .value hf hw
  | tagged _ ih => exact .tagged ih

/-- A mapping that is kept has a place in the value. -/
theorem Keeps.exists_becomes {n n' : Node} {es : List (Node × Node)} (h : n.Keeps es) (hexpand : expandMerges n = .ok n') :
    ∃ entries, n.Becomes (Value.ofNode n') es entries := by
  induction h generalizing n' with
  | self es =>
    obtain ⟨merged, es', -, -, rfl⟩ := expandMerges_map_eq_ok.mp hexpand
    exact ⟨_, .self es _⟩
  | item hn _ ih =>
    obtain ⟨items', hitems, rfl⟩ := expandMerges_seq_eq_ok.mp hexpand
    obtain ⟨i, hi⟩ := List.mem_iff_getElem?.mp hn
    obtain ⟨n', hi', hexpand⟩ := exists_getElem?_of_forall₂ hitems hi
    obtain ⟨entries, hbecomes⟩ := ih hexpand
    rw [Value.ofNode_seq]
    exact ⟨entries, .item hi (by rw [List.getElem?_map, hi', Option.map_some]) hbecomes⟩
  | value hm hlast _ ih =>
    obtain ⟨merged, es', hm', he, rfl⟩ := expandMerges_map_eq_ok.mp hexpand
    obtain rfl := Except.ok.inj (hm.symm.trans hm')
    obtain ⟨n', hexpand, hlookup⟩ := getRaw_of_lastUnder he hlast
    obtain ⟨entries, hbecomes⟩ := ih hexpand
    exact ⟨entries, .value hm hlast hlookup hbecomes⟩
  | tagged _ ih =>
    obtain ⟨inner, hinner, rfl⟩ := expandMerges_tagged_eq_ok.mp hexpand
    obtain ⟨entries, hbecomes⟩ := ih hinner
    exact ⟨entries, .tagged hbecomes⟩

/-- What stands in the place of a mapping is its namespace. -/
theorem Becomes.eq_ofMapping {n n' : Node} {es : List (Node × Node)} {entries : List (String × Value)}
    (h : n.Becomes (Value.ofNode n') es entries) (hexpand : expandMerges n = .ok n') :
    ∃ merged es', mergeEntries es = .ok merged ∧ List.Forall₂ Expanded merged es' ∧
      entries = (Namespace.ofMapping es').entries := by
  generalize hv : Value.ofNode n' = v at h
  induction h generalizing n' with
  | self es entries =>
    obtain ⟨merged, es', hm, he, rfl⟩ := expandMerges_map_eq_ok.mp hexpand
    exact ⟨merged, es', hm, he, (Value.map.inj hv).symm⟩
  | item hi hvalue _ ih =>
    obtain ⟨items', hitems, rfl⟩ := expandMerges_seq_eq_ok.mp hexpand
    obtain ⟨n', hi', hexpand⟩ := exists_getElem?_of_forall₂ hitems hi
    rw [Value.ofNode_seq, Value.seq.injEq] at hv
    rw [← hv, List.getElem?_map, hi', Option.map_some, Option.some.injEq] at hvalue
    exact ih hexpand hvalue
  | value hm hlast hlookup _ ih =>
    obtain ⟨merged, es', hm', he, rfl⟩ := expandMerges_map_eq_ok.mp hexpand
    obtain rfl := Except.ok.inj (hm.symm.trans hm')
    obtain ⟨n', hexpand, hfound⟩ := getRaw_of_lastUnder he hlast
    rw [Value.ofNode_map] at hv
    obtain rfl := Value.map.inj hv
    exact ih hexpand (Option.some.inj (hfound.symm.trans hlookup))
  | tagged _ ih =>
    obtain ⟨inner, hinner, rfl⟩ := expandMerges_tagged_eq_ok.mp hexpand
    exact ih hinner hv

end Yaml.Node

namespace Config

open Yaml

/-- Every mapping with a merge entry that the document keeps has a place in the loaded namespace. There each text is settled by
the meaning of keys and follows precedence, or is not and strays. Where the texts of explicit and merged keys decide what they
mean, as those of strings do, precedence is followed. -/
theorem load_precedence {fs : FileSystem} {file : Path} {host : Host} {text : String} {doc : Node} {c : Config}
    (htext : fs.readText file = .ok text) (hdoc : Yaml.read text = .ok doc) (hload : load fs file host = .ok c)
    {es : List (Node × Node)} (hkeeps : doc.Keeps es) {value : Node} (hvalue : (Node.mergeKey, value) ∈ es) :
    ∃ sources, Node.mergeSources value = .ok sources ∧
      (∃ entries, doc.Becomes (.ofNamespace c.fields) es entries) ∧
      ∀ entries, doc.Becomes (.ofNamespace c.fields) es entries → ∀ key,
        (Node.Settled (Node.explicit es) sources key →
          Node.FollowsPrecedence ⟨entries⟩ key (Node.explicit es) sources) ∧
        (¬Node.Settled (Node.explicit es) sources key → Node.Strays ⟨entries⟩ key (Node.explicit es) sources) ∧
        (Node.TextDecides (Node.explicit es ++ sources.flatten) key →
          Node.FollowsPrecedence ⟨entries⟩ key (Node.explicit es) sources) := by
  obtain ⟨text', doc', expanded, htext', hdoc', hexpand, rfl⟩ := load_eq_ok.mp hload
  obtain rfl : text' = text := Except.ok.inj (htext'.symm.trans htext)
  obtain rfl : doc' = doc := Except.ok.inj (hdoc'.symm.trans hdoc)
  obtain ⟨entries, hplace⟩ := hkeeps.exists_becomes hexpand
  have hd : Node.DistinctKeys es := distinct_of_read hdoc es hkeeps.within
  obtain ⟨merged, -, hm, -, -⟩ := hplace.eq_ofMapping hexpand
  obtain ⟨sources, hsources, hmerges⟩ := Node.merges_of_mergeEntries hm hd hvalue
  refine ⟨sources, hsources, ⟨entries, hplace⟩, fun entries' hplace' key => ?_⟩
  obtain ⟨merged', es', hm', he, rfl⟩ := hplace'.eq_ofMapping hexpand
  obtain rfl : merged' = merged := Except.ok.inj (hm'.symm.trans hm)
  have hfollows : Node.Settled (Node.explicit es) sources key →
      Node.FollowsPrecedence (Namespace.ofMapping es') key (Node.explicit es) sources :=
    Node.followsPrecedence_of_settled hmerges he
  exact ⟨hfollows, Node.strays_of_not_settled hmerges he, fun h => hfollows (Node.settled_of_textDecides h)⟩

/-- An explicit key that is also merged in by an alias. -/
theorem load_precedence_alias :
    load (.holding "a: &x {k: old, l: left}\nm: {<<: *x, k: new}\n") ⟨[99]⟩ (.fixed 0 none "h") =
        .ok (wrap ⟨[("a", .map [("k", .string "old"), ("l", .string "left")]),
          ("m", .map [("k", .string "new"), ("l", .string "left")])]⟩ (.fixed 0 none "h")) ∧
      Node.FollowsPrecedence ⟨[("k", .string "new"), ("l", .string "left")]⟩ "k" [(.string "k", .string "new")]
        [[(.string "k", .string "old"), (.string "l", .string "left")]] := by
  let merged : List (Node × Node) := [(.string "k", .string "old"), (.string "l", .string "left")]
  let es : List (Node × Node) := [(.string "<<", .map merged), (.string "k", .string "new")]
  let root : List (Node × Node) := [(.string "a", .map merged), (.string "m", .map es)]
  have hdoc : Yaml.read "a: &x {k: old, l: left}\nm: {<<: *x, k: new}\n" = .ok (.map root) := by rfl
  have htext := FileSystem.readText_holding "a: &x {k: old, l: left}\nm: {<<: *x, k: new}\n"
  have hload : load (.holding "a: &x {k: old, l: left}\nm: {<<: *x, k: new}\n") ⟨[99]⟩ (.fixed 0 none "h") =
      .ok (wrap ⟨[("a", .map [("k", .string "old"), ("l", .string "left")]),
        ("m", .map [("k", .string "new"), ("l", .string "left")])]⟩ (.fixed 0 none "h")) :=
    load_eq_ok.mpr ⟨_, _, _, htext, hdoc, rfl, rfl⟩
  have hmerge : Node.mergeEntries root = .ok root := by rfl
  have hlast : Node.lastUnder "m" root = some (.map es) := by rfl
  have hkeeps : (Node.map root).Keeps es := .value hmerge hlast (.self es)
  obtain ⟨sources, hsources, -, hplace⟩ := load_precedence htext hdoc hload hkeeps List.mem_cons_self
  obtain rfl : [merged] = sources := Except.ok.inj hsources
  have hkeys : Node.TextKeys (Node.explicit es ++ [merged].flatten) := by
    have hentries : Node.explicit es ++ [merged].flatten = (.string "k", .string "new") :: merged := by rfl
    rw [hentries]
    simp [Node.TextKeys, merged]
  have hfollows := (hplace _ (.value hmerge hlast rfl (.self es _)) "k").2.2 (Node.textDecides_of_textKeys hkeys "k")
  exact ⟨hload, hfollows⟩

/-- A merged string key takes the place of an explicit number with the same text: not everything that is loaded follows
precedence. -/
theorem load_strays_number :
    ¬∀ (fs : FileSystem) (file : Path) (host : Host) (text : String) (doc : Node) (c : Config) (es : List (Node × Node))
      (value : Node) (sources : List (List (Node × Node))) (entries : List (String × Value)) (key : String),
      fs.readText file = .ok text → Yaml.read text = .ok doc → load fs file host = .ok c →
      doc.Becomes (.ofNamespace c.fields) es entries → (Node.mergeKey, value) ∈ es →
      Node.mergeSources value = .ok sources → (∀ src ∈ sources, ∀ e ∈ src, e.1 ≠ Node.mergeKey) →
      Node.FollowsPrecedence ⟨entries⟩ key (Node.explicit es) sources := by
  intro hall
  let merged : List (Node × Node) := [(.string "1", .string "merged")]
  let es : List (Node × Node) :=
    [(.string "<<", .map merged), (.number (.int ⟨1, by decide, by decide⟩), .string "explicit")]
  let root : List (Node × Node) := [(.string "m", .map es)]
  have hdoc : Yaml.read "m:\n  <<:\n    \"1\": merged\n  1: explicit\n" = .ok (.map root) := by rfl
  have htext := FileSystem.readText_holding "m:\n  <<:\n    \"1\": merged\n  1: explicit\n"
  have hload : load (.holding "m:\n  <<:\n    \"1\": merged\n  1: explicit\n") ⟨[99]⟩ (.fixed 0 none "h") =
      .ok (wrap ⟨[("m", .map [("1", .string "merged")])]⟩ (.fixed 0 none "h")) :=
    load_eq_ok.mpr ⟨_, _, _, htext, hdoc, rfl, rfl⟩
  have hmerge : Node.mergeEntries root = .ok root := by rfl
  have hlast : Node.lastUnder "m" root = some (.map es) := by rfl
  have hfollows := hall _ _ _ _ _ _ es (.map merged) [merged] _ "1" htext hdoc hload
    (.value hmerge hlast rfl (.self es _)) List.mem_cons_self rfl (by decide)
  obtain ⟨e, he, -, n, hexpand, hraw⟩ := hfollows.explicit ⟨_, List.mem_singleton_self _, rfl⟩
  obtain rfl : e = (.number (.int ⟨1, by decide, by decide⟩), .string "explicit") := List.mem_singleton.mp he
  obtain rfl : Node.string "explicit" = n := Except.ok.inj hexpand
  have hmerged : (⟨[("1", .string "merged")]⟩ : Namespace).getRaw? "1" = some (.string "merged") := by rfl
  exact absurd (Value.string.inj (Option.some.inj (hmerged.symm.trans hraw))) (by decide)

end Config

end ClusterConfig
