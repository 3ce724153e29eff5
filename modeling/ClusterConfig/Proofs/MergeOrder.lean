import ClusterConfig.Proofs.MergePrecedence
import ClusterConfig.Proofs.Value.Counterparts

/-!
# The order of loaded keys

Taking the merge entry out of a mapping puts its last entry in the place where the merge entry stood. What is merged in goes behind
all explicit entries, but these keep the order they are written in only where at most one of them stands after the merge entry.
-/

namespace ClusterConfig

namespace Yaml.Node

/-! ## Taking an entry out by its place -/

/-- The last entry and then the others in their order. -/
def lastFirst (es : List (Node × Node)) : List (Node × Node) :=
  match es.getLast? with
  | some last => last :: es.dropLast
  | none => []

theorem lastFirst_append_singleton (init : List (Node × Node)) (last : Node × Node) :
    lastFirst (init ++ [last]) = last :: init := by
  simp [lastFirst]

/-- Only what stands after the entry changes its order. -/
theorem swapRemove_append {key k v : Node} {before : List (Node × Node)} (hbefore : ∀ e ∈ before, ¬key.same e.1 = true)
    (hk : key.same k = true) (after : List (Node × Node)) :
    swapRemove key (before ++ (k, v) :: after) = some (v, before ++ lastFirst after) := by
  induction before with
  | nil =>
    rw [List.nil_append, swapRemove, if_pos hk]
    rfl
  | cons e before ih =>
    have hrest := ih fun f hf => hbefore f (List.mem_cons_of_mem e hf)
    rw [List.cons_append, swapRemove, if_neg (hbefore e List.mem_cons_self), hrest]
    rfl

/-- In a mapping with distinct keys no entry before or after the merge entry is one. -/
theorem ne_mergeKey_of_append {before after : List (Node × Node)} {value : Node}
    (hd : DistinctKeys (before ++ (mergeKey, value) :: after)) :
    (∀ e ∈ before, e.1 ≠ mergeKey) ∧ ∀ e ∈ after, e.1 ≠ mergeKey := by
  have hne := ne_mergeKey_of_perm hd List.perm_middle
  exact ⟨fun e he => hne e (List.mem_append_left _ he), fun e he => hne e (List.mem_append_right _ he)⟩

section

variable {before after : List (Node × Node)} {value : Node} (hd : DistinctKeys (before ++ (mergeKey, value) :: after))

include hd

theorem own_of_append : own (before ++ (mergeKey, value) :: after) = before ++ lastFirst after := by
  have hbefore : ∀ e ∈ before, ¬mergeKey.same e.1 = true := by
    intro e he hsame
    exact (ne_mergeKey_of_append hd).1 e he (mergeKey_same.mp hsame)
  rw [own, swapRemove_append hbefore (mergeKey_same.mpr rfl)]

theorem explicit_of_append : explicit (before ++ (mergeKey, value) :: after) = before ++ after := by
  obtain ⟨hbefore, hafter⟩ := ne_mergeKey_of_append hd
  have hkept : before.filter (fun e => e.1 ≠ mergeKey) = before := by simpa using hbefore
  have hkept' : after.filter (fun e => e.1 ≠ mergeKey) = after := by simpa using hafter
  rw [explicit, List.filter_append, List.filter_cons_of_neg (by simp), hkept, hkept']

end

theorem explicit_of_not_mem {es : List (Node × Node)} (h : ∀ e ∈ es, e.1 ≠ mergeKey) : explicit es = es := by
  rw [explicit, List.filter_eq_self]
  simpa using h

/-- Taking the merge entry out changes the order of the explicit entries at most. -/
theorem own_perm_explicit {es : List (Node × Node)} (hd : DistinctKeys es) : (own es).Perm (explicit es) := by
  rcases own_perm es with ⟨hown, -, hno⟩ | ⟨value, hp, -⟩
  · rw [hown, explicit_of_not_mem hno]
  · have hkept : (own es).filter (fun e => e.1 ≠ mergeKey) = own es := by simpa using ne_mergeKey_of_perm hd hp
    have hperm := hp.filter fun e => e.1 ≠ mergeKey
    rw [List.filter_cons_of_neg (by simp), hkept] at hperm
    exact hperm.symm

theorem own_of_not_mem {es : List (Node × Node)} (h : ∀ e ∈ es, e.1 ≠ mergeKey) : own es = es := by
  rcases own_perm es with ⟨hown, -, -⟩ | ⟨value, hp, -⟩
  · exact hown
  · exact absurd rfl (h _ (hp.mem_iff.mpr List.mem_cons_self))

/-! ## Texts of string keys -/

theorem keyTexts_append (es fs : List (Node × Node)) : keyTexts (es ++ fs) = keyTexts es ++ keyTexts fs :=
  List.filterMap_append

/-- String keys are their texts. -/
theorem TextKeys.map_fst {es : List (Node × Node)} (ht : TextKeys es) : es.map Prod.fst = (keyTexts es).map .string := by
  induction es with
  | nil => rfl
  | cons e es ih =>
    obtain ⟨s, hs⟩ := ht e List.mem_cons_self
    have hrest := ih fun f hf => ht f (List.mem_cons_of_mem e hf)
    have htext : e.1.keyText? = some s := by rw [hs, keyText?]
    rw [keyTexts_cons_of_some htext, List.map_cons, List.map_cons, hs, hrest]

theorem TextKeys.length_keyTexts {es : List (Node × Node)} (ht : TextKeys es) : (keyTexts es).length = es.length := by
  have hlength := congrArg List.length ht.map_fst
  rw [List.length_map, List.length_map] at hlength
  exact hlength.symm

/-- String keys that are different have different texts. -/
theorem distinctTexts_of_nodup {es : List (Node × Node)} (ht : TextKeys es) (hn : (es.map Prod.fst).Nodup) :
    DistinctTexts es := by
  rw [ht.map_fst] at hn
  exact hn.of_map

/-- Expanding the values of entries leaves the texts of their keys. -/
theorem keyTexts_expanded {es es' : List (Node × Node)} (h : List.Forall₂ Expanded es es') : keyTexts es' = keyTexts es := by
  induction h with
  | nil => rfl
  | @cons e e' es es' he _ ih =>
    cases htext : e.1.keyText? with
    | none => rw [keyTexts_cons_of_none htext, keyTexts_cons_of_none (he.1 ▸ htext), ih]
    | some key => rw [keyTexts_cons_of_some htext, keyTexts_cons_of_some (he.1 ▸ htext), ih]

/-! ## What order is kept -/

/-- A mapping in a mapping of the tree stands in the tree. -/
theorem Within.trans {n : Node} {es fs : List (Node × Node)} (h : n.Within es) (hw : (Node.map es).Within fs) :
    n.Within fs := by
  induction h with
  | self es => exact hw
  | item hn _ ih => exact .item hn (ih hw)
  | value he _ ih => exact .value he (ih hw)
  | tagged _ ih => exact .tagged (ih hw)

/-- The explicit keys of the mapping stand first in the namespace, in the order they are written in. -/
def WrittenFirst (es : List (Node × Node)) (entries : List (String × Value)) : Prop :=
  keyTexts (explicit es) <+: entries.map Prod.fst

/-- Different texts that follow one another are still in order with the last one put first only if it is the only one. -/
theorem prefix_last_cons {init rest : List String} {last : String} (hn : (init ++ [last]).Nodup) :
    init ++ [last] <+: last :: init ++ rest ↔ init = [] := by
  constructor
  · intro h
    cases init with
    | nil => rfl
    | cons first init =>
      have hfirst : first = last := (List.cons_prefix_cons.mp h).1
      rw [List.nodup_append] at hn
      exact absurd hfirst (hn.2.2 first List.mem_cons_self last List.mem_cons_self)
  · rintro rfl
    exact List.prefix_append _ _

/-- Of a mapping with a merge entry the explicit keys are still in order if at most one is written after it. -/
theorem prefix_own_iff {before after : List (Node × Node)} {value : Node} {rest : List String}
    (hd : DistinctKeys (before ++ (mergeKey, value) :: after)) (ht : TextKeys (before ++ (mergeKey, value) :: after)) :
    keyTexts (explicit (before ++ (mergeKey, value) :: after)) <+:
        keyTexts (own (before ++ (mergeKey, value) :: after)) ++ rest ↔
      after.length ≤ 1 := by
  have hdistinct : DistinctTexts after := by
    have hall : DistinctTexts (before ++ (mergeKey, value) :: after) := distinctTexts_of_nodup ht (hd.nodup ht)
    rw [DistinctTexts, keyTexts_append, List.nodup_append] at hall
    exact hall.2.1.of_cons
  rw [explicit_of_append hd, own_of_append hd, keyTexts_append, keyTexts_append, List.append_assoc,
    List.prefix_append_right_inj]
  rcases List.eq_nil_or_concat after with rfl | ⟨init, last, rfl⟩
  · exact iff_of_true List.nil_prefix (by simp)
  · rw [List.concat_eq_append] at hd ht hdistinct ⊢
    obtain ⟨key, hkey⟩ : ∃ key, last.1 = .string key := ht last (by simp)
    have htext : last.1.keyText? = some key := by rw [hkey, keyText?]
    have hlast : keyTexts [last] = [key] := keyTexts_cons_of_some htext []
    have hinit : TextKeys init := fun e he => ht e (by simp [he])
    rw [DistinctTexts, keyTexts_append, hlast] at hdistinct
    rw [lastFirst_append_singleton, keyTexts_append, hlast, keyTexts_cons_of_some htext, prefix_last_cons hdistinct,
      ← List.length_eq_zero_iff, hinit.length_keyTexts, List.length_append, List.length_singleton]
    omega

section

variable {es merged es' : List (Node × Node)} (hd : DistinctKeys es) (ht : TextKeys es) (hbrought : TextKeys (broughtIn es))
  (hm : mergeEntries es = .ok merged) (he : List.Forall₂ Expanded merged es')

include hd ht hbrought hm he

/-- The namespace of an expanded mapping has the keys that stay, and then those that only merged mappings have. -/
theorem keys_of_mergeEntries :
    (Namespace.ofMapping es').keys = keyTexts (own es) ++ keyTexts (missing (explicit es) (broughtIn es)) := by
  have htext : TextKeys merged := by
    intro e hmem
    rcases mem_mergeEntries hm hmem with hown | hnew
    · exact ht e (mem_of_mem_own hown)
    · exact hbrought e hnew
  have hnodup : (merged.map Prod.fst).Nodup := by
    rw [mergeEntries_eq hm]
    exact nodup_addMissing (nodup_own (hd.nodup ht)) hbrought
  have hdistinct : DistinctTexts es' := by
    rw [DistinctTexts, keyTexts_expanded he]
    exact distinctTexts_of_nodup htext hnodup
  rw [Namespace.keys, Value.entries_ofMapping hdistinct, Value.keys_ofEntries, keyTexts_expanded he, mergeEntries_eq hm,
    addMissing_eq, keyTexts_append, missing_congr (mem_own_iff_explicit hd)]

/-- The explicit keys stand first in their order where at most one of them is written after the merge entry. -/
theorem writtenFirst_iff :
    WrittenFirst es (Namespace.ofMapping es').entries ↔
      ∀ before value after, es = before ++ (mergeKey, value) :: after → after.length ≤ 1 := by
  rw [WrittenFirst, ← Namespace.keys, keys_of_mergeEntries hd ht hbrought hm he]
  constructor
  · rintro hstarts before value after rfl
    exact (prefix_own_iff hd ht).mp hstarts
  · intro hafter
    by_cases hmerge : ∃ value, (mergeKey, value) ∈ es
    · obtain ⟨value, hmem⟩ := hmerge
      obtain ⟨before, after, rfl⟩ := List.append_of_mem hmem
      exact (prefix_own_iff hd ht).mpr (hafter before value after rfl)
    · have hno : ∀ e ∈ es, e.1 ≠ mergeKey := by
        rintro ⟨k, v⟩ hmem rfl
        exact hmerge ⟨v, hmem⟩
      rw [own_of_not_mem hno, explicit_of_not_mem hno]
      exact List.prefix_append _ _

end

end Yaml.Node

namespace Config

open Yaml

/-- Every mapping that the document keeps has a place in the loaded namespace, where its explicit keys stand ahead of those that
only merged mappings have. With string keys they are in the order they are written in exactly if at most one of them is written
after the merge entry: taking that out puts the last entry in its place. -/
theorem load_order {fs : FileSystem} {file : Path} {host : Host} {text : String} {doc : Node} {c : Config}
    (htext : fs.readText file = .ok text) (hdoc : Yaml.read text = .ok doc) (hload : load fs file host = .ok c)
    (hkeys : ∀ gs, doc.Within gs → Node.TextKeys gs) {es : List (Node × Node)} (hkeeps : doc.Keeps es) :
    (∃ entries, doc.Becomes (.ofNamespace c.fields) es entries) ∧
      ∀ entries, doc.Becomes (.ofNamespace c.fields) es entries →
        (Node.WrittenFirst es entries ↔
          ∀ before value after, es = before ++ (Node.mergeKey, value) :: after → after.length ≤ 1) ∧
        ∃ front, entries.map Prod.fst =
            Node.keyTexts front ++ Node.keyTexts (Node.missing (Node.explicit es) (Node.broughtIn es)) ∧
          front.Perm (Node.explicit es) ∧
          ∀ before value after, es = before ++ (Node.mergeKey, value) :: after → front = before ++ Node.lastFirst after := by
  obtain ⟨text', doc', expanded, htext', hdoc', hexpand, rfl⟩ := load_eq_ok.mp hload
  obtain rfl : text' = text := Except.ok.inj (htext'.symm.trans htext)
  obtain rfl : doc' = doc := Except.ok.inj (hdoc'.symm.trans hdoc)
  have hd : Node.DistinctKeys es := distinct_of_read hdoc es hkeeps.within
  have ht : Node.TextKeys es := hkeys es hkeeps.within
  have hbrought : Node.TextKeys (Node.broughtIn es) := by
    intro e he
    obtain ⟨f, hf, gs, hw, hmem⟩ := Node.within_of_mem_broughtIn he
    exact hkeys gs (hkeeps.within.trans (.value hf hw)) e hmem
  refine ⟨hkeeps.exists_becomes hexpand, fun entries hplace => ?_⟩
  obtain ⟨merged, es', hm, he, rfl⟩ := hplace.eq_ofMapping hexpand
  refine ⟨Node.writtenFirst_iff hd ht hbrought hm he, Node.own es, ?_, Node.own_perm_explicit hd, ?_⟩
  · exact Node.keys_of_mergeEntries hd ht hbrought hm he
  · rintro before value after rfl
    exact Node.own_of_append hd

/-- One explicit key before the merge entry and one after it stay in order, ahead of what is merged in. -/
theorem load_order_alias :
    load (.holding "a: &x {k: v}\nm: {p: first, <<: *x, q: second}\n") ⟨[99]⟩ (.fixed 0 none "h") =
        .ok (wrap ⟨[("a", .map [("k", .string "v")]),
          ("m", .map [("p", .string "first"), ("q", .string "second"), ("k", .string "v")])]⟩ (.fixed 0 none "h")) ∧
      Node.WrittenFirst [(.string "p", .string "first"), (.string "<<", .map [(.string "k", .string "v")]),
          (.string "q", .string "second")]
        [("p", .string "first"), ("q", .string "second"), ("k", .string "v")] := by
  let merged : List (Node × Node) := [(.string "k", .string "v")]
  let es : List (Node × Node) :=
    [(.string "p", .string "first"), (.string "<<", .map merged), (.string "q", .string "second")]
  let root : List (Node × Node) := [(.string "a", .map merged), (.string "m", .map es)]
  have hdoc : Yaml.read "a: &x {k: v}\nm: {p: first, <<: *x, q: second}\n" = .ok (.map root) := by rfl
  have htext := FileSystem.readText_holding "a: &x {k: v}\nm: {p: first, <<: *x, q: second}\n"
  have hload : load (.holding "a: &x {k: v}\nm: {p: first, <<: *x, q: second}\n") ⟨[99]⟩ (.fixed 0 none "h") =
      .ok (wrap ⟨[("a", .map [("k", .string "v")]),
        ("m", .map [("p", .string "first"), ("q", .string "second"), ("k", .string "v")])]⟩ (.fixed 0 none "h")) :=
    load_eq_ok.mpr ⟨_, _, _, htext, hdoc, rfl, rfl⟩
  have hkeys : ∀ gs, (Node.map root).Within gs → Node.TextKeys gs := by
    intro gs hw
    simp [root, es, merged] at hw
    rcases hw with rfl | rfl | rfl | rfl <;> simp [Node.TextKeys]
  have hmerge : Node.mergeEntries root = .ok root := by rfl
  have hlast : Node.lastUnder "m" root = some (.map es) := by rfl
  have hkeeps : (Node.map root).Keeps es := .value hmerge hlast (.self es)
  have hplace := (load_order htext hdoc hload hkeys hkeeps).2 _ (.value hmerge hlast rfl (.self es _))
  refine ⟨hload, hplace.1.mpr fun before value after heq => ?_⟩
  cases before with
  | nil =>
    have hkey := (Prod.mk.inj (List.cons.inj heq).1).1
    exact absurd hkey (by decide)
  | cons e before =>
    have hlength := congrArg List.length heq
    simp [es] at hlength
    omega

/-- Of two keys written after the merge entry the last one comes first: not every loaded mapping has its explicit keys in order. -/
theorem load_reorders_last :
    ¬∀ (fs : FileSystem) (file : Path) (host : Host) (text : String) (doc : Node) (c : Config) (es : List (Node × Node))
      (entries : List (String × Value)), fs.readText file = .ok text → Yaml.read text = .ok doc →
      load fs file host = .ok c → (∀ gs, doc.Within gs → Node.TextKeys gs) → doc.Becomes (.ofNamespace c.fields) es entries →
      Node.WrittenFirst es entries := by
  intro hall
  let es : List (Node × Node) :=
    [(.string "<<", .map []), (.string "a", .string "first"), (.string "b", .string "second")]
  let root : List (Node × Node) := [(.string "m", .map es)]
  have hdoc : Yaml.read "m: {<<: {}, a: first, b: second}\n" = .ok (.map root) := by rfl
  have htext := FileSystem.readText_holding "m: {<<: {}, a: first, b: second}\n"
  have hload : load (.holding "m: {<<: {}, a: first, b: second}\n") ⟨[99]⟩ (.fixed 0 none "h") =
      .ok (wrap ⟨[("m", .map [("b", .string "second"), ("a", .string "first")])]⟩ (.fixed 0 none "h")) :=
    load_eq_ok.mpr ⟨_, _, _, htext, hdoc, rfl, rfl⟩
  have hkeys : ∀ gs, (Node.map root).Within gs → Node.TextKeys gs := by
    intro gs hw
    simp [root, es] at hw
    rcases hw with rfl | rfl | rfl <;> simp [Node.TextKeys]
  have hmerge : Node.mergeEntries root = .ok root := by rfl
  have hlast : Node.lastUnder "m" root = some (.map es) := by rfl
  have hfirst : Node.WrittenFirst es [("b", .string "second"), ("a", .string "first")] :=
    hall _ _ _ _ _ _ es _ htext hdoc hload hkeys (.value hmerge hlast rfl (.self es _))
  have hkeys : ["a", "b"] <+: ["b", "a"] := hfirst
  exact absurd hkeys (by decide)

end Config

end ClusterConfig
