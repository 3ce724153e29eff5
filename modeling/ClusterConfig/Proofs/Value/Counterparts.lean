import Mathlib.Data.List.Induction
import ClusterConfig.Proofs.Files
import ClusterConfig.Proofs.Value.Conversion
import ClusterConfig.Session.Config

/-!
# Entries and their counterparts

Conversion leaves out the entries of a mapping whose keys are null, sequences or mappings, and reports these keys. Every other
entry should have a counterpart in the namespace, in the same order and with its own value. It has one where no two keys have the
same text; of several entries under one text the first keeps its place and the last its value, and nothing is reported.
-/

namespace ClusterConfig

namespace Yaml.Node

/-! ## Keys without a text -/

/-- Below its tags the key is null, a sequence or a mapping. -/
inductive Textless : Node → Prop where
  | null : Textless .null
  | seq (items : List Node) : Textless (.seq items)
  | map (es : List (Node × Node)) : Textless (.map es)
  | tagged {tag : String} {k : Node} : Textless k → Textless (.tagged tag k)

/-- All other keys, which are strings, numbers and booleans below their tags, have a text. -/
theorem keyText_eq_none {k : Node} : k.keyText? = none ↔ k.Textless := by
  induction k using induct with
  | null => exact iff_of_true rfl .null
  | bool b => exact iff_of_false nofun nofun
  | number n => exact iff_of_false nofun nofun
  | string s => exact iff_of_false nofun nofun
  | seq items => exact iff_of_true rfl (.seq items)
  | map es => exact iff_of_true rfl (.map es)
  | tagged tag k ih =>
    rw [keyText?, ih]
    constructor
    · intro h
      exact .tagged h
    · rintro (_ | _ | _ | h)
      exact h

theorem not_textless {k : Node} {key : String} (h : k.keyText? = some key) : ¬k.Textless := by
  intro hno
  rw [keyText_eq_none.mpr hno] at h
  cases h

/-! ## Counterparts -/

mutual

/-- The value is what the tree should become: every mapping, at any depth, has become a namespace with counterparts of its entries.
The keys are those of entries that have none, in document order. -/
inductive MirroredBy : Node → Value → List Node → Prop where
  | null : MirroredBy .null .null []
  | bool (b : Bool) : MirroredBy (.bool b) (.bool b) []
  | number (n : Number) : MirroredBy (.number n) (.number n) []
  | string (s : String) : MirroredBy (.string s) (.string s) []
  | seq {items : List Node} {values : List Value} {ks : List Node} :
      ItemsMirroredBy items values ks → MirroredBy (.seq items) (.seq values) ks
  | map {es : List (Node × Node)} {fields : List (String × Value)} {ks : List Node} :
      EntriesMirroredBy es fields ks → MirroredBy (.map es) (.map fields) ks
  | tagged {tag : String} {n : Node} {v : Value} {ks : List Node} : MirroredBy n v ks → MirroredBy (.tagged tag n) v ks

/-- Every element has its counterpart in the same place. -/
inductive ItemsMirroredBy : List Node → List Value → List Node → Prop where
  | nil : ItemsMirroredBy [] [] []
  | cons {n : Node} {items : List Node} {v : Value} {values : List Value} {ks ks' : List Node} :
      MirroredBy n v ks → ItemsMirroredBy items values ks' → ItemsMirroredBy (n :: items) (v :: values) (ks ++ ks')

/-- Every entry has its counterpart in the same order, under the text of its key and with its own value, but for those whose keys
have no text. -/
inductive EntriesMirroredBy : List (Node × Node) → List (String × Value) → List Node → Prop where
  | nil : EntriesMirroredBy [] [] []
  | kept {k n : Node} {key : String} {v : Value} {es : List (Node × Node)} {fields : List (String × Value)} {ks ks' : List Node} :
      k.keyText? = some key → MirroredBy n v ks → EntriesMirroredBy es fields ks' →
      EntriesMirroredBy ((k, n) :: es) ((key, v) :: fields) (ks ++ ks')
  | leftOut {k n : Node} {es : List (Node × Node)} {fields : List (String × Value)} {ks : List Node} :
      k.Textless → EntriesMirroredBy es fields ks → EntriesMirroredBy ((k, n) :: es) fields (k :: ks)

end

/-! ## What is converted -/

/-- Conversion comes to the mapping with these entries: it stands in the tree, and every key on the way to it has a text. -/
inductive Converts : Node → List (Node × Node) → Prop where
  | self (es : List (Node × Node)) : Converts (.map es) es
  | item {items : List Node} {n : Node} {es : List (Node × Node)} : n ∈ items → Converts n es → Converts (.seq items) es
  | value {fs : List (Node × Node)} {e : Node × Node} {es : List (Node × Node)} :
      e ∈ fs → ¬e.1.Textless → Converts e.2 es → Converts (.map fs) es
  | tagged {tag : String} {n : Node} {es : List (Node × Node)} : Converts n es → Converts (.tagged tag n) es

/-- The texts of the keys that have one, in order. -/
def keyTexts (es : List (Node × Node)) : List String := es.filterMap fun e => e.1.keyText?

/-- No two keys have the same text. -/
def DistinctTexts (es : List (Node × Node)) : Prop := (keyTexts es).Nodup

instance : DecidablePred DistinctTexts := fun es => inferInstanceAs (Decidable (keyTexts es).Nodup)

theorem keyTexts_cons_of_some {e : Node × Node} {key : String} (h : e.1.keyText? = some key) (es : List (Node × Node)) :
    keyTexts (e :: es) = key :: keyTexts es :=
  List.filterMap_cons_some h

theorem keyTexts_cons_of_none {e : Node × Node} (h : e.1.keyText? = none) (es : List (Node × Node)) :
    keyTexts (e :: es) = keyTexts es :=
  List.filterMap_cons_none h

/-- A namespace whose entries are counterparts has the texts as its keys. -/
theorem EntriesMirroredBy.keys {es : List (Node × Node)} {fields : List (String × Value)} {ks : List Node}
    (h : EntriesMirroredBy es fields ks) : fields.map Prod.fst = keyTexts es := by
  induction es generalizing fields ks with
  | nil =>
    cases h
    rfl
  | cons e es ih =>
    cases h with
    | kept hkey _ hrest => rw [keyTexts_cons_of_some hkey, List.map_cons, ih hrest]
    | leftOut hkey hrest => rw [keyTexts_cons_of_none (keyText_eq_none.mpr hkey), ih hrest]

end Yaml.Node

namespace Value

open Yaml Yaml.Node

theorem keys_ofEntries (es : List (Node × Node)) : (ofEntries es).map Prod.fst = keyTexts es := by
  induction es with
  | nil => rfl
  | cons e es ih =>
    cases hkey : e.1.keyText? with
    | none => rw [ofEntries_cons_of_none hkey, keyTexts_cons_of_none hkey, ih]
    | some key => rw [ofEntries_cons_of_some hkey, keyTexts_cons_of_some hkey, List.map_cons, ih]

/-- Where no two keys have the same text, the namespace has all entries whose keys have one. -/
theorem entries_ofMapping {es : List (Node × Node)} (h : DistinctTexts es) : (Namespace.ofMapping es).entries = ofEntries es := by
  refine Namespace.entries_ofPairs ?_
  rw [keys_ofEntries]
  exact h

/-! ## Keys that are reported -/

theorem skippedInItems_eq_flatMap (items : List Node) : skippedInItems items = items.flatMap skippedKeys := by
  induction items with
  | nil => rfl
  | cons n items ih => rw [skippedInItems, List.flatMap_cons, ih]

theorem skippedInEntries_cons_of_none {e : Node × Node} (h : e.1.keyText? = none) (es : List (Node × Node)) :
    skippedInEntries (e :: es) = e.1 :: skippedInEntries es := by
  rw [skippedInEntries, h]
  rfl

theorem skippedInEntries_cons_of_some {e : Node × Node} {key : String} (h : e.1.keyText? = some key)
    (es : List (Node × Node)) : skippedInEntries (e :: es) = skippedKeys e.2 ++ skippedInEntries es := by
  rw [skippedInEntries, h]
  rfl

theorem mem_skippedInEntries {es : List (Node × Node)} {k : Node} :
    k ∈ skippedInEntries es ↔ (k.Textless ∧ ∃ v, (k, v) ∈ es) ∨ ∃ e ∈ es, ¬e.1.Textless ∧ k ∈ skippedKeys e.2 := by
  induction es with
  | nil => simp [skippedInEntries]
  | cons e es ih =>
    obtain ⟨k', v'⟩ := e
    cases hkey : k'.keyText? with
    | none =>
      have htextless : k'.Textless := keyText_eq_none.mp hkey
      rw [skippedInEntries_cons_of_none hkey, List.mem_cons, ih]
      constructor
      · rintro (rfl | ⟨hk, v, hmem⟩ | ⟨e, he, hno, hmem⟩)
        · exact .inl ⟨htextless, v', List.mem_cons_self⟩
        · exact .inl ⟨hk, v, List.mem_cons_of_mem _ hmem⟩
        · exact .inr ⟨e, List.mem_cons_of_mem _ he, hno, hmem⟩
      · rintro (⟨hk, v, hmem⟩ | ⟨e, he, hno, hmem⟩)
        · rcases List.mem_cons.mp hmem with heq | hmem
          · exact .inl (Prod.mk.inj heq).1
          · exact .inr (.inl ⟨hk, v, hmem⟩)
        · rcases List.mem_cons.mp he with rfl | he
          · exact absurd htextless hno
          · exact .inr (.inr ⟨e, he, hno, hmem⟩)
    | some key =>
      have htext : ¬k'.Textless := not_textless hkey
      rw [skippedInEntries_cons_of_some hkey, List.mem_append, ih]
      constructor
      · rintro (hmem | ⟨hk, v, hmem⟩ | ⟨e, he, hno, hmem⟩)
        · exact .inr ⟨(k', v'), List.mem_cons_self, htext, hmem⟩
        · exact .inl ⟨hk, v, List.mem_cons_of_mem _ hmem⟩
        · exact .inr ⟨e, List.mem_cons_of_mem _ he, hno, hmem⟩
      · rintro (⟨hk, v, hmem⟩ | ⟨e, he, hno, hmem⟩)
        · rcases List.mem_cons.mp hmem with heq | hmem
          · rw [(Prod.mk.inj heq).1] at hk
            exact absurd hk htext
          · exact .inr (.inl ⟨hk, v, hmem⟩)
        · rcases List.mem_cons.mp he with rfl | he
          · exact .inl hmem
          · exact .inr (.inr ⟨e, he, hno, hmem⟩)

/-- A key is reported exactly where it has no text and stands in a mapping that conversion comes to. -/
theorem mem_skippedKeys {n k : Node} : k ∈ skippedKeys n ↔ ∃ es, n.Converts es ∧ k.Textless ∧ ∃ v, (k, v) ∈ es := by
  induction n using Node.induct with
  | null | bool b | number m | string s =>
    refine iff_of_false List.not_mem_nil ?_
    rintro ⟨es, hes, -⟩
    cases hes
  | seq items ih =>
    rw [skippedKeys, skippedInItems_eq_flatMap, List.mem_flatMap]
    constructor
    · rintro ⟨n, hn, hk⟩
      obtain ⟨es, hes, hmem⟩ := (ih n hn).mp hk
      exact ⟨es, .item hn hes, hmem⟩
    · rintro ⟨es, hes, hmem⟩
      cases hes with
      | item hn hes => exact ⟨_, hn, (ih _ hn).mpr ⟨es, hes, hmem⟩⟩
  | map fs ih =>
    rw [skippedKeys, mem_skippedInEntries]
    constructor
    · rintro (hmem | ⟨e, he, htext, hk⟩)
      · exact ⟨fs, .self fs, hmem⟩
      · obtain ⟨es, hes, hmem⟩ := (ih e he).mp hk
        exact ⟨es, .value he htext hes, hmem⟩
    · rintro ⟨es, hes, hmem⟩
      cases hes with
      | self => exact .inl hmem
      | value he htext hes => exact .inr ⟨_, he, htext, (ih _ he).mpr ⟨es, hes, hmem⟩⟩
  | tagged tag n ih =>
    rw [skippedKeys, ih]
    constructor
    · rintro ⟨es, hes, hmem⟩
      exact ⟨es, .tagged hes, hmem⟩
    · rintro ⟨es, hes, hmem⟩
      cases hes with
      | tagged hes => exact ⟨es, hes, hmem⟩

/-! ## Where every entry has its counterpart -/

theorem itemsMirroredBy {items : List Node} (h : ∀ n ∈ items, MirroredBy n (ofNode n) (skippedKeys n)) :
    ItemsMirroredBy items (items.map ofNode) (skippedInItems items) := by
  induction items with
  | nil => exact .nil
  | cons n items ih =>
    have hrest := ih fun m hm => h m (List.mem_cons_of_mem n hm)
    exact .cons (h n List.mem_cons_self) hrest

theorem entriesMirroredBy {es : List (Node × Node)}
    (h : ∀ e ∈ es, ¬e.1.Textless → MirroredBy e.2 (ofNode e.2) (skippedKeys e.2)) :
    EntriesMirroredBy es (ofEntries es) (skippedInEntries es) := by
  induction es with
  | nil => exact .nil
  | cons e es ih =>
    have hrest := ih fun f hf => h f (List.mem_cons_of_mem e hf)
    cases hkey : e.1.keyText? with
    | none =>
      rw [ofEntries_cons_of_none hkey, skippedInEntries_cons_of_none hkey]
      exact .leftOut (keyText_eq_none.mp hkey) hrest
    | some key =>
      have htext : ¬e.1.Textless := not_textless hkey
      rw [ofEntries_cons_of_some hkey, skippedInEntries_cons_of_some hkey]
      exact .kept hkey (h e List.mem_cons_self htext) hrest

/-- Entries that have counterparts have them also in their values. -/
theorem mirroredBy_of_mem {es : List (Node × Node)} {fields : List (String × Value)} {ks : List Node}
    (h : EntriesMirroredBy es fields ks) (hfields : fields = ofEntries es) {e : Node × Node} (he : e ∈ es)
    (htext : ¬e.1.Textless) : ∃ ks, MirroredBy e.2 (ofNode e.2) ks := by
  induction es generalizing fields ks with
  | nil => nomatch he
  | cons f es ih =>
    cases h with
    | kept hkey hvalue hrest =>
      rw [ofEntries_cons_of_some hkey] at hfields
      obtain ⟨hfield, hfields⟩ := List.cons.inj hfields
      rcases List.mem_cons.mp he with rfl | he
      · rw [(Prod.mk.inj hfield).2] at hvalue
        exact ⟨_, hvalue⟩
      · exact ih hrest hfields he
    | leftOut hno hrest =>
      rw [ofEntries_cons_of_none (keyText_eq_none.mpr hno)] at hfields
      rcases List.mem_cons.mp he with rfl | he
      · exact absurd hno htext
      · exact ih hrest hfields he

/-- Elements that have counterparts, one by one. -/
theorem mirroredBy_of_mem_items {items : List Node} {ks : List Node} (h : ItemsMirroredBy items (items.map ofNode) ks)
    {n : Node} (hn : n ∈ items) : ∃ ks, MirroredBy n (ofNode n) ks := by
  induction items generalizing ks with
  | nil => nomatch hn
  | cons m items ih =>
    cases h with
    | cons hvalue hrest =>
      rcases List.mem_cons.mp hn with rfl | hn
      · exact ⟨_, hvalue⟩
      · exact ih hrest hn

/-- Under two keys with the same text there is one entry only, so entries that all have counterparts have no such keys. -/
theorem distinctTexts_of_entries {es : List (Node × Node)} {ks : List Node}
    (h : EntriesMirroredBy es (Namespace.ofMapping es).entries ks) : DistinctTexts es := by
  have hkeys : (Namespace.ofMapping es).keys = keyTexts es := h.keys
  rw [DistinctTexts, ← hkeys]
  exact Namespace.nodup_ofPairs (ofEntries es)

/-- In a mirrored tree no two keys have the same text. -/
theorem distinctTexts_of_mirroredBy {n : Node} {ks : List Node} (h : MirroredBy n (ofNode n) ks)
    {es : List (Node × Node)} (hes : n.Converts es) : DistinctTexts es := by
  induction hes generalizing ks with
  | self es =>
    rw [ofNode_map] at h
    cases h with
    | map h => exact distinctTexts_of_entries h
  | item hn hes ih =>
    rw [ofNode_seq] at h
    cases h with
    | seq h =>
      obtain ⟨_, hvalue⟩ := mirroredBy_of_mem_items h hn
      exact ih hvalue
  | value he htext hes ih =>
    rw [ofNode_map] at h
    cases h with
    | map h =>
      -- only a mapping whose own texts differ has the entries of the document, and these its values
      obtain ⟨_, hvalue⟩ := mirroredBy_of_mem h (entries_ofMapping (distinctTexts_of_entries h)) he htext
      exact ih hvalue
  | tagged hes ih =>
    cases h with
    | tagged h => exact ih h

/-- A tree is mirrored by its value exactly where no mapping that conversion comes to has two keys with the same text. -/
theorem mirroredBy_ofNode {n : Node} :
    MirroredBy n (ofNode n) (skippedKeys n) ↔ ∀ es, n.Converts es → DistinctTexts es := by
  refine ⟨fun h es hes => distinctTexts_of_mirroredBy h hes, fun h => ?_⟩
  induction n using Node.induct with
  | null => exact .null
  | bool b => exact .bool b
  | number m => exact .number m
  | string s => exact .string s
  | seq items ih =>
    rw [ofNode_seq]
    refine .seq (itemsMirroredBy fun n hn => ?_)
    exact ih n hn fun es hes => h es (.item hn hes)
  | map fs ih =>
    rw [ofNode_map, Value.ofNamespace, entries_ofMapping (h fs (.self fs))]
    refine .map (entriesMirroredBy fun e he htext => ?_)
    exact ih e he fun es hes => h es (.value he htext hes)
  | tagged tag n ih => exact .tagged (ih fun es hes => h es (.tagged hes))

end Value

namespace Namespace

open Yaml Yaml.Node

/-! ## What the namespace holds in any case -/

/-- A key has the place of the first pair under it. -/
theorem keys_ofPairs (pairs : List (String × Value)) : (ofPairs pairs).keys = (pairs.map Prod.fst).eraseDups := by
  induction pairs using List.reverseRecOn with
  | nil => rfl
  | append_singleton pairs e ih =>
    have hinsert : (ofPairs (pairs ++ [e])).keys = ((ofPairs pairs).insert e.1 e.2).keys := by
      rw [ofPairs, List.foldl_append]
      rfl
    rw [hinsert, List.map_append, List.eraseDups_append, ← ih]
    by_cases hmem : e.1 ∈ pairs.map Prod.fst
    · have hkeys : e.1 ∈ (ofPairs pairs).keys := mem_keys_ofPairs.mpr hmem
      rw [insert, keys, keys_put_of_mem hkeys]
      simp [List.removeAll, hmem, keys]
    · have hkeys : e.1 ∉ (ofPairs pairs).keys := fun h => hmem (mem_keys_ofPairs.mp h)
      rw [insert, keys, put_of_not_mem hkeys]
      simp [List.removeAll, hmem, keys, List.eraseDups_cons]

theorem keys_ofMapping (es : List (Node × Node)) : (ofMapping es).keys = (keyTexts es).eraseDups := by
  rw [ofMapping, keys_ofPairs, Value.keys_ofEntries]

end Namespace

namespace Session

open Yaml Yaml.Node

/-! ## Conversion of a mapping -/

/-- Conversion gives every entry under a scalar key its counterpart, through all sequences, tags and nested mappings and reporting
exactly the others, where and only where no mapping that it comes to has two keys with the same text. In any case a warning is
logged for each key without a text, in document order, and for no other one; of several entries under one text the first keeps its
place and the last its value. -/
theorem convert_counterparts (s : Session) (root : List (Node × Node)) :
    ∃ ns warned, s.convert root = (s.emitAll (warned.map skippedEvent), ns) ∧
      (MirroredBy (.map root) (.ofNamespace ns) warned ↔ ∀ es, (Node.map root).Converts es → DistinctTexts es) ∧
      (∀ k, k ∈ warned ↔ ∃ es, (Node.map root).Converts es ∧ k.Textless ∧ ∃ v, (k, v) ∈ es) ∧
      ns.keys = (keyTexts root).eraseDups ∧ ∀ key, ns.getRaw? key = (lastUnder key root).map Value.ofNode := by
  refine ⟨Namespace.ofMapping root, Value.skippedKeys (.map root), rfl, ?_, ?_, ?_, ?_⟩
  · exact Value.mirroredBy_ofNode
  · intro k
    exact Value.mem_skippedKeys
  · exact Namespace.keys_ofMapping root
  · intro key
    exact Value.getRaw_ofMapping root key

/-- A number and the string of its digits are two keys with one text: one entry is lost and nothing is reported. -/
theorem not_convert_mirrored :
    ¬∀ (s : Session) (root : List (Node × Node)), ∃ ns warned,
      s.convert root = (s.emitAll (warned.map skippedEvent), ns) ∧ MirroredBy (.map root) (.ofNamespace ns) warned := by
  intro h
  let root : List (Node × Node) := [(.number (.int ⟨1, by decide, by decide⟩), .string "a"), (.string "1", .string "b")]
  obtain ⟨ns, warned, hconvert, hmirrored⟩ := h (start (.holding "") "") root
  obtain rfl : Namespace.ofMapping root = ns := (Prod.mk.inj hconvert).2
  have hdistinct : DistinctTexts root := Value.distinctTexts_of_mirroredBy hmirrored (.self root)
  exact absurd hdistinct (by decide)

end Session

end ClusterConfig
