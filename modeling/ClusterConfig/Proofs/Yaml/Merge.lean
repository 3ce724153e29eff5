import Mathlib.Data.List.Nodup
import ClusterConfig.Proofs.Outcome
import ClusterConfig.Proofs.Yaml.Tree

/-!
# Merging into one mapping

Statements about `mergeEntries`: what becomes of the entries of one mapping when its merge entry is expanded. `own` are the
entries that stay, `broughtIn` those that the merge entry names, and the mapping is the first with what is missing of the second.
Nothing in the result is deeper than it was, and the size goes down when there is a merge entry at all.
-/

namespace ClusterConfig.Yaml

namespace Node

/-! ## Taking the merge entry out -/

@[simp] theorem mergeKey_same {k : Node} : mergeKey.same k = true ↔ k = mergeKey := same_string

/-- Nothing is taken out where no key means the same. -/
theorem swapRemove_eq_none {key : Node} {es : List (Node × Node)} :
    swapRemove key es = none ↔ ∀ e ∈ es, ¬key.same e.1 = true := by
  induction es with
  | nil => simp [swapRemove]
  | cons e es ih =>
    obtain ⟨k, v⟩ := e
    by_cases hk : key.same k = true
    · simp [swapRemove, hk]
    · simp only [swapRemove, hk, Bool.false_eq_true, if_false, Option.map_eq_none_iff, ih, List.forall_mem_cons,
        not_false_eq_true, true_and]

/-- What is taken out stood under the key, and what stays is the rest, in another order. -/
theorem swapRemove_perm {key v : Node} {es rest : List (Node × Node)} (h : swapRemove key es = some (v, rest)) :
    ∃ k, key.same k = true ∧ es.Perm ((k, v) :: rest) := by
  induction es generalizing rest with
  | nil => simp [swapRemove] at h
  | cons e es ih =>
    obtain ⟨k, w⟩ := e
    by_cases hk : key.same k = true
    · simp only [swapRemove, hk, if_true, Option.some.injEq, Prod.mk.injEq] at h
      obtain ⟨rfl, rfl⟩ := h
      refine ⟨k, hk, List.Perm.cons _ ?_⟩
      cases hl : es.getLast? with
      | none => rw [List.getLast?_eq_none_iff.mp hl]
      | some last =>
        have hsplit : es = es.dropLast ++ [last] := (List.dropLast_append_getLast? last hl).symm
        calc es = es.dropLast ++ [last] := hsplit
          _ |>.Perm (last :: es.dropLast) := List.perm_append_singleton last es.dropLast
    · simp only [swapRemove, hk, Bool.false_eq_true, if_false, Option.map_eq_some_iff, Prod.exists, Prod.mk.injEq] at h
      obtain ⟨v', rest', hr, rfl, rfl⟩ := h
      obtain ⟨k', hk', hp⟩ := ih hr
      exact ⟨k', hk', (hp.cons (k, w)).trans (List.Perm.swap (k', v') (k, w) rest')⟩

/-- The entries of a mapping without its merge entry. -/
def own (es : List (Node × Node)) : List (Node × Node) :=
  match swapRemove mergeKey es with
  | none => es
  | some (_, rest) => rest

/-- The entries of the mappings that a value under the merge key names, in order. -/
def named (value : Node) : List (Node × Node) :=
  match mergeSources value with
  | .ok sources => sources.flatten
  | .error _ => []

/-- The entries that the merge entry of a mapping names. -/
def broughtIn (es : List (Node × Node)) : List (Node × Node) :=
  match swapRemove mergeKey es with
  | none => []
  | some (value, _) => named value

/-- Expanding the merge entry of a mapping puts what is missing of the entries it names after its own. -/
theorem mergeEntries_eq {es merged : List (Node × Node)} (h : mergeEntries es = .ok merged) :
    merged = addMissing (own es) (broughtIn es) := by
  unfold mergeEntries at h
  unfold own broughtIn
  cases hs : swapRemove mergeKey es with
  | none =>
    rw [hs] at h
    exact (Except.ok.inj h).symm
  | some found =>
    obtain ⟨value, rest⟩ := found
    rw [hs] at h
    obtain ⟨sources, hm, rfl⟩ := map_eq_ok.mp h
    simp only [named, hm]
    rw [addMissing, List.foldl_flatten]
    rfl

/-- Without a merge entry a mapping stays as it is. -/
theorem mergeEntries_of_not_mem {es : List (Node × Node)} (h : ∀ e ∈ es, e.1 ≠ mergeKey) : mergeEntries es = .ok es := by
  have hn : swapRemove mergeKey es = none := swapRemove_eq_none.mpr fun e he hk => h e he (mergeKey_same.mp hk)
  rw [mergeEntries, hn]

/-- A mapping has no merge entry and brings nothing in, or it is its own entries and a merge entry that names what is brought
in. -/
theorem own_perm (es : List (Node × Node)) :
    (own es = es ∧ broughtIn es = [] ∧ ∀ e ∈ es, e.1 ≠ mergeKey) ∨
      ∃ value, es.Perm ((mergeKey, value) :: own es) ∧ broughtIn es = named value := by
  unfold own broughtIn
  cases hs : swapRemove mergeKey es with
  | none =>
    left
    exact ⟨rfl, rfl, fun e he heq => swapRemove_eq_none.mp hs e he (mergeKey_same.mpr heq)⟩
  | some found =>
    right
    obtain ⟨k, hk, hp⟩ := swapRemove_perm hs
    rw [mergeKey_same.mp hk] at hp
    exact ⟨found.1, hp, rfl⟩

theorem mem_of_mem_own {es : List (Node × Node)} {e : Node × Node} (h : e ∈ own es) : e ∈ es := by
  rcases own_perm es with ⟨ho, -, -⟩ | ⟨value, hp, -⟩
  · rwa [ho] at h
  · exact hp.mem_iff.mpr (List.mem_cons_of_mem _ h)

/-- In a mapping with distinct keys there is one merge entry at most. -/
theorem ne_mergeKey_of_perm {es rest : List (Node × Node)} (hd : DistinctKeys es) {value : Node}
    (hp : es.Perm ((mergeKey, value) :: rest)) : ∀ e ∈ rest, e.1 ≠ mergeKey := by
  have hone : es.Pairwise fun a b => ¬(a.1 = mergeKey ∧ b.1 = mergeKey) := by
    refine List.Pairwise.imp ?_ hd
    rintro a b hab ⟨ha, hb⟩
    exact hab (by rw [ha, hb, mergeKey_same])
  have hrest := (hp.pairwise_iff fun hab hba => hab hba.symm).mp hone
  exact fun e he hk => (List.pairwise_cons.mp hrest).1 e he ⟨rfl, hk⟩

/-- The own entries of a mapping with distinct keys are those under other keys than the merge key. -/
theorem mem_own {es : List (Node × Node)} (hd : DistinctKeys es) {e : Node × Node} :
    e ∈ own es ↔ e ∈ es ∧ e.1 ≠ mergeKey := by
  rcases own_perm es with ⟨ho, -, hno⟩ | ⟨value, hp, -⟩
  · rw [ho]
    exact ⟨fun h => ⟨h, hno e h⟩, fun h => h.1⟩
  · constructor
    · intro h
      exact ⟨hp.mem_iff.mpr (List.mem_cons_of_mem _ h), ne_mergeKey_of_perm hd hp e h⟩
    · rintro ⟨h, hk⟩
      rcases List.mem_cons.mp (hp.mem_iff.mp h) with rfl | h
      · exact absurd rfl hk
      · exact h

/-! ## What the merge entry names -/

/-- The mappings that a list names are all of its elements. -/
theorem mergeList_eq_ok {items : List Node} {sources : List (List (Node × Node))} :
    mergeList items = .ok sources ↔ items = sources.map .map := by
  induction items generalizing sources with
  | nil =>
    cases sources <;> simp [mergeList]
  | cons n items ih =>
    cases n with
    | map es =>
      cases sources with
      | nil => cases hl : mergeList items <;> simp [mergeList, hl, Except.map]
      | cons fs sources =>
        rw [List.map_cons, List.cons.injEq, Node.map.injEq, ← ih]
        cases hl : mergeList items <;> simp [mergeList, hl, Except.map]
    | _ => cases sources <;> simp [mergeList]

/-- A value names one mapping, which it is, or the mappings that are its elements. -/
theorem mergeSources_eq_ok {value : Node} {sources : List (List (Node × Node))} :
    mergeSources value = .ok sources ↔
      (∃ es, value = .map es ∧ sources = [es]) ∨ value = .seq (sources.map .map) := by
  cases value with
  | map es => simp [mergeSources, eq_comm]
  | seq items => simp [mergeSources, mergeList_eq_ok]
  | _ => simp [mergeSources]

/-- An entry that a value names stands in it or in an element of it. -/
theorem mem_named {value : Node} {e : Node × Node} (h : e ∈ named value) :
    (∃ fs, value = .map fs ∧ e ∈ fs) ∨ ∃ items fs, value = .seq items ∧ .map fs ∈ items ∧ e ∈ fs := by
  unfold named at h
  split at h
  · rename_i sources hm
    rcases mergeSources_eq_ok.mp hm with ⟨fs, rfl, rfl⟩ | rfl
    · exact Or.inl ⟨fs, rfl, by simpa using h⟩
    · obtain ⟨fs, hfs, he⟩ := List.mem_flatten.mp h
      exact Or.inr ⟨_, fs, rfl, List.mem_map_of_mem hfs, he⟩
  · simp at h

/-- An entry that is brought in stands in the value of the merge entry or in an element of it. -/
theorem mem_broughtIn {es : List (Node × Node)} {e : Node × Node} (h : e ∈ broughtIn es) :
    ∃ value, (mergeKey, value) ∈ es ∧
      ((∃ fs, value = .map fs ∧ e ∈ fs) ∨ ∃ items fs, value = .seq items ∧ .map fs ∈ items ∧ e ∈ fs) := by
  rcases own_perm es with ⟨-, hb, -⟩ | ⟨value, hp, hb⟩
  · simp [hb] at h
  · rw [hb] at h
    exact ⟨value, hp.mem_iff.mpr List.mem_cons_self, mem_named h⟩

/-! ## Putting in what is missing -/

theorem lookup_isSome {key : Node} {es : List (Node × Node)} :
    (lookup key es).isSome = true ↔ ∃ e ∈ es, key.same e.1 = true := by
  simp [lookup]

theorem addMissing_cons (es : List (Node × Node)) (e : Node × Node) (merged : List (Node × Node)) :
    addMissing es (e :: merged) = addMissing (if (lookup e.1 es).isSome then es else es ++ [e]) merged := rfl

/-- The entries of a list that are missing in a mapping: no key of the mapping means the same, and none of an entry that is missing
before it. -/
def missing (es : List (Node × Node)) : List (Node × Node) → List (Node × Node)
  | [] => []
  | e :: merged => if (lookup e.1 es).isSome then missing es merged else e :: missing (es ++ [e]) merged

/-- What is there stays in front, and what is missing follows. -/
theorem addMissing_eq (es merged : List (Node × Node)) : addMissing es merged = es ++ missing es merged := by
  induction merged generalizing es with
  | nil => exact (List.append_nil es).symm
  | cons e merged ih =>
    rw [addMissing_cons, missing]
    by_cases hk : (lookup e.1 es).isSome = true
    · rw [if_pos hk, if_pos hk, ih]
    · rw [if_neg hk, if_neg hk, ih, List.append_assoc, List.singleton_append]

theorem addMissing_append (es merged merged' : List (Node × Node)) :
    addMissing es (merged ++ merged') = addMissing (addMissing es merged) merged' := by
  rw [addMissing, List.foldl_append]
  rfl

/-- What is missing keeps its order. -/
theorem missing_sublist (es merged : List (Node × Node)) : (missing es merged).Sublist merged := by
  induction merged generalizing es with
  | nil => exact List.Sublist.refl _
  | cons e merged ih =>
    rw [missing]
    split
    · exact (ih es).cons e
    · exact (ih (es ++ [e])).cons_cons e

theorem mem_of_mem_addMissing {es merged : List (Node × Node)} {e : Node × Node} (h : e ∈ addMissing es merged) :
    e ∈ es ∨ e ∈ merged := by
  rw [addMissing_eq] at h
  exact (List.mem_append.mp h).imp_right fun hmissing => (missing_sublist es merged).subset hmissing

/-- No key of the mapping means the same as one that is missing. -/
theorem not_same_of_mem_missing {es merged : List (Node × Node)} {e f : Node × Node} (he : e ∈ missing es merged)
    (hf : f ∈ es) : ¬e.1.same f.1 = true := by
  induction merged generalizing es with
  | nil => nomatch he
  | cons g merged ih =>
    rw [missing] at he
    split at he
    · exact ih he hf
    · rename_i hk
      rcases List.mem_cons.mp he with rfl | he
      · exact fun hsame => hk (lookup_isSome.mpr ⟨f, hf, hsame⟩)
      · exact ih he (List.mem_append_left _ hf)

/-- It is only up to the entries of a mapping, not to their order, what is missing in it. -/
theorem missing_congr {es fs : List (Node × Node)} (h : ∀ e, e ∈ es ↔ e ∈ fs) (merged : List (Node × Node)) :
    missing es merged = missing fs merged := by
  induction merged generalizing es fs with
  | nil => rfl
  | cons e merged ih =>
    have hk : (lookup e.1 es).isSome = (lookup e.1 fs).isSome := by
      rw [Bool.eq_iff_iff, lookup_isSome, lookup_isSome]
      exact exists_congr fun f => and_congr_left' (h f)
    have hnext : ∀ f, f ∈ es ++ [e] ↔ f ∈ fs ++ [e] := by
      intro f
      rw [List.mem_append, List.mem_append, h f]
    rw [missing, missing, hk, ih h, ih hnext]

/-- Of two lists the first is put in before it counts what is missing of the second. -/
theorem missing_append (es merged merged' : List (Node × Node)) :
    missing es (merged ++ merged') = missing es merged ++ missing (addMissing es merged) merged' := by
  induction merged generalizing es with
  | nil => rfl
  | cons e merged ih =>
    rw [List.cons_append, missing, missing, addMissing_cons]
    by_cases hk : (lookup e.1 es).isSome = true
    · rw [if_pos hk, if_pos hk, if_pos hk, ih]
    · rw [if_neg hk, if_neg hk, if_neg hk, ih, List.cons_append]

/-- The key of what is put in is there afterwards. -/
theorem exists_key_addMissing {es merged : List (Node × Node)} {e : Node × Node} (h : e ∈ merged) :
    e ∈ addMissing es merged ∨ ∃ f ∈ addMissing es merged, e.1.same f.1 = true := by
  induction merged generalizing es with
  | nil => simp at h
  | cons g merged ih =>
    rw [addMissing_cons]
    rcases List.mem_cons.mp h with rfl | h
    · rw [addMissing_eq]
      by_cases hk : (lookup e.1 es).isSome = true
      · obtain ⟨f, hf, hsame⟩ := lookup_isSome.mp hk
        rw [if_pos hk]
        exact Or.inr ⟨f, List.mem_append_left _ hf, hsame⟩
      · rw [if_neg hk]
        exact Or.inl (by simp)
    · exact ih h

theorem lookup_append (key : Node) (es fs : List (Node × Node)) :
    lookup key (es ++ fs) = (lookup key es).or (lookup key fs) := by
  simp only [lookup, List.find?_append, Option.map_or]

theorem lookup_singleton_of_ne {s : String} {e : Node × Node} (h : e.1 ≠ .string s) : lookup (.string s) [e] = none := by
  have hn : (Node.string s).same e.1 = false := by
    rw [← Bool.not_eq_true, same_string]
    exact h
  simp [lookup, hn]

/-- Under a string key stands what was there, or else the first that is put in. -/
theorem lookup_addMissing (s : String) (es merged : List (Node × Node)) :
    lookup (.string s) (addMissing es merged) = (lookup (.string s) es).or (lookup (.string s) merged) := by
  induction merged generalizing es with
  | nil => simp [addMissing, lookup]
  | cons e merged ih =>
    have hcons : lookup (.string s) (e :: merged) = (lookup (.string s) [e]).or (lookup (.string s) merged) :=
      lookup_append _ [e] merged
    rw [addMissing_cons, ih, hcons, ← Option.or_assoc]
    congr 1
    by_cases hk : (lookup e.1 es).isSome = true
    · rw [if_pos hk]
      by_cases he : e.1 = .string s
      · rw [he] at hk
        obtain ⟨v, hv⟩ := Option.isSome_iff_exists.mp hk
        rw [hv, Option.some_or]
      · rw [lookup_singleton_of_ne he, Option.or_none]
    · rw [if_neg hk, lookup_append]

/-- String keys stay different. -/
theorem nodup_addMissing {es merged : List (Node × Node)} (hn : (es.map Prod.fst).Nodup) (ht : TextKeys merged) :
    ((addMissing es merged).map Prod.fst).Nodup := by
  induction merged generalizing es with
  | nil => exact hn
  | cons e merged ih =>
    rw [addMissing_cons]
    apply ih _ fun f hf => ht f (List.mem_cons_of_mem e hf)
    by_cases hk : (lookup e.1 es).isSome = true
    · rwa [if_pos hk]
    · obtain ⟨s, hs⟩ := ht e List.mem_cons_self
      rw [if_neg hk, List.map_append, List.map_singleton, List.nodup_append]
      refine ⟨hn, by simp, ?_⟩
      rintro k hmem k' hk' rfl
      obtain ⟨f, hf, rfl⟩ := List.mem_map.mp hmem
      rw [List.mem_singleton] at hk'
      exact hk (lookup_isSome.mpr ⟨f, hf, by rw [hk', hs, same_string]⟩)

/-! ## A mapping with its merge entry expanded -/

theorem mem_mergeEntries {es merged : List (Node × Node)} (h : mergeEntries es = .ok merged) {e : Node × Node}
    (he : e ∈ merged) : e ∈ own es ∨ e ∈ broughtIn es := by
  rw [mergeEntries_eq h] at he
  exact mem_of_mem_addMissing he

/-- The mappings in what an expanded mapping holds were already in the values of the mapping. -/
theorem within_of_mem_mergeEntries {es merged : List (Node × Node)} (h : mergeEntries es = .ok merged)
    {e : Node × Node} (he : e ∈ merged) {fs : List (Node × Node)} (hw : e.2.Within fs) : ∃ f ∈ es, f.2.Within fs := by
  rcases mem_mergeEntries h he with he | he
  · exact ⟨e, mem_of_mem_own he, hw⟩
  · obtain ⟨value, hv, ⟨gs, rfl, hg⟩ | ⟨items, gs, rfl, hgs, hg⟩⟩ := mem_broughtIn he
    · exact ⟨_, hv, .value hg hw⟩
    · exact ⟨_, hv, .item hgs (.value hg hw)⟩

/-- An entry that is brought in stands in a mapping of the tree. -/
theorem within_of_mem_broughtIn {es : List (Node × Node)} {e : Node × Node} (h : e ∈ broughtIn es) :
    ∃ f ∈ es, ∃ fs, f.2.Within fs ∧ e ∈ fs := by
  obtain ⟨value, hv, ⟨gs, rfl, hg⟩ | ⟨items, gs, rfl, hgs, hg⟩⟩ := mem_broughtIn h
  · exact ⟨_, hv, gs, .self gs, hg⟩
  · exact ⟨_, hv, gs, .item hgs (.self gs), hg⟩

theorem depth_le_depthItems {items : List Node} {n : Node} (h : n ∈ items) : depth n ≤ depthItems items := by
  induction items with
  | nil => simp at h
  | cons m items ih =>
    simp only [depthItems]
    rcases List.mem_cons.mp h with rfl | h
    · exact Nat.le_max_left _ _
    · exact Nat.le_trans (ih h) (Nat.le_max_right _ _)

theorem depth_le_depthEntries {es : List (Node × Node)} {e : Node × Node} (h : e ∈ es) :
    depth e.2 ≤ depthEntries es := by
  induction es with
  | nil => simp at h
  | cons f es ih =>
    simp only [depthEntries]
    rcases List.mem_cons.mp h with rfl | h
    · exact Nat.le_max_left _ _
    · exact Nat.le_trans (ih h) (Nat.le_max_right _ _)

/-- Nothing in an expanded mapping is deeper than what was there. -/
theorem depth_of_mem_mergeEntries {es merged : List (Node × Node)} (h : mergeEntries es = .ok merged)
    {e : Node × Node} (he : e ∈ merged) : depth e.2 ≤ depthEntries es := by
  rcases mem_mergeEntries h he with he | he
  · exact depth_le_depthEntries (mem_of_mem_own he)
  · obtain ⟨value, hv, ⟨gs, rfl, hg⟩ | ⟨items, gs, rfl, hgs, hg⟩⟩ := mem_broughtIn he
    · have h1 := depth_le_depthEntries hv
      have h2 := depth_le_depthEntries hg
      simp only [depth] at h1
      omega
    · have h1 := depth_le_depthEntries hv
      have h2 := depth_le_depthItems hgs
      have h3 := depth_le_depthEntries hg
      simp only [depth] at h1 h2
      omega

/-- Under a string key of an expanded mapping stands its own entry, or else the first that is brought in. -/
theorem lookup_mergeEntries {es merged : List (Node × Node)} (h : mergeEntries es = .ok merged) (s : String) :
    lookup (.string s) merged = (lookup (.string s) (own es)).or (lookup (.string s) (broughtIn es)) := by
  rw [mergeEntries_eq h, lookup_addMissing]

theorem nodup_own {es : List (Node × Node)} (hn : (es.map Prod.fst).Nodup) : ((own es).map Prod.fst).Nodup := by
  rcases own_perm es with ⟨ho, -, -⟩ | ⟨value, hp, -⟩
  · rwa [ho]
  · rw [(hp.map Prod.fst).nodup_iff, List.map_cons, List.nodup_cons] at hn
    exact hn.2

/-! ## Entries under string keys -/

theorem lookup_eq_some {es : List (Node × Node)} (hn : (es.map Prod.fst).Nodup) {s : String} {v : Node} :
    lookup (.string s) es = some v ↔ (.string s, v) ∈ es := by
  rw [lookup, Option.map_eq_some_iff]
  constructor
  · rintro ⟨e, he, rfl⟩
    have hk := List.find?_some he
    rw [← same_string.mp hk]
    exact List.mem_of_find?_eq_some he
  · intro h
    cases hf : es.find? fun e => (Node.string s).same e.1 with
    | none =>
      have hno := List.find?_eq_none.mp hf _ h
      exact absurd (same_string.mpr rfl) hno
    | some e =>
      have hk := List.find?_some hf
      have he : e = (.string s, v) := List.inj_on_of_nodup_map hn (List.mem_of_find?_eq_some hf) h (same_string.mp hk)
      exact ⟨e, rfl, by rw [he]⟩

/-- Of its own entries a mapping keeps all but the merge entry. -/
theorem lookup_own {es : List (Node × Node)} (hd : DistinctKeys es) (ht : TextKeys es) (s : String) :
    lookup (.string s) (own es) = if s = "<<" then none else lookup (.string s) es := by
  have hn := hd.nodup ht
  refine Option.ext fun v => ?_
  rw [lookup_eq_some (nodup_own hn), mem_own hd]
  by_cases hs : s = "<<"
  · simp [hs, mergeKey]
  · rw [if_neg hs, lookup_eq_some hn]
    simp [mergeKey, hs]

/-- What is brought in is what the value under the merge key names. -/
theorem broughtIn_of_mem {es merged : List (Node × Node)} (h : mergeEntries es = .ok merged) (hd : DistinctKeys es)
    {value : Node} (hv : (mergeKey, value) ∈ es) :
    ∃ sources, mergeSources value = .ok sources ∧ broughtIn es = sources.flatten := by
  unfold mergeEntries at h
  unfold broughtIn
  cases hs : swapRemove mergeKey es with
  | none => exact absurd (mergeKey_same.mpr rfl) (swapRemove_eq_none.mp hs _ hv)
  | some found =>
    rw [hs] at h
    obtain ⟨sources, hm, -⟩ := map_eq_ok.mp h
    obtain ⟨k, hk, hp⟩ := swapRemove_perm hs
    rw [mergeKey_same.mp hk] at hp
    have hvalue : value = found.1 := by
      rcases List.mem_cons.mp (hp.mem_iff.mp hv) with heq | hrest
      · exact (Prod.mk.inj heq).2
      · exact absurd rfl (ne_mergeKey_of_perm hd hp _ hrest)
    refine ⟨sources, by rw [hvalue, hm], ?_⟩
    simp only [named, hm]

/-- Without a merge entry nothing is brought in. -/
theorem broughtIn_of_not_mem {es : List (Node × Node)} (h : ∀ e ∈ es, e.1 ≠ mergeKey) : broughtIn es = [] := by
  rcases own_perm es with ⟨-, hb, -⟩ | ⟨value, hp, -⟩
  · exact hb
  · exact absurd rfl (h _ (hp.mem_iff.mpr List.mem_cons_self))

end Node

end ClusterConfig.Yaml
