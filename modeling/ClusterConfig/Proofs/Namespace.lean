import ClusterConfig.Namespace

/-!
# Entries under keys

Statements about the operations of namespaces, in terms of what is found under a key, of the keys and of the entries. The keys of
a namespace stay distinct, and one collected from pairs holds under a key what the last pair with that key gives it.
-/

namespace ClusterConfig

@[simp] theorem Value.isNull_eq_false {v : Value} : v.isNull = false ↔ v ≠ .null := by
  cases v <;> simp [isNull]

namespace Namespace

variable {α β : Type}

/-! ## Looking up a key -/

theorem lookup_cons (e : String × α) (entries : List (String × α)) (key : String) :
    (e :: entries).lookup key = if key = e.1 then some e.2 else entries.lookup key := by
  rw [List.lookup_cons]
  by_cases hk : key = e.1
  · rw [if_pos hk, beq_iff_eq.mpr hk]
  · rw [if_neg hk, beq_eq_false_iff_ne.mpr hk]

theorem mem_of_lookup {entries : List (String × α)} {key : String} {v : α} (h : entries.lookup key = some v) :
    (key, v) ∈ entries := by
  obtain ⟨before, after, rfl, -⟩ := List.lookup_eq_some_iff.mp h
  simp

theorem lookup_eq_none {entries : List (String × α)} {key : String} :
    entries.lookup key = none ↔ key ∉ entries.map Prod.fst := by
  rw [List.lookup_eq_none_iff, List.mem_map]
  constructor
  · rintro h ⟨e, he, rfl⟩
    simpa using h e he
  · intro h e he
    exact bne_iff_ne.mpr fun hk => h ⟨e, he, hk.symm⟩

/-- Where keys are distinct, every entry is the one that is found under its key. -/
theorem lookup_of_mem {entries : List (String × α)} (hn : (entries.map Prod.fst).Nodup) {key : String} {v : α}
    (h : (key, v) ∈ entries) : entries.lookup key = some v := by
  obtain ⟨before, after, rfl⟩ := List.append_of_mem h
  refine List.lookup_eq_some_iff.mpr ⟨before, after, rfl, fun e he => bne_iff_ne.mpr ?_⟩
  rintro rfl
  rw [List.map_append, List.nodup_append] at hn
  exact hn.2.2 e.1 (List.mem_map_of_mem he) e.1 (by simp) rfl

/-- Values that are changed in view of their keys are found where they were. -/
theorem lookup_map (f : String → α → β) (entries : List (String × α)) (key : String) :
    (entries.map fun e => (e.1, f e.1 e.2)).lookup key = (entries.lookup key).map (f key) := by
  induction entries with
  | nil => rfl
  | cons e entries ih =>
    rw [List.map_cons, lookup_cons, lookup_cons, ih]
    by_cases hk : key = e.1
    · simp [hk]
    · simp [hk]

/-- Of keys that each may have a value, one is found exactly with the value it has. -/
theorem lookup_filterMap (f : String → Option α) (keys : List String) (key : String) :
    (keys.filterMap fun k => (f k).map fun v => (k, v)).lookup key = if key ∈ keys then f key else none := by
  induction keys with
  | nil => rfl
  | cons k keys ih =>
    cases hf : f k with
    | none =>
      rw [List.filterMap_cons_none (by rw [hf]; rfl), ih]
      by_cases hk : key = k
      · subst hk
        simp [hf]
      · simp [hk]
    | some v =>
      rw [List.filterMap_cons_some (by rw [hf]; rfl), lookup_cons, ih]
      by_cases hk : key = k
      · subst hk
        simp [hf]
      · simp [hk]

/-- Distinct keys that each may have a value stay distinct. -/
theorem nodup_filterMap (f : String → Option α) {keys : List String} (hn : keys.Nodup) :
    ((keys.filterMap fun k => (f k).map fun v => (k, v)).map Prod.fst).Nodup := by
  refine List.Nodup.sublist ?_ hn
  induction keys with
  | nil => exact List.Sublist.refl _
  | cons k keys ih =>
    have hrest := ih (List.nodup_cons.mp hn).2
    cases hf : f k with
    | none =>
      rw [List.filterMap_cons_none (by rw [hf]; rfl)]
      exact hrest.cons k
    | some v =>
      rw [List.filterMap_cons_some (by rw [hf]; rfl)]
      exact hrest.cons_cons k

/-- What is read from a value that is no null is read from the stored one. -/
theorem get_bind {f : Value → Option α} (hf : f .null = none) (ns : Namespace) (key : String) :
    (ns.get? key).bind f = (ns.getRaw? key).bind f := by
  rw [get?]
  cases ns.getRaw? key with
  | none => rfl
  | some v =>
    cases v with
    | null => exact hf.symm
    | _ => rfl

theorem getD_get (ns : Namespace) (key : String) : (ns.get? key).getD .null = (ns.getRaw? key).getD .null := by
  rw [get?]
  cases ns.getRaw? key with
  | none => rfl
  | some v => cases v <;> rfl

/-- Namespaces with the same distinct keys in order that hold the same under each are the same. -/
theorem eq_of_keys {a b : Namespace} (hn : a.keys.Nodup) (hkeys : a.keys = b.keys)
    (h : ∀ key ∈ a.keys, a.getRaw? key = b.getRaw? key) : a = b := by
  obtain ⟨es⟩ := a
  obtain ⟨fs⟩ := b
  simp only [keys, getRaw?] at hn hkeys h
  refine congrArg Namespace.mk ?_
  induction es generalizing fs with
  | nil => exact (List.map_eq_nil_iff.mp hkeys.symm).symm
  | cons e es ih =>
    cases fs with
    | nil => nomatch hkeys
    | cons f fs =>
      rw [List.map_cons, List.map_cons, List.cons.injEq] at hkeys
      rw [List.map_cons, List.nodup_cons] at hn
      have hvalue := h e.1 List.mem_cons_self
      rw [lookup_cons, lookup_cons, if_pos rfl, if_pos hkeys.1, Option.some.injEq] at hvalue
      have hrest : es = fs := by
        refine ih hn.2 fs hkeys.2 fun key hkey => ?_
        have hne : key ≠ e.1 := fun heq => hn.1 (heq ▸ hkey)
        have hfound := h key (List.mem_cons_of_mem _ hkey)
        rwa [lookup_cons, lookup_cons, if_neg hne, if_neg (hkeys.1 ▸ hne)] at hfound
      rw [Prod.ext hkeys.1 hvalue, hrest]

/-! ## Putting a value under a key -/

@[simp] theorem lookup_put (key : String) (v : Value) (entries : List (String × Value)) (k : String) :
    (put key v entries).lookup k = if k = key then some v else entries.lookup k := by
  induction entries with
  | nil => rw [put, lookup_cons]
  | cons e entries ih =>
    rw [put, lookup_cons e]
    by_cases he : e.1 = key
    · rw [if_pos he, lookup_cons, he]
      by_cases hk : k = key
      · rw [if_pos hk, if_pos hk]
      · rw [if_neg hk, if_neg hk, if_neg hk]
    · rw [if_neg he, lookup_cons, ih]
      by_cases hk : k = e.1
      · rw [if_pos hk, if_pos hk, if_neg (hk ▸ he)]
      · rw [if_neg hk, if_neg hk]

theorem put_of_not_mem {key : String} {v : Value} {entries : List (String × Value)}
    (h : key ∉ entries.map Prod.fst) : put key v entries = entries ++ [(key, v)] := by
  induction entries with
  | nil => rfl
  | cons e entries ih =>
    rw [List.map_cons, List.mem_cons, not_or] at h
    rw [put, if_neg (Ne.symm h.1), ih h.2, List.cons_append]

theorem keys_put_of_mem {key : String} {v : Value} {entries : List (String × Value)}
    (h : key ∈ entries.map Prod.fst) : (put key v entries).map Prod.fst = entries.map Prod.fst := by
  induction entries with
  | nil => simp at h
  | cons e entries ih =>
    by_cases hk : e.1 = key
    · rw [put, if_pos hk, List.map_cons, List.map_cons]
    · rw [List.map_cons, List.mem_cons] at h
      rw [put, if_neg hk, List.map_cons, List.map_cons, ih (h.resolve_left (Ne.symm hk))]

theorem nodup_put {key : String} {v : Value} {entries : List (String × Value)} (hn : (entries.map Prod.fst).Nodup) :
    ((put key v entries).map Prod.fst).Nodup := by
  by_cases h : key ∈ entries.map Prod.fst
  · rwa [keys_put_of_mem h]
  · rw [put_of_not_mem h, List.map_append, List.nodup_append]
    refine ⟨hn, by simp, ?_⟩
    intro k hk k' hk'
    obtain rfl : k' = key := by simpa using hk'
    exact fun heq => h (heq ▸ hk)

theorem mem_put {key : String} {v : Value} {entries : List (String × Value)} {e : String × Value}
    (h : e ∈ put key v entries) : e = (key, v) ∨ e ∈ entries := by
  induction entries with
  | nil => exact Or.inl (List.mem_singleton.mp h)
  | cons f entries ih =>
    rw [put] at h
    split at h
    · rename_i hk
      rcases List.mem_cons.mp h with rfl | h
      · exact Or.inl (by rw [hk])
      · exact Or.inr (List.mem_cons_of_mem _ h)
    · rcases List.mem_cons.mp h with rfl | h
      · exact Or.inr List.mem_cons_self
      · exact (ih h).imp_right (List.mem_cons_of_mem _)

theorem map_put (f : Value → Value) (key : String) (v : Value) (entries : List (String × Value)) :
    (put key v entries).map (fun e => (e.1, f e.2)) = put key (f v) (entries.map fun e => (e.1, f e.2)) := by
  induction entries with
  | nil => rfl
  | cons e entries ih =>
    by_cases hk : e.1 = key
    · rw [put, if_pos hk, List.map_cons, List.map_cons, put, if_pos hk]
    · rw [put, if_neg hk, List.map_cons, List.map_cons, put, if_neg hk, ih]

@[simp] theorem getRaw_insert (ns : Namespace) (key : String) (v : Value) (k : String) :
    (ns.insert key v).getRaw? k = if k = key then some v else ns.getRaw? k :=
  lookup_put key v ns.entries k

/-! ## Collecting pairs -/

/-- Under a key stands what the last pair with that key gives. -/
theorem getRaw_ofPairs (pairs : List (String × Value)) (key : String) :
    (ofPairs pairs).getRaw? key = pairs.reverse.lookup key := by
  have hfold : ∀ ns : Namespace, (pairs.foldl (fun ns e => ns.insert e.1 e.2) ns).getRaw? key =
      (pairs.reverse.lookup key).or (ns.getRaw? key) := by
    induction pairs with
    | nil => exact fun ns => rfl
    | cons e pairs ih =>
      intro ns
      rw [List.foldl_cons, ih, getRaw_insert, List.reverse_cons, List.lookup_append, Option.or_assoc, lookup_cons]
      by_cases hk : key = e.1
      · rw [if_pos hk, if_pos hk, Option.some_or]
      · rw [if_neg hk, if_neg hk, List.lookup_nil, Option.none_or]
  rw [ofPairs, hfold]
  exact Option.or_none

/-- The keys are those of the pairs. -/
theorem mem_keys_ofPairs {pairs : List (String × Value)} {key : String} :
    key ∈ (ofPairs pairs).keys ↔ key ∈ pairs.map Prod.fst := by
  have hnone : (ofPairs pairs).getRaw? key = none ↔ key ∉ pairs.map Prod.fst := by
    rw [getRaw_ofPairs, lookup_eq_none, List.map_reverse, List.mem_reverse]
  exact Decidable.not_iff_not.mp (lookup_eq_none.symm.trans hnone)

/-- Collecting keeps keys distinct. -/
theorem nodup_ofPairs (pairs : List (String × Value)) : (ofPairs pairs).keys.Nodup := by
  have hfold : ∀ ns : Namespace, ns.keys.Nodup → (pairs.foldl (fun ns e => ns.insert e.1 e.2) ns).keys.Nodup := by
    induction pairs with
    | nil => exact fun ns hn => hn
    | cons e pairs ih => exact fun ns hn => ih _ (nodup_put hn)
  exact hfold empty List.nodup_nil

/-- All entries come from the pairs. -/
theorem mem_of_mem_ofPairs {pairs : List (String × Value)} {e : String × Value} (h : e ∈ (ofPairs pairs).entries) :
    e ∈ pairs := by
  have hfold : ∀ ns : Namespace, e ∈ (pairs.foldl (fun ns e => ns.insert e.1 e.2) ns).entries →
      e ∈ pairs ∨ e ∈ ns.entries := by
    clear h
    induction pairs with
    | nil => exact fun ns h => Or.inr h
    | cons f pairs ih =>
      intro ns h
      rcases ih _ h with h | h
      · exact Or.inl (List.mem_cons_of_mem f h)
      · exact (mem_put h).imp_left fun heq => by rw [heq]; exact List.mem_cons_self
  exact (hfold empty h).resolve_right List.not_mem_nil

/-- Pairs with distinct keys are the entries themselves. -/
theorem entries_ofPairs {pairs : List (String × Value)} (hn : (pairs.map Prod.fst).Nodup) :
    (ofPairs pairs).entries = pairs := by
  have hfold : ∀ ns : Namespace, ((ns.entries ++ pairs).map Prod.fst).Nodup →
      (pairs.foldl (fun ns e => ns.insert e.1 e.2) ns).entries = ns.entries ++ pairs := by
    clear hn
    induction pairs with
    | nil => exact fun ns _ => (List.append_nil _).symm
    | cons e pairs ih =>
      intro ns hn
      have hnew : e.1 ∉ ns.entries.map Prod.fst := by
        rw [List.map_append, List.nodup_append] at hn
        exact fun hmem => hn.2.2 e.1 hmem e.1 (by simp) rfl
      have hput : (ns.insert e.1 e.2).entries = ns.entries ++ [e] := put_of_not_mem hnew
      rw [List.foldl_cons, ih _ (by rwa [hput, List.append_assoc, List.singleton_append]), hput, List.append_assoc,
        List.singleton_append]
  exact (hfold empty hn).trans (List.nil_append pairs)

/-- Changing all values changes those of the pairs. -/
theorem mapValues_ofPairs (f : Value → Value) (pairs : List (String × Value)) :
    (ofPairs pairs).mapValues f = ofPairs (pairs.map fun e => (e.1, f e.2)) := by
  have hfold : ∀ ns : Namespace, (pairs.foldl (fun ns e => ns.insert e.1 e.2) ns).mapValues f =
      (pairs.map fun e => (e.1, f e.2)).foldl (fun ns e => ns.insert e.1 e.2) (ns.mapValues f) := by
    induction pairs with
    | nil => exact fun ns => rfl
    | cons e pairs ih =>
      intro ns
      have hput : (ns.insert e.1 e.2).mapValues f = (ns.mapValues f).insert e.1 (f e.2) :=
        congrArg Namespace.mk (map_put f e.1 e.2 ns.entries)
      rw [List.foldl_cons, ih, List.map_cons, List.foldl_cons, hput]
  exact hfold empty

/-! ## Changing values and leaving entries out -/

theorem modify_eq_mapEntries (ns : Namespace) (key : String) (f : Value → Value) :
    ns.modify key f = ns.mapEntries fun k v => if k = key then f v else v := by
  refine congrArg Namespace.mk (List.map_congr_left fun e _ => ?_)
  by_cases hk : e.1 = key
  · simp [hk]
  · simp [hk]

theorem getRaw_mapEntries (ns : Namespace) (f : String → Value → Value) (k : String) :
    (ns.mapEntries f).getRaw? k = (ns.getRaw? k).map (f k) :=
  lookup_map f ns.entries k

@[simp] theorem getRaw_mapValues (ns : Namespace) (f : Value → Value) (k : String) :
    (ns.mapValues f).getRaw? k = (ns.getRaw? k).map f :=
  lookup_map (fun _ v => f v) ns.entries k

theorem getRaw_modify (ns : Namespace) (key : String) (f : Value → Value) (k : String) :
    (ns.modify key f).getRaw? k = if k = key then (ns.getRaw? k).map f else ns.getRaw? k := by
  rw [modify_eq_mapEntries, getRaw_mapEntries]
  by_cases hk : k = key
  · simp [hk]
  · simp [hk]

/-- A value that is changed twice is as after the first time, where that is so for all values. -/
theorem modify_modify {f : Value → Value} (hf : ∀ v, f (f v) = f v) (ns : Namespace) (key : String) :
    (ns.modify key f).modify key f = ns.modify key f := by
  simp only [modify, List.map_map]
  refine congrArg Namespace.mk (List.map_congr_left fun e _ => ?_)
  by_cases hk : e.1 = key <;> simp [hk, hf]

/-- Values that are changed twice are as after the first time, where that is so for each. -/
theorem mapValues_mapValues {f : Value → Value} (hf : ∀ v, f (f v) = f v) (ns : Namespace) :
    (ns.mapValues f).mapValues f = ns.mapValues f := by
  simp only [mapValues, List.map_map]
  refine congrArg Namespace.mk (List.map_congr_left fun e _ => ?_)
  simp [hf]

@[simp] theorem keys_mapEntries (ns : Namespace) (f : String → Value → Value) : (ns.mapEntries f).keys = ns.keys := by
  simp only [keys, mapEntries, List.map_map]
  rfl

@[simp] theorem getRaw_erase (ns : Namespace) (key k : String) :
    (ns.erase key).getRaw? k = if k = key then none else ns.getRaw? k := by
  simp only [erase, drop, getRaw?]
  induction ns.entries with
  | nil => simp
  | cons e entries ih =>
    by_cases he : e.1 = key
    · rw [List.filter_cons_of_neg (by simp [he]), ih, lookup_cons, he]
      by_cases hk : k = key
      · rw [if_pos hk, if_pos hk]
      · rw [if_neg hk, if_neg hk, if_neg hk]
    · rw [List.filter_cons_of_pos (by simp [he]), lookup_cons, ih, lookup_cons]
      by_cases hk : k = e.1
      · rw [if_pos hk, if_pos hk, if_neg (hk ▸ he)]
      · rw [if_neg hk, if_neg hk]

end Namespace

end ClusterConfig
