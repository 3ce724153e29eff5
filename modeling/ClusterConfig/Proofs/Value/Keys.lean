import ClusterConfig.Proofs.Value.Tree

/-!
# Keys at any depth

Which keys the namespaces in a value have, and the changes of values that add no such key.
-/

namespace ClusterConfig

namespace Value

variable {key : String}

@[simp] theorem hasKey_seq {items : List Value} : (seq items).HasKey key ↔ ∃ v ∈ items, v.HasKey key := by
  constructor
  · rintro ⟨es, hw, hk⟩
    obtain ⟨v, hv, hw⟩ := within_seq.mp hw
    exact ⟨v, hv, es, hw, hk⟩
  · rintro ⟨v, hv, es, hw, hk⟩
    exact ⟨es, within_seq.mpr ⟨v, hv, hw⟩, hk⟩

@[simp] theorem hasKey_map {es : List (String × Value)} :
    (map es).HasKey key ↔ key ∈ es.map Prod.fst ∨ ∃ e ∈ es, e.2.HasKey key := by
  constructor
  · rintro ⟨fs, hw, hk⟩
    rcases within_map.mp hw with rfl | ⟨e, he, hw⟩
    · exact Or.inl hk
    · exact Or.inr ⟨e, he, fs, hw, hk⟩
  · rintro (hk | ⟨e, he, fs, hw, hk⟩)
    · exact ⟨es, within_map.mpr (Or.inl rfl), hk⟩
    · exact ⟨fs, within_map.mpr (Or.inr ⟨e, he, hw⟩), hk⟩

/-- What has a key is a sequence or a namespace. -/
theorem not_hasKey_of_leaf {v : Value} (hseq : v.asSeq? = none) (hmap : v.asMap? = none) : ¬v.HasKey key := by
  rintro ⟨es, hw, -⟩
  cases hw with
  | self => cases hmap
  | item => cases hseq
  | value => cases hmap

/-- The keys of a value that is found are keys of the namespace. -/
theorem hasKey_of_getRaw {ns : Namespace} {k : String} {v : Value} (h : ns.getRaw? k = some v) (hv : v.HasKey key) :
    (ofNamespace ns).HasKey key :=
  hasKey_map.mpr (Or.inr ⟨(k, v), Namespace.mem_of_lookup h, hv⟩)

theorem hasKey_of_asMap {ns fields : Namespace} {k : String} (h : (ns.getRaw? k).bind asMap? = some fields)
    (hk : (ofNamespace fields).HasKey key) : (ofNamespace ns).HasKey key := by
  obtain ⟨v, hv, hmap⟩ := Option.bind_eq_some_iff.mp h
  cases v with
  | map es =>
    cases hmap
    exact hasKey_of_getRaw hv hk
  | _ => cases hmap

theorem hasKey_of_asSeq {ns fields : Namespace} {k : String} {items : List Value} {v : Value}
    (h : (ns.getRaw? k).bind asSeq? = some items) (hmem : v ∈ items) (hv : v.asMap? = some fields)
    (hk : (ofNamespace fields).HasKey key) : (ofNamespace ns).HasKey key := by
  obtain ⟨w, hw, hseq⟩ := Option.bind_eq_some_iff.mp h
  cases v with
  | map es =>
    cases hv
    cases w with
    | seq =>
      cases hseq
      exact hasKey_of_getRaw hw (hasKey_seq.mpr ⟨_, hmem, hk⟩)
    | _ => cases hseq
  | _ => cases hv

/-! ## Changes that add no key -/

/-- The change gives no value the key that had it nowhere. -/
def AddsNoKey (key : String) (f : Value → Value) : Prop := ∀ v, (f v).HasKey key → v.HasKey key

theorem AddsNoKey.mapItems {f : Value → Value} (hf : AddsNoKey key f) : AddsNoKey key (Value.mapItems f) := by
  intro v h
  cases v with
  | seq items =>
    obtain ⟨w, hw, hk⟩ := hasKey_seq.mp h
    obtain ⟨item, hitem, rfl⟩ := List.mem_map.mp hw
    exact hasKey_seq.mpr ⟨item, hitem, hf item hk⟩
  | _ => exact h

theorem addsNoKey_mapNamespace {f : Namespace → Namespace}
    (hf : ∀ ns, (ofNamespace (f ns)).HasKey key → (ofNamespace ns).HasKey key) : AddsNoKey key (mapNamespace f) := by
  intro v h
  cases v with
  | map es => exact hf ⟨es⟩ h
  | _ => exact h

theorem hasKey_mapEntries {f : String → Value → Value} (hf : ∀ k, AddsNoKey key (f k)) {ns : Namespace}
    (h : (ofNamespace (ns.mapEntries f)).HasKey key) : (ofNamespace ns).HasKey key := by
  rcases hasKey_map.mp h with hk | ⟨e, he, hk⟩
  · rw [← Namespace.keys, Namespace.keys_mapEntries] at hk
    exact hasKey_map.mpr (Or.inl hk)
  · obtain ⟨e', he', rfl⟩ := List.mem_map.mp he
    exact hasKey_map.mpr (Or.inr ⟨e', he', hf e'.1 e'.2 hk⟩)

theorem hasKey_modify {k : String} {f : Value → Value} (hf : AddsNoKey key f) {ns : Namespace}
    (h : (ofNamespace (ns.modify k f)).HasKey key) : (ofNamespace ns).HasKey key := by
  rw [Namespace.modify_eq_mapEntries] at h
  refine hasKey_mapEntries (fun k' v hk => ?_) h
  split at hk
  · exact hf v hk
  · exact hk

theorem hasKey_filter {p : String × Value → Bool} {ns : Namespace}
    (h : (ofNamespace ⟨ns.entries.filter p⟩).HasKey key) : (ofNamespace ns).HasKey key := by
  rcases hasKey_map.mp h with hk | ⟨e, he, hk⟩
  · obtain ⟨e, he, rfl⟩ := List.mem_map.mp hk
    exact hasKey_map.mpr (Or.inl (List.mem_map_of_mem (List.mem_filter.mp he).1))
  · exact hasKey_map.mpr (Or.inr ⟨e, (List.mem_filter.mp he).1, hk⟩)

/-- A value without the key, put under another one, adds none. -/
theorem hasKey_insert {k : String} {v : Value} (hk : k ≠ key) (hv : ¬v.HasKey key) {ns : Namespace}
    (h : (ofNamespace (ns.insert k v)).HasKey key) : (ofNamespace ns).HasKey key := by
  rcases hasKey_map.mp h with hmem | ⟨e, he, hkey⟩
  · obtain ⟨e, he, rfl⟩ := List.mem_map.mp hmem
    rcases Namespace.mem_put he with rfl | he
    · exact absurd rfl hk
    · exact hasKey_map.mpr (Or.inl (List.mem_map_of_mem he))
  · rcases Namespace.mem_put he with rfl | he
    · exact absurd hkey hv
    · exact hasKey_map.mpr (Or.inr ⟨e, he, hkey⟩)

end Value

end ClusterConfig
