import Mathlib.Algebra.GroupWithZero.Nat
import ClusterConfig.Proofs.Namespace

/-!
# Values and the namespaces in them

Statements about the shape of a value: induction over it, the namespaces that stand in it at any depth, and its size. A statement
about every namespace of a value is one about all entries `es` with `v.Within es`.
-/

namespace ClusterConfig

namespace Value

/-- Induction over a value: sequences by their elements, namespaces by the values of their entries. -/
theorem induct {motive : Value → Prop} (null : motive .null) (bool : ∀ b, motive (.bool b))
    (number : ∀ n, motive (.number n)) (string : ∀ s, motive (.string s)) (path : ∀ p, motive (.path p))
    (seq : ∀ items, (∀ v ∈ items, motive v) → motive (.seq items))
    (map : ∀ es, (∀ e ∈ es, motive e.2) → motive (.map es)) : ∀ v, motive v
  | .null => null
  | .bool b => bool b
  | .number n => number n
  | .string s => string s
  | .path p => path p
  | .seq items => seq items fun v _ => induct null bool number string path seq map v
  | .map es => map es fun e _ => induct null bool number string path seq map e.2
termination_by v => sizeOf v
decreasing_by
  · have := List.sizeOf_lt_of_mem ‹_ ∈ items›
    simp only [Value.seq.sizeOf_spec]
    omega
  · have hmem := List.sizeOf_lt_of_mem ‹_ ∈ es›
    have hsnd : sizeOf e.2 < sizeOf e := by
      obtain ⟨k, v⟩ := e
      simp only [Prod.mk.sizeOf_spec]
      omega
    simp only [Value.map.sizeOf_spec]
    omega

/-! ## The namespaces of a value -/

/-- The entries are those of a namespace in the value: the value itself, or one in an element or in the value of an entry. -/
inductive Within : Value → List (String × Value) → Prop where
  | self (es : List (String × Value)) : Within (.map es) es
  | item {items : List Value} {v : Value} {es : List (String × Value)} : v ∈ items → Within v es → Within (.seq items) es
  | value {fs : List (String × Value)} {e : String × Value} {es : List (String × Value)} :
      e ∈ fs → Within e.2 es → Within (.map fs) es

@[simp] theorem within_seq {items : List Value} {es : List (String × Value)} :
    Within (.seq items) es ↔ ∃ v ∈ items, v.Within es :=
  ⟨fun | .item hv h => ⟨_, hv, h⟩, fun ⟨_, hv, h⟩ => .item hv h⟩

@[simp] theorem within_map {fs es : List (String × Value)} :
    Within (.map fs) es ↔ es = fs ∨ ∃ e ∈ fs, e.2.Within es := by
  constructor
  · rintro (_ | ⟨_, _⟩ | ⟨he, h⟩)
    · exact Or.inl rfl
    · exact Or.inr ⟨_, he, h⟩
  · rintro (rfl | ⟨e, he, h⟩)
    · exact .self _
    · exact .value he h

@[simp] theorem not_within_null {es : List (String × Value)} : ¬Within .null es := nofun

@[simp] theorem not_within_bool {b : Bool} {es : List (String × Value)} : ¬Within (.bool b) es := nofun

@[simp] theorem not_within_number {n : Number} {es : List (String × Value)} : ¬Within (.number n) es := nofun

@[simp] theorem not_within_string {s : String} {es : List (String × Value)} : ¬Within (.string s) es := nofun

@[simp] theorem not_within_path {p : Path} {es : List (String × Value)} : ¬Within (.path p) es := nofun

/-- All namespaces in the value have distinct keys. -/
def Distinct (v : Value) : Prop := ∀ es, v.Within es → (es.map Prod.fst).Nodup

@[simp] theorem distinct_null : Distinct .null := nofun

@[simp] theorem distinct_bool (b : Bool) : Distinct (.bool b) := nofun

@[simp] theorem distinct_number (n : Number) : Distinct (.number n) := nofun

@[simp] theorem distinct_string (s : String) : Distinct (.string s) := nofun

@[simp] theorem distinct_path (p : Path) : Distinct (.path p) := nofun

@[simp] theorem distinct_seq {items : List Value} : Distinct (.seq items) ↔ ∀ v ∈ items, v.Distinct := by
  constructor
  · intro h v hv es hw
    exact h es (.item hv hw)
  · intro h es hw
    obtain ⟨v, hv, hw⟩ := within_seq.mp hw
    exact h v hv es hw

@[simp] theorem distinct_map {fs : List (String × Value)} :
    Distinct (.map fs) ↔ (fs.map Prod.fst).Nodup ∧ ∀ e ∈ fs, e.2.Distinct := by
  constructor
  · intro h
    exact ⟨h fs (.self fs), fun e he es hw => h es (.value he hw)⟩
  · rintro ⟨hn, h⟩ es hw
    rcases within_map.mp hw with rfl | ⟨e, he, hw⟩
    · exact hn
    · exact h e he es hw

/-- Some namespace in the value has an entry under the key. -/
def HasKey (v : Value) (key : String) : Prop := ∃ es, v.Within es ∧ key ∈ es.map Prod.fst

/-! ## Changing the parts of a value -/

theorem asSeq_eq_some {v : Value} {items : List Value} : v.asSeq? = some items ↔ v = .seq items := by
  cases v <;> simp [asSeq?]

theorem asMap_eq_some {v : Value} {ns : Namespace} : v.asMap? = some ns ↔ v = .ofNamespace ns := by
  obtain ⟨entries⟩ := ns
  cases v <;> simp [asMap?, ofNamespace]

theorem asSeq_mapItems (f : Value → Value) (v : Value) :
    (mapItems f v).asSeq? = v.asSeq?.map fun items => items.map f := by
  cases v <;> rfl

theorem asMap_mapNamespace (f : Namespace → Namespace) (v : Value) : (mapNamespace f v).asMap? = v.asMap?.map f := by
  cases v <;> rfl

/-- Elements changed twice are as after the first time, where that is so for each. -/
theorem mapItems_mapItems {f : Value → Value} (hf : ∀ v, f (f v) = f v) (v : Value) :
    mapItems f (mapItems f v) = mapItems f v := by
  cases v with
  | seq items =>
    simp only [mapItems, List.map_map, seq.injEq]
    exact List.map_congr_left fun item _ => hf item
  | _ => rfl

/-- A namespace that is changed twice is as after the first time, where that is so for all namespaces. -/
theorem mapNamespace_mapNamespace {f : Namespace → Namespace} (hf : ∀ ns, f (f ns) = f ns) (v : Value) :
    mapNamespace f (mapNamespace f v) = mapNamespace f v := by
  cases v with
  | map entries => exact congrArg ofNamespace (hf ⟨entries⟩)
  | _ => rfl

/-! ## Size -/

mutual

/-- How many values a value is made of. -/
def size : Value → Nat
  | seq items => sizeItems items + 1
  | map es => sizeEntries es + 1
  | _ => 1

/-- The size of the elements of a sequence. -/
def sizeItems : List Value → Nat
  | [] => 0
  | v :: rest => size v + sizeItems rest

/-- The size of the values of entries. -/
def sizeEntries : List (String × Value) → Nat
  | [] => 0
  | (_, v) :: rest => size v + sizeEntries rest

end

theorem sizeItems_eq_sum (items : List Value) : sizeItems items = (items.map size).sum := by
  induction items with
  | nil => rfl
  | cons v items ih =>
    rw [List.map_cons, List.sum_cons, ← ih]
    rfl

theorem sizeEntries_eq_sum (es : List (String × Value)) : sizeEntries es = (es.map fun e => size e.2).sum := by
  induction es with
  | nil => rfl
  | cons e es ih =>
    rw [List.map_cons, List.sum_cons, ← ih]
    rfl

theorem size_seq (items : List Value) : (seq items).size = (items.map size).sum + 1 :=
  congrArg (· + 1) (sizeItems_eq_sum items)

theorem size_map (es : List (String × Value)) : (map es).size = (es.map fun e => size e.2).sum + 1 :=
  congrArg (· + 1) (sizeEntries_eq_sum es)

/-- Putting a value adds its size at most. -/
theorem sizeEntries_put_le (key : String) (v : Value) (es : List (String × Value)) :
    sizeEntries (Namespace.put key v es) ≤ sizeEntries es + v.size := by
  induction es with
  | nil => simp [Namespace.put, sizeEntries]
  | cons e es ih =>
    obtain ⟨k, w⟩ := e
    rw [Namespace.put]
    split
    · simp only [sizeEntries]
      omega
    · simp only [sizeEntries]
      omega

/-- Collecting pairs loses values and adds none. -/
theorem sizeEntries_ofPairs_le (pairs : List (String × Value)) :
    sizeEntries (Namespace.ofPairs pairs).entries ≤ sizeEntries pairs := by
  have hfold : ∀ ns : Namespace,
      sizeEntries (pairs.foldl (fun ns e => ns.insert e.1 e.2) ns).entries ≤ sizeEntries ns.entries + sizeEntries pairs := by
    induction pairs with
    | nil => exact fun ns => Nat.le_refl _
    | cons e pairs ih =>
      intro ns
      have hput : sizeEntries (ns.insert e.1 e.2).entries ≤ sizeEntries ns.entries + e.2.size :=
        sizeEntries_put_le e.1 e.2 ns.entries
      have hrest := ih (ns.insert e.1 e.2)
      simp only [List.foldl_cons, sizeEntries]
      omega
  have hall := hfold .empty
  simp only [Namespace.empty, sizeEntries, Nat.zero_add] at hall
  exact hall

end Value

end ClusterConfig
