import Mathlib.Algebra.GroupWithZero.Nat
import ClusterConfig.Yaml.Merge

/-!
# Trees and the mappings in them

Statements about the shape of a tree: induction over it, the mappings that stand in it at any depth, its size, and when two keys
are the same. A statement about every mapping of a tree is one about all entries `es` with `n.Within es`.
-/

namespace ClusterConfig.Yaml

namespace Node

/-- Induction over a tree: sequences by their elements, mappings by the values of their entries, tags by what is below them. -/
theorem induct {motive : Node → Prop} (null : motive .null) (bool : ∀ b, motive (.bool b))
    (number : ∀ n, motive (.number n)) (string : ∀ s, motive (.string s))
    (seq : ∀ items, (∀ n ∈ items, motive n) → motive (.seq items))
    (map : ∀ es, (∀ e ∈ es, motive e.2) → motive (.map es))
    (tagged : ∀ tag n, motive n → motive (.tagged tag n)) : ∀ n, motive n
  | .null => null
  | .bool b => bool b
  | .number n => number n
  | .string s => string s
  | .seq items => seq items fun n _ => induct null bool number string seq map tagged n
  | .map es => map es fun e _ => induct null bool number string seq map tagged e.2
  | .tagged tag n => tagged tag n (induct null bool number string seq map tagged n)
termination_by n => sizeOf n
decreasing_by
  · have := List.sizeOf_lt_of_mem ‹_ ∈ items›
    simp only [Node.seq.sizeOf_spec]
    omega
  · have hmem := List.sizeOf_lt_of_mem ‹_ ∈ es›
    have hsnd : sizeOf e.2 < sizeOf e := by
      obtain ⟨k, v⟩ := e
      simp only [Prod.mk.sizeOf_spec]
      omega
    simp only [Node.map.sizeOf_spec]
    omega
  · simp only [Node.tagged.sizeOf_spec]
    omega

/-! ## The mappings of a tree -/

/-- The entries are those of a mapping in the tree: the tree itself, or one in an element, in the value of an entry or below a
tag. -/
inductive Within : Node → List (Node × Node) → Prop where
  | self (es : List (Node × Node)) : Within (.map es) es
  | item {items : List Node} {n : Node} {es : List (Node × Node)} : n ∈ items → Within n es → Within (.seq items) es
  | value {fs : List (Node × Node)} {e : Node × Node} {es : List (Node × Node)} :
      e ∈ fs → Within e.2 es → Within (.map fs) es
  | tagged {tag : String} {n : Node} {es : List (Node × Node)} : Within n es → Within (.tagged tag n) es

@[simp] theorem within_seq {items : List Node} {es : List (Node × Node)} :
    Within (.seq items) es ↔ ∃ n ∈ items, n.Within es :=
  ⟨fun | .item hn h => ⟨_, hn, h⟩, fun ⟨_, hn, h⟩ => .item hn h⟩

@[simp] theorem within_map {fs es : List (Node × Node)} :
    Within (.map fs) es ↔ es = fs ∨ ∃ e ∈ fs, e.2.Within es := by
  constructor
  · rintro (_ | ⟨_, _⟩ | ⟨he, h⟩)
    · exact Or.inl rfl
    · exact Or.inr ⟨_, he, h⟩
  · rintro (rfl | ⟨e, he, h⟩)
    · exact .self _
    · exact .value he h

@[simp] theorem within_tagged {tag : String} {n : Node} {es : List (Node × Node)} :
    Within (.tagged tag n) es ↔ n.Within es :=
  ⟨fun | .tagged h => h, .tagged⟩

@[simp] theorem not_within_null {es : List (Node × Node)} : ¬Within .null es := nofun

@[simp] theorem not_within_bool {b : Bool} {es : List (Node × Node)} : ¬Within (.bool b) es := nofun

@[simp] theorem not_within_number {n : Number} {es : List (Node × Node)} : ¬Within (.number n) es := nofun

@[simp] theorem not_within_string {s : String} {es : List (Node × Node)} : ¬Within (.string s) es := nofun

/-! ## Size -/

mutual

/-- How many values a tree is made of. -/
def size : Node → Nat
  | seq items => sizeItems items + 1
  | map es => sizeEntries es + 1
  | tagged _ n => size n + 1
  | _ => 1

/-- The size of the elements of a sequence. -/
def sizeItems : List Node → Nat
  | [] => 0
  | n :: rest => size n + sizeItems rest

/-- The size of the values of entries. -/
def sizeEntries : List (Node × Node) → Nat
  | [] => 0
  | (_, v) :: rest => size v + sizeEntries rest

end

theorem sizeItems_eq_sum (items : List Node) : sizeItems items = (items.map size).sum := by
  induction items with
  | nil => rfl
  | cons n items ih =>
    rw [List.map_cons, List.sum_cons, ← ih]
    rfl

theorem sizeEntries_eq_sum (es : List (Node × Node)) : sizeEntries es = (es.map fun e => size e.2).sum := by
  induction es with
  | nil => rfl
  | cons e es ih =>
    rw [List.map_cons, List.sum_cons, ← ih]
    rfl

theorem size_seq (items : List Node) : (seq items).size = (items.map size).sum + 1 :=
  congrArg (· + 1) (sizeItems_eq_sum items)

theorem size_map (es : List (Node × Node)) : (map es).size = (es.map fun e => size e.2).sum + 1 :=
  congrArg (· + 1) (sizeEntries_eq_sum es)

theorem size_tagged (tag : String) (n : Node) : (tagged tag n).size = n.size + 1 := rfl

/-! ## Equality -/

mutual

/-- The two trees are equal. -/
def equal : Node → Node → Bool
  | null, null => true
  | bool a, bool b => a == b
  | number a, number b => a == b
  | string a, string b => a == b
  | seq xs, seq ys => equalItems xs ys
  | map es, map fs => equalEntries es fs
  | tagged s a, tagged t b => s == t && equal a b
  | _, _ => false

/-- The elements are equal, one by one. -/
def equalItems : List Node → List Node → Bool
  | [], [] => true
  | x :: xs, y :: ys => equal x y && equalItems xs ys
  | _, _ => false

/-- The entries are equal, one by one. -/
def equalEntries : List (Node × Node) → List (Node × Node) → Bool
  | [], [] => true
  | (k, v) :: es, (l, w) :: fs => equal k l && equal v w && equalEntries es fs
  | _, _ => false

end

mutual

theorem equal_iff : ∀ a b : Node, equal a b = true ↔ a = b
  | null, b => by cases b <;> simp [equal]
  | bool x, b => by cases b <;> simp [equal]
  | number x, b => by cases b <;> simp [equal]
  | string x, b => by cases b <;> simp [equal]
  | seq xs, b => by cases b <;> simp [equal, equalItems_iff xs]
  | map es, b => by cases b <;> simp [equal, equalEntries_iff es]
  | tagged tag a, b => by cases b <;> simp [equal, equal_iff a]

theorem equalItems_iff : ∀ xs ys : List Node, equalItems xs ys = true ↔ xs = ys
  | [], ys => by cases ys <;> simp [equalItems]
  | x :: xs, ys => by cases ys <;> simp [equalItems, equal_iff x, equalItems_iff xs]

theorem equalEntries_iff : ∀ es fs : List (Node × Node), equalEntries es fs = true ↔ es = fs
  | [], fs => by cases fs <;> simp [equalEntries]
  | (k, v) :: es, fs => by
    cases fs <;> simp [equalEntries, equal_iff k, equal_iff v, equalEntries_iff es, Prod.ext_iff]

end

instance : DecidableEq Node := fun _ _ => decidable_of_iff _ (equal_iff _ _)

/-! ## Keys -/

@[simp] theorem same_string {s : String} {k : Node} : same (.string s) k = true ↔ k = .string s := by
  cases k <;> simp only [same, beq_iff_eq, Node.string.injEq, reduceCtorEq, Bool.false_eq_true]
  exact eq_comm

/-- Keys of a mapping are distinct: no key means the same as one before it. -/
def DistinctKeys (es : List (Node × Node)) : Prop := es.Pairwise fun a b => ¬b.1.same a.1 = true

/-- All keys are strings. -/
def TextKeys (es : List (Node × Node)) : Prop := ∀ e ∈ es, ∃ s, e.1 = .string s

/-- Distinct keys that are strings are different. -/
theorem DistinctKeys.nodup {es : List (Node × Node)} (h : DistinctKeys es) (ht : TextKeys es) :
    (es.map Prod.fst).Nodup := by
  rw [List.Nodup, List.pairwise_map]
  refine List.Pairwise.imp_of_mem ?_ h
  intro a b ha _ hab heq
  obtain ⟨s, hs⟩ := ht a ha
  rw [heq] at hs
  exact hab (by rw [heq, hs, same_string])

/-- String keys that are different are distinct. -/
theorem TextKeys.distinctKeys {es : List (Node × Node)} (ht : TextKeys es) (hn : (es.map Prod.fst).Nodup) :
    DistinctKeys es := by
  rw [List.Nodup, List.pairwise_map] at hn
  refine List.Pairwise.imp_of_mem ?_ hn
  intro a b _ hb hab hsame
  obtain ⟨s, hs⟩ := ht b hb
  rw [hs, same_string] at hsame
  exact hab (hsame.trans hs.symm)

end Node

end ClusterConfig.Yaml
