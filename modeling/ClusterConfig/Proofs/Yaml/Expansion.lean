import Mathlib.Algebra.Order.BigOperators.Group.List
import Mathlib.Algebra.Order.Group.Nat
import ClusterConfig.Proofs.Yaml.Merge

/-!
# Expanding a whole tree

Statements about `expandMerges`, which walks a tree to a given depth. The depth of the tree is always enough, so the walk has the
equations of a recursion over the tree in which a mapping is expanded first and then its values. A tree without merge entries
stays as it is, and one that has any gets smaller.
-/

namespace ClusterConfig.Yaml

namespace Node

/-! ## Lists that are walked from the last element -/

/-- A list is walked without a fault exactly where each of its elements is. -/
theorem mapFromLast_eq_ok {α β ε : Type} {f : α → Except ε β} {xs : List α} {ys : List β} :
    mapFromLast f xs = .ok ys ↔ List.Forall₂ (fun x y => f x = .ok y) xs ys := by
  induction xs generalizing ys with
  | nil => cases ys <;> simp [mapFromLast]
  | cons x xs ih =>
    simp only [mapFromLast, bind_eq_ok, pure_eq_ok, ih]
    constructor
    · rintro ⟨zs, hxs, z, hx, rfl⟩
      exact List.Forall₂.cons hx hxs
    · rintro (_ | ⟨hx, hxs⟩)
      exact ⟨_, hxs, _, hx, rfl⟩

theorem mapFromLast_congr {α β ε : Type} {f g : α → Except ε β} {xs : List α} (h : ∀ x ∈ xs, f x = g x) :
    mapFromLast f xs = mapFromLast g xs := by
  induction xs with
  | nil => rfl
  | cons x xs ih =>
    rw [mapFromLast, mapFromLast, ih fun y hy => h y (List.mem_cons_of_mem x hy), h x List.mem_cons_self]

/-! ## Enough depth -/

/-- Walks to any two depths that are enough for the tree give the same. -/
theorem expandTo_eq_of_depth_le {m n : Nat} {node : Node} (hm : depth node ≤ m) (hn : depth node ≤ n) :
    expandTo m node = expandTo n node := by
  induction m generalizing n node with
  | zero => cases node <;> simp [depth] at hm
  | succ m ih =>
    cases n with
    | zero => cases node <;> simp [depth] at hn
    | succ n =>
      cases node with
      | map es =>
        simp only [depth] at hm hn
        simp only [expandTo]
        cases hmerge : mergeEntries es with
        | error fault => rfl
        | ok merged =>
          have hwalk : mapFromLast (fun e : Node × Node => do return (e.1, ← expandTo m e.2)) merged =
              mapFromLast (fun e : Node × Node => do return (e.1, ← expandTo n e.2)) merged := by
            apply mapFromLast_congr
            intro e he
            have hdepth := depth_of_mem_mergeEntries hmerge he
            rw [ih (n := n) (by omega) (by omega)]
          exact congrArg (fun walked => walked >>= fun values => Except.ok (Node.map values)) hwalk
      | seq items =>
        simp only [depth] at hm hn
        have hwalk : mapFromLast (expandTo m) items = mapFromLast (expandTo n) items := by
          apply mapFromLast_congr
          intro item hitem
          have hdepth := depth_le_depthItems hitem
          exact ih (by omega) (by omega)
        simp only [expandTo, hwalk]
      | tagged tag inner =>
        simp only [depth] at hm hn
        have hinner : expandTo m inner = expandTo n inner := ih (by omega) (by omega)
        simp only [expandTo, hinner]
      | _ => rfl

/-- A walk that is deep enough expands the tree. -/
theorem expandTo_eq_expandMerges {n : Nat} {node : Node} (h : depth node ≤ n) : expandTo n node = expandMerges node :=
  expandTo_eq_of_depth_le h (Nat.le_refl _)

/-! ## The equations of the walk -/

/-- A sequence is expanded element by element. -/
theorem expandMerges_seq_eq_ok {items : List Node} {node : Node} :
    expandMerges (.seq items) = .ok node ↔
      ∃ items', List.Forall₂ (fun n n' => expandMerges n = .ok n') items items' ∧ .seq items' = node := by
  have hwalk : mapFromLast (expandTo (depthItems items)) items = mapFromLast expandMerges items :=
    mapFromLast_congr fun n hn => expandTo_eq_expandMerges (depth_le_depthItems hn)
  simp only [expandMerges.eq_1 (.seq items), depth, expandTo, hwalk, bind_eq_ok, pure_eq_ok, mapFromLast_eq_ok]

/-- What is below a tag is expanded. -/
theorem expandMerges_tagged_eq_ok {tag : String} {inner node : Node} :
    expandMerges (.tagged tag inner) = .ok node ↔ ∃ inner', expandMerges inner = .ok inner' ∧ .tagged tag inner' = node := by
  simp only [expandMerges.eq_1 (.tagged tag inner), depth, expandTo, bind_eq_ok, pure_eq_ok,
    expandMerges.eq_1 inner]

/-- The entry is the other one with its value expanded. -/
def Expanded (e e' : Node × Node) : Prop := e'.1 = e.1 ∧ expandMerges e.2 = .ok e'.2

/-- A mapping is expanded itself, and then its values are. -/
theorem expandMerges_map_eq_ok {es : List (Node × Node)} {node : Node} :
    expandMerges (.map es) = .ok node ↔
      ∃ merged es', mergeEntries es = .ok merged ∧ List.Forall₂ Expanded merged es' ∧ .map es' = node := by
  have hstep : ∀ merged, mergeEntries es = .ok merged →
      mapFromLast (fun e : Node × Node => do return (e.1, ← expandTo (depthEntries es) e.2)) merged =
        mapFromLast (fun e : Node × Node => do return (e.1, ← expandMerges e.2)) merged := by
    intro merged hm
    apply mapFromLast_congr
    intro e he
    rw [expandTo_eq_expandMerges (depth_of_mem_mergeEntries hm he)]
  have hentry : ∀ e e' : Node × Node,
      ((do return (e.1, ← expandMerges e.2)) : Except MergeFault (Node × Node)) = .ok e' ↔ Expanded e e' := by
    intro e e'
    obtain ⟨k', v'⟩ := e'
    simp only [bind_eq_ok, pure_eq_ok, Prod.mk.injEq, Expanded]
    constructor
    · rintro ⟨v, hv, hk, rfl⟩
      exact ⟨hk.symm, hv⟩
    · rintro ⟨hk, hv⟩
      exact ⟨_, hv, hk.symm, rfl⟩
  simp only [expandMerges.eq_1 (.map es), depth, expandTo, bind_eq_ok, pure_eq_ok]
  constructor
  · rintro ⟨merged, hm, es', hes, rfl⟩
    rw [hstep merged hm, mapFromLast_eq_ok] at hes
    exact ⟨merged, es', hm, hes.imp fun e e' h => (hentry e e').mp h, rfl⟩
  · rintro ⟨merged, es', hm, hes, rfl⟩
    refine ⟨merged, hm, es', ?_, rfl⟩
    rw [hstep merged hm, mapFromLast_eq_ok]
    exact hes.imp fun e e' h => (hentry e e').mpr h

/-- Induction along the walk: a mapping by the values it holds once it is expanded itself. -/
theorem mergeInduct {motive : Node → Prop} (null : motive .null) (bool : ∀ b, motive (.bool b))
    (number : ∀ n, motive (.number n)) (string : ∀ s, motive (.string s))
    (seq : ∀ items, (∀ n ∈ items, motive n) → motive (.seq items))
    (map : ∀ es, (∀ merged, mergeEntries es = .ok merged → ∀ e ∈ merged, motive e.2) → motive (.map es))
    (tagged : ∀ tag n, motive n → motive (.tagged tag n)) : ∀ n, motive n
  | .null => null
  | .bool b => bool b
  | .number n => number n
  | .string s => string s
  | .seq items => seq items fun n _ => mergeInduct null bool number string seq map tagged n
  | .map es => map es fun _ _ e _ => mergeInduct null bool number string seq map tagged e.2
  | .tagged tag n => tagged tag n (mergeInduct null bool number string seq map tagged n)
termination_by n => depth n
decreasing_by
  · have := depth_le_depthItems ‹_ ∈ items›
    simp only [depth]
    omega
  · have := depth_of_mem_mergeEntries ‹mergeEntries es = _› ‹_›
    simp only [depth]
    omega
  · simp only [depth]
    omega

/-! ## Trees without merge entries -/

/-- A tree without merge entries stays as it is. -/
theorem expandMerges_of_mergeFree {n : Node} (h : ∀ es, n.Within es → ∀ e ∈ es, e.1 ≠ mergeKey) :
    expandMerges n = .ok n := by
  induction n using induct with
  | null | bool b | number n | string s => rfl
  | seq items ih =>
    rw [expandMerges_seq_eq_ok]
    refine ⟨items, List.forall₂_same.mpr fun n hn => ?_, rfl⟩
    exact ih n hn fun es hw => h es (.item hn hw)
  | map es ih =>
    rw [expandMerges_map_eq_ok]
    refine ⟨es, es, mergeEntries_of_not_mem (h es (.self es)), List.forall₂_same.mpr fun e he => ⟨rfl, ?_⟩, rfl⟩
    exact ih e he fun fs hw => h fs (.value he hw)
  | tagged tag n ih =>
    rw [expandMerges_tagged_eq_ok]
    exact ⟨n, ih fun es hw => h es (.tagged hw), rfl⟩

/-! ## Size -/

/-- The mappings that a value names are smaller than the value. -/
theorem sizeEntries_named_lt (value : Node) : sizeEntries (named value) < size value := by
  unfold named
  split
  · rename_i sources hm
    rcases mergeSources_eq_ok.mp hm with ⟨fs, rfl, rfl⟩ | rfl
    · simp [size]
    · rw [size, Nat.lt_succ_iff]
      induction sources with
      | nil => exact Nat.le_refl _
      | cons fs sources ih =>
        have hrest := ih (mergeSources_eq_ok.mpr (Or.inr rfl))
        rw [List.flatten_cons, sizeEntries_eq_sum, List.map_append, List.sum_append, ← sizeEntries_eq_sum,
          ← sizeEntries_eq_sum, List.map_cons, sizeItems, size]
        omega
  · cases value <;> simp [sizeEntries, size]

/-- A mapping does not grow when its merge entry is expanded, and gets smaller when it has one. -/
theorem sizeEntries_mergeEntries {es merged : List (Node × Node)} (h : mergeEntries es = .ok merged) :
    sizeEntries merged ≤ sizeEntries es ∧ ((∃ e ∈ es, e.1 = mergeKey) → sizeEntries merged < sizeEntries es) := by
  have hadded : sizeEntries (missing (own es) (broughtIn es)) ≤ sizeEntries (broughtIn es) := by
    rw [sizeEntries_eq_sum, sizeEntries_eq_sum]
    exact ((missing_sublist _ _).map _).sum_le_sum (fun _ _ => Nat.zero_le _)
  have hmerged : sizeEntries merged = sizeEntries (own es) + sizeEntries (missing (own es) (broughtIn es)) := by
    rw [mergeEntries_eq h, addMissing_eq, sizeEntries_eq_sum, List.map_append, List.sum_append, ← sizeEntries_eq_sum,
      ← sizeEntries_eq_sum]
  rcases own_perm es with ⟨ho, hb, hno⟩ | ⟨value, hp, hb⟩
  · rw [hb] at hadded
    rw [ho, hb] at hmerged
    simp only [missing, sizeEntries] at hadded hmerged
    refine ⟨by omega, ?_⟩
    rintro ⟨e, he, hk⟩
    exact absurd hk (hno e he)
  · have hes : sizeEntries es = size value + sizeEntries (own es) := by
      rw [sizeEntries_eq_sum, (hp.map _).sum_eq, List.map_cons, List.sum_cons, ← sizeEntries_eq_sum]
    have hlt := sizeEntries_named_lt value
    rw [hb] at hadded hmerged
    exact ⟨by omega, fun _ => by omega⟩

/-- Elements that are at most as large as others are so together, and smaller together where one is. -/
theorem sum_le_of_forall₂ {α β : Type} {f : α → Nat} {g : β → Nat} {p : α → Prop} {xs : List α} {ys : List β}
    (h : List.Forall₂ (fun x y => g y ≤ f x ∧ (p x → g y < f x)) xs ys) :
    (ys.map g).sum ≤ (xs.map f).sum ∧ ((∃ x ∈ xs, p x) → (ys.map g).sum < (xs.map f).sum) := by
  induction h with
  | nil => simp
  | cons hx _ ih =>
    simp only [List.map_cons, List.sum_cons, List.mem_cons, exists_eq_or_imp]
    refine ⟨by omega, ?_⟩
    rintro (hp | hp)
    · have := hx.2 hp
      omega
    · have := ih.2 hp
      omega

/-- The tree has a merge entry in one of its mappings. -/
def HasMergeEntry (n : Node) : Prop := ∃ es, n.Within es ∧ ∃ e ∈ es, e.1 = mergeKey

/-- Expanding a tree does not make it larger, and makes it smaller when it has a merge entry. -/
theorem size_expandMerges {n n' : Node} (h : expandMerges n = .ok n') :
    size n' ≤ size n ∧ (n.HasMergeEntry → size n' < size n) := by
  induction n using mergeInduct generalizing n' with
  | null | bool b | number n | string s =>
    cases h
    exact ⟨Nat.le_refl _, by simp [HasMergeEntry]⟩
  | seq items ih =>
    obtain ⟨items', hi, rfl⟩ := expandMerges_seq_eq_ok.mp h
    have hitems := sum_le_of_forall₂ (forall₂_imp_of_mem hi fun n hn _ _ hx => ih n hn hx)
    rw [← sizeItems_eq_sum, ← sizeItems_eq_sum] at hitems
    simp only [size, Nat.add_lt_add_iff_right, Nat.add_le_add_iff_right]
    refine ⟨hitems.1, ?_⟩
    rintro ⟨es, hw, hk⟩
    obtain ⟨n, hn, hw⟩ := within_seq.mp hw
    exact hitems.2 ⟨n, hn, es, hw, hk⟩
  | map es ih =>
    obtain ⟨merged, es', hm, he, rfl⟩ := expandMerges_map_eq_ok.mp h
    have hvalues := sum_le_of_forall₂ (forall₂_imp_of_mem he fun e hmem _ _ hx => ih merged hm e hmem hx.2)
    have hown := sizeEntries_mergeEntries hm
    rw [← sizeEntries_eq_sum, ← sizeEntries_eq_sum] at hvalues
    simp only [size, Nat.add_lt_add_iff_right, Nat.add_le_add_iff_right]
    refine ⟨hvalues.1.trans hown.1, ?_⟩
    rintro ⟨fs, hw, hk⟩
    by_cases hes : ∃ e ∈ es, e.1 = mergeKey
    · exact Nat.lt_of_le_of_lt hvalues.1 (hown.2 hes)
    · rw [within_map] at hw
      rcases hw with rfl | ⟨e, hmem, hw⟩
      · exact absurd hk hes
      · have hsame : merged = es := by
          have := mergeEntries_of_not_mem fun e he hk => hes ⟨e, he, hk⟩
          exact Except.ok.inj (hm.symm.trans this)
        subst hsame
        exact hvalues.2 ⟨e, hmem, fs, hw, hk⟩
  | tagged tag n ih =>
    obtain ⟨inner, hi, rfl⟩ := expandMerges_tagged_eq_ok.mp h
    obtain ⟨hle, hlt⟩ := ih hi
    simp only [size, Nat.add_lt_add_iff_right, Nat.add_le_add_iff_right]
    refine ⟨hle, ?_⟩
    rintro ⟨es, hw, hk⟩
    exact hlt ⟨es, within_tagged.mp hw, hk⟩

end Node

end ClusterConfig.Yaml
