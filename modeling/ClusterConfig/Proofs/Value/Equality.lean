import Mathlib.Data.List.Perm.Subperm
import ClusterConfig.Proofs.Value.Written
import ClusterConfig.Value.Equality

/-!
# Values that mean the same

A value means the same as itself with paths replaced by their text. Values that mean the same are equally large: a namespace has
exactly the keys of the other one, in another order.
-/

namespace ClusterConfig

namespace Value

theorem sameItems_iff {xs ys : List Value} : sameItems xs ys = true ↔ List.Forall₂ (fun x y => same x y = true) xs ys := by
  induction xs generalizing ys with
  | nil => cases ys <;> simp [sameItems]
  | cons x xs ih =>
    cases ys with
    | nil => simp [sameItems]
    | cons y ys => rw [sameItems, Bool.and_eq_true, ih, List.forall₂_cons]

theorem foundIn_iff {es fs : List (String × Value)} :
    foundIn es fs = true ↔ ∀ e ∈ es, ∃ w, fs.lookup e.1 = some w ∧ same e.2 w = true := by
  induction es with
  | nil => simp [foundIn]
  | cons e es ih =>
    rw [foundIn, Bool.and_eq_true, ih, List.forall_mem_cons]
    refine and_congr_left fun _ => ?_
    cases fs.lookup e.1 <;> simp

@[simp] theorem same_seq {xs ys : List Value} :
    same (.seq xs) (.seq ys) = true ↔ List.Forall₂ (fun x y => same x y = true) xs ys := by
  rw [same, sameItems_iff]

theorem beq_of_forall₂ {xs ys : List Value} (h : List.Forall₂ (fun x y => same x y = true) xs ys) : (xs == ys) = true := by
  induction h with
  | nil => rfl
  | cons hxy _ ih => exact Bool.and_eq_true_iff.mpr ⟨hxy, ih⟩

@[simp] theorem same_map {es fs : List (String × Value)} :
    same (.map es) (.map fs) = true ↔
      es.length = fs.length ∧ ∀ e ∈ es, ∃ w, fs.lookup e.1 = some w ∧ same e.2 w = true := by
  rw [same, Bool.and_eq_true, beq_iff_eq, foundIn_iff]

theorem same_number (n : Number) : n.same n = true := by
  cases n with
  | int n => exact beq_self_eq_true n
  | float x => cases hx : x.isNaN <;> simp [Number.same, Binary64.same, hx]

/-- A value means the same with paths replaced. -/
theorem same_written {v : Value} (hd : v.Distinct) : v.written.same v = true := by
  induction v using induct with
  | null => rfl
  | bool b => exact beq_self_eq_true b
  | number n => exact same_number n
  | string s => exact beq_self_eq_true s
  | path p =>
    cases hp : p.text? with
    | none =>
      rw [written_path_of_none hp]
      exact beq_self_eq_true p.components
    | some s =>
      rw [written_path_of_some hp, Path.text_eq_some.mp hp, same]
      exact beq_self_eq_true _
  | seq items ih =>
    rw [written_seq, same_seq, List.forall₂_map_left_iff, List.forall₂_same]
    exact fun v hv => ih v hv fun es hw => hd es (.item hv hw)
  | map es ih =>
    rw [written_map, same_map, List.length_map]
    refine ⟨rfl, ?_⟩
    rintro e' he'
    obtain ⟨e, he, rfl⟩ := List.mem_map.mp he'
    exact ⟨e.2, Namespace.lookup_of_mem (hd es (.self es)) he, ih e he fun fs hw => hd fs (.value he hw)⟩

/-- The keys of one of two namespaces that mean the same are those of the other. -/
theorem keys_perm_of_same {es fs : List (String × Value)} (h : same (.map es) (.map fs) = true)
    (hn : (es.map Prod.fst).Nodup) : (es.map Prod.fst).Perm (fs.map Prod.fst) := by
  obtain ⟨hlength, hfound⟩ := same_map.mp h
  have hsubset : es.map Prod.fst ⊆ fs.map Prod.fst := by
    intro key hkey
    obtain ⟨e, he, rfl⟩ := List.mem_map.mp hkey
    obtain ⟨w, hw, -⟩ := hfound e he
    exact List.mem_map.mpr ⟨(e.1, w), Namespace.mem_of_lookup hw, rfl⟩
  exact (List.subperm_of_subset hn hsubset).perm_of_length_le (by simp [hlength])

/-- Values that mean the same are equally large. -/
theorem size_eq_of_same {v w : Value} (h : v.same w = true) (hv : v.Distinct) (hw : w.Distinct) : v.size = w.size := by
  induction v using induct generalizing w with
  | null | bool b | number n | string s | path p => cases w <;> first | rfl | simp [same] at h
  | seq items ih =>
    cases w with
    | seq items' =>
      have hsizes : items.map size = items'.map size := by
        refine map_eq_of_forall₂ (forall₂_imp_of_mem (same_seq.mp h) fun x hx y hy hxy => ?_)
        exact ih x hx hxy (fun es hes => hv es (.item hx hes)) fun es hes => hw es (.item hy hes)
      rw [size_seq, size_seq, hsizes]
    | _ => simp [same] at h
  | map es ih =>
    cases w with
    | map fs =>
      obtain ⟨-, hfound⟩ := same_map.mp h
      let sizeAt (key : String) : Nat := ((fs.lookup key).map size).getD 0
      have hleft : (es.map fun e => e.2.size) = (es.map Prod.fst).map sizeAt := by
        rw [List.map_map]
        refine List.map_congr_left fun e he => ?_
        obtain ⟨w, hlookup, hsame⟩ := hfound e he
        have hwithin : ∀ gs, w.Within gs → (gs.map Prod.fst).Nodup :=
          fun gs hg => hw gs (.value (e := (e.1, w)) (Namespace.mem_of_lookup hlookup) hg)
        have hsize := ih e he hsame (fun gs hg => hv gs (.value he hg)) hwithin
        simp [sizeAt, hlookup, hsize]
      have hright : (fs.map fun f => f.2.size) = (fs.map Prod.fst).map sizeAt := by
        rw [List.map_map]
        refine List.map_congr_left fun f hf => ?_
        simp [sizeAt, Namespace.lookup_of_mem (hw fs (.self fs)) hf]
      have hkeys := keys_perm_of_same h (hv es (.self es))
      rw [size_map, size_map, hleft, hright, (hkeys.map sizeAt).sum_eq]
    | _ => simp [same] at h

end Value

end ClusterConfig
