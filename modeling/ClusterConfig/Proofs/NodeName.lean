import Mathlib.Data.List.Basic
import ClusterConfig.NodeName

/-!
# Parts of names

A name that ends in a dash and a part without dashes is divided there. The digits of a number are such a part, whatever dashes
the name before them has.
-/

namespace ClusterConfig

theorem dash_not_mem_toString (n : Nat) : '-' ∉ (toString n).toList := by
  intro h
  have hdigits : (toString n).toList = Nat.toDigits 10 n := Nat.toList_repr
  rw [hdigits] at h
  exact absurd (Nat.isDigit_of_mem_toDigits (by omega) (by omega) h) (by decide)

/-- The last dash of a name stands before a part that has none. -/
theorem beforeLastDash_append {part : String} (h : '-' ∉ part.toList) (name : String) :
    beforeLastDash (name ++ "-" ++ part) = name := by
  have hpart : ∀ c ∈ part.toList.reverse, (c != '-') = true := by
    intro c hc
    refine bne_iff_ne.mpr ?_
    rintro rfl
    exact h (List.mem_reverse.mp hc)
  have hreversed : (name ++ "-" ++ part).toList.reverse = part.toList.reverse ++ '-' :: name.toList.reverse := by
    simp
  have hdropped : (name ++ "-" ++ part).toList.reverse.dropWhile (· != '-') = '-' :: name.toList.reverse := by
    rw [hreversed, List.dropWhile_append_of_pos hpart, List.dropWhile_cons_of_neg (by decide)]
  rw [beforeLastDash, hdropped, List.drop_one, List.tail_cons, List.reverse_reverse, String.ofList_toList]

/-- The partition of a node is found again from the number of the node. -/
theorem partitionOf_append (partition : String) (node : Nat) :
    partitionOf (partition ++ "-" ++ toString node) = partition :=
  beforeLastDash_append (dash_not_mem_toString node) partition

end ClusterConfig
