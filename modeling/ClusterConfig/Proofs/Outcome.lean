import Mathlib.Data.List.Forall2

/-!
# Steps that may fail

When a chain of steps gives a result: each step did, and the results fit together. Lists and results that may be missing are
compared element by element.
-/

namespace ClusterConfig

/-- Two steps give a result exactly where the first does and the second does from there. -/
theorem bind_eq_ok {α β ε : Type} {x : Except ε α} {f : α → Except ε β} {b : β} :
    x >>= f = .ok b ↔ ∃ a, x = .ok a ∧ f a = .ok b := by
  cases x <;> simp [bind, Except.bind]

theorem pure_eq_ok {α ε : Type} {a b : α} : (pure a : Except ε α) = .ok b ↔ a = b := by
  simp [pure, Except.pure]

theorem map_eq_ok {α β ε : Type} {x : Except ε α} {f : α → β} {b : β} :
    x.map f = .ok b ↔ ∃ a, x = .ok a ∧ f a = b := by
  cases x <;> simp [Except.map]

/-- What a step that may fail leaves behind: its result, or what was there before. -/
theorem toOption_getD_of_ok {α ε : Type} {x : Except ε α} {a : α} {p : α → Prop} (h : p a) (hx : ∀ b, x = .ok b → p b) :
    p (x.toOption.getD a) := by
  cases x with
  | error e => exact h
  | ok b => exact hx b rfl

/-- Why a step failed, if it did. -/
def faultOf {α ε : Type} : Except ε α → Option ε
  | .error e => some e
  | .ok _ => none

theorem faultOf_eq_some {α ε : Type} {x : Except ε α} {e : ε} : faultOf x = some e ↔ x = .error e := by
  cases x <;> simp [faultOf]

theorem faultOf_eq_none {α ε : Type} {x : Except ε α} : faultOf x = none ↔ ∃ a, x = .ok a := by
  cases x <;> simp [faultOf]

theorem faultOf_map {α β ε : Type} (f : α → β) (x : Except ε α) : faultOf (x.map f) = faultOf x := by
  cases x <;> rfl

/-- Of two steps, each with a result of its own, the first that fails is the fault. -/
theorem faultOf_both {α β γ ε : Type} (x : Except ε α) (y : Except ε β) (f : α → β → γ) :
    faultOf (x >>= fun a => y >>= fun b => pure (f a b)) = (faultOf x).or (faultOf y) := by
  cases x with
  | error e => rfl
  | ok a => cases y <;> rfl

/-! ## Lists compared element by element -/

/-- Every element of the first list has a related one in the second. -/
theorem exists_right_of_forall₂ {α β : Type} {r : α → β → Prop} {xs : List α} {ys : List β} (h : List.Forall₂ r xs ys)
    {x : α} (hx : x ∈ xs) : ∃ y ∈ ys, r x y := by
  induction h with
  | nil => simp at hx
  | cons hr _ ih =>
    rcases List.mem_cons.mp hx with rfl | hx
    · exact ⟨_, List.mem_cons_self, hr⟩
    · obtain ⟨y, hy, hr⟩ := ih hx
      exact ⟨y, List.mem_cons_of_mem _ hy, hr⟩

/-- Every element of the second list has a related one in the first. -/
theorem exists_left_of_forall₂ {α β : Type} {r : α → β → Prop} {xs : List α} {ys : List β} (h : List.Forall₂ r xs ys)
    {y : β} (hy : y ∈ ys) : ∃ x ∈ xs, r x y :=
  exists_right_of_forall₂ h.flip hy

/-- One of two related lists has an element with a property exactly where the other one has, where that is so for related
elements. -/
theorem exists_mem_iff_of_forall₂ {α β : Type} {r : α → β → Prop} {xs : List α} {ys : List β} {p : α → Prop} {q : β → Prop}
    (h : List.Forall₂ r xs ys) (hpq : ∀ x ∈ xs, ∀ y, r x y → (q y ↔ p x)) : (∃ y ∈ ys, q y) ↔ ∃ x ∈ xs, p x := by
  constructor
  · rintro ⟨y, hy, hq⟩
    obtain ⟨x, hx, hr⟩ := exists_left_of_forall₂ h hy
    exact ⟨x, hx, (hpq x hx y hr).mp hq⟩
  · rintro ⟨x, hx, hp⟩
    obtain ⟨y, hy, hr⟩ := exists_right_of_forall₂ h hx
    exact ⟨y, hy, (hpq x hx y hr).mpr hp⟩

/-- Related elements are related in another way where that follows for the elements of the two lists. -/
theorem forall₂_imp_of_mem {α β : Type} {r s : α → β → Prop} {xs : List α} {ys : List β} (h : List.Forall₂ r xs ys)
    (himp : ∀ x ∈ xs, ∀ y ∈ ys, r x y → s x y) : List.Forall₂ s xs ys := by
  induction h with
  | nil => exact List.Forall₂.nil
  | cons hr _ ih =>
    refine List.Forall₂.cons (himp _ List.mem_cons_self _ List.mem_cons_self hr) (ih ?_)
    exact fun x hx y hy => himp x (List.mem_cons_of_mem _ hx) y (List.mem_cons_of_mem _ hy)

/-- What stands at a place of the first list is related to what stands there in the second. -/
theorem exists_getElem?_of_forall₂ {α β : Type} {r : α → β → Prop} {xs : List α} {ys : List β} (h : List.Forall₂ r xs ys)
    {i : Nat} {x : α} (hx : xs[i]? = some x) : ∃ y, ys[i]? = some y ∧ r x y := by
  induction h generalizing i with
  | nil => simp at hx
  | cons hr _ ih =>
    cases i with
    | zero =>
      obtain rfl : _ = x := by simpa using hx
      exact ⟨_, rfl, hr⟩
    | succ i => exact ih hx

/-- Two related lists with related elements put at the same place. -/
theorem forall₂_set {α β : Type} {r : α → β → Prop} {xs : List α} {ys : List β} (h : List.Forall₂ r xs ys) {x : α} {y : β}
    (hxy : r x y) (i : Nat) : List.Forall₂ r (xs.set i x) (ys.set i y) := by
  induction h generalizing i with
  | nil => simp
  | cons hr hrest ih =>
    cases i with
    | zero => exact List.Forall₂.cons hxy hrest
    | succ i => exact List.Forall₂.cons hr (ih i)

/-- Lists give the same where their elements do. -/
theorem map_eq_of_forall₂ {α β γ : Type} {f : α → γ} {g : β → γ} {xs : List α} {ys : List β}
    (h : List.Forall₂ (fun x y => f x = g y) xs ys) : xs.map f = ys.map g := by
  rwa [← List.forall₂_eq_eq_eq, List.forall₂_map_left_iff, List.forall₂_map_right_iff]

/-! ## Results that may be missing -/

/-- The first result from a list is the same where the results of its elements are. -/
theorem findSome?_congr {α β : Type} {f g : α → Option β} {xs : List α} (h : ∀ x ∈ xs, f x = g x) :
    xs.findSome? f = xs.findSome? g := by
  induction xs with
  | nil => rfl
  | cons x xs ih =>
    obtain ⟨hx, hxs⟩ := List.forall_mem_cons.mp h
    rw [List.findSome?_cons, List.findSome?_cons, hx, ih hxs]

/-- A result that is there has a related one on the other side. -/
theorem exists_of_rel {α β : Type} {r : α → β → Prop} {x : Option α} {y : Option β} (h : Option.Rel r x y) {a : α}
    (hx : x = some a) : ∃ b, y = some b ∧ r a b := by
  cases h with
  | some hab =>
    obtain rfl := Option.some.inj hx
    exact ⟨_, rfl, hab⟩
  | none => nomatch hx

theorem eq_none_of_rel {α β : Type} {r : α → β → Prop} {x : Option α} {y : Option β} (h : Option.Rel r x y)
    (hx : x = none) : y = none := by
  cases h with
  | some hab => nomatch hx
  | none => rfl

theorem rel_bind {α β γ δ : Type} {r : α → β → Prop} {s : γ → δ → Prop} {x : Option α} {y : Option β}
    {f : α → Option γ} {g : β → Option δ} (h : Option.Rel r x y) (hfg : ∀ a b, r a b → Option.Rel s (f a) (g b)) :
    Option.Rel s (x.bind f) (y.bind g) := by
  cases h with
  | some hab => exact hfg _ _ hab
  | none => exact Option.Rel.none

/-- Related results are related in another way where that follows for the results that are there. -/
theorem rel_imp_of_some {α β : Type} {r s : α → β → Prop} {x : Option α} {y : Option β} (h : Option.Rel r x y)
    (himp : ∀ a b, x = some a → y = some b → r a b → s a b) : Option.Rel s x y := by
  cases h with
  | some hab => exact Option.Rel.some (himp _ _ rfl rfl hab)
  | none => exact Option.Rel.none

/-- Related results are related the other way round where related values are. -/
theorem rel_symm {α β : Type} {r : α → β → Prop} {s : β → α → Prop} {x : Option α} {y : Option β} (h : Option.Rel r x y)
    (hsymm : ∀ a b, r a b → s b a) : Option.Rel s y x := by
  cases h with
  | some hab => exact Option.Rel.some (hsymm _ _ hab)
  | none => exact Option.Rel.none

/-- Results that are related to one in between are related to each other where that follows for the values. -/
theorem rel_trans {α β γ : Type} {r : α → β → Prop} {s : β → γ → Prop} {t : α → γ → Prop} {x : Option α} {y : Option β}
    {z : Option γ} (hxy : Option.Rel r x y) (hyz : Option.Rel s y z)
    (htrans : ∀ a b c, x = some a → y = some b → z = some c → r a b → s b c → t a c) : Option.Rel t x z := by
  cases hxy with
  | none =>
    cases hyz
    exact Option.Rel.none
  | some hab =>
    cases hyz with
    | some hbc => exact Option.Rel.some (htrans _ _ _ rfl rfl rfl hab hbc)

theorem bind_eq_of_rel {α β γ : Type} {r : α → β → Prop} {x : Option α} {y : Option β} {f : α → Option γ}
    {g : β → Option γ} (h : Option.Rel r x y) (hfg : ∀ a b, r a b → g b = f a) : y.bind g = x.bind f := by
  cases h with
  | some hab => exact hfg _ _ hab
  | none => rfl

theorem isSome_eq_of_rel {α β : Type} {r : α → β → Prop} {x : Option α} {y : Option β} (h : Option.Rel r x y) :
    y.isSome = x.isSome := by
  cases h <;> rfl

/-- Of two related results both have a property or none has, where that is so for related values. -/
theorem exists_iff_of_rel {α β : Type} {r : α → β → Prop} {x : Option α} {y : Option β} {p : α → Prop} {q : β → Prop}
    (h : Option.Rel r x y) (hpq : ∀ a b, x = some a → r a b → (q b ↔ p a)) :
    (∃ b, y = some b ∧ q b) ↔ ∃ a, x = some a ∧ p a := by
  cases h with
  | none => simp
  | some hab => simpa using hpq _ _ rfl hab

/-- Lists are related element by element exactly where at each place both have related elements or none. -/
theorem forall₂_iff_rel {α β : Type} {r : α → β → Prop} {xs : List α} {ys : List β} :
    List.Forall₂ r xs ys ↔ ∀ i : Nat, Option.Rel r xs[i]? ys[i]? := by
  constructor
  · intro h i
    induction h generalizing i with
    | nil => exact Option.Rel.none
    | cons hr _ ih =>
      cases i with
      | zero => exact Option.Rel.some hr
      | succ i => exact ih i
  · intro h
    induction xs generalizing ys with
    | nil =>
      cases ys with
      | nil => exact List.Forall₂.nil
      | cons y ys => nomatch h 0
    | cons x xs ih =>
      cases ys with
      | nil => nomatch h 0
      | cons y ys =>
        have hrest : ∀ i : Nat, Option.Rel r xs[i]? ys[i]? := fun i => h (i + 1)
        cases h 0 with
        | some hr => exact List.Forall₂.cons hr (ih hrest)

end ClusterConfig
