import ClusterConfig.Proofs.Value.Places

/-!
# Laws of the equality of values

Values with distinct keys are equal to themselves, in both directions, and whatever the order of keys: all that equality sees is
agreement at every place (`same_upToOrder`). It is not transitive. A text equals the path that is written as it, byte for byte,
and two paths are equal by their components, so the text `a/`, the path `a/` and the path `a` are equal one to the next and the
first is not equal to the last (`not_same_trans`). Such a change of spelling is the only thing in the way (`same_trans_iff`).
-/

namespace ClusterConfig

/-! ## Numbers and paths -/

theorem Binary64.same_iff {x y : Binary64} :
    x.same y = true ↔
      (x.isNaN = true ∧ y.isNaN = true) ∨
        (x.isNaN = false ∧ y.isNaN = false ∧ ((x.isZero = true ∧ y.isZero = true) ∨ x = y)) := by
  simp only [same, Bool.or_eq_true, Bool.and_eq_true, Bool.not_eq_true', beq_iff_eq, and_assoc]

theorem Binary64.same_symm {x y : Binary64} (h : x.same y = true) : y.same x = true := by
  rw [same_iff] at h ⊢
  rcases h with ⟨hx, hy⟩ | ⟨hx, hy, hzero | rfl⟩
  · exact Or.inl ⟨hy, hx⟩
  · exact Or.inr ⟨hy, hx, Or.inl hzero.symm⟩
  · exact Or.inr ⟨hx, hx, Or.inr rfl⟩

theorem Binary64.same_trans {x y z : Binary64} (hxy : x.same y = true) (hyz : y.same z = true) : x.same z = true := by
  rw [same_iff] at hxy hyz ⊢
  grind

theorem Number.same_symm {m n : Number} (h : m.same n = true) : n.same m = true := by
  cases m with
  | int m =>
    cases n with
    | int n => exact beq_iff_eq.mpr (beq_iff_eq.mp h).symm
    | float y => nomatch h
  | float x =>
    cases n with
    | int n => nomatch h
    | float y => exact Binary64.same_symm h

theorem Number.same_trans {l m n : Number} (hlm : l.same m = true) (hmn : m.same n = true) : l.same n = true := by
  cases m with
  | int m =>
    cases l with
    | int l =>
      obtain rfl : l = m := beq_iff_eq.mp hlm
      exact hmn
    | float x => nomatch hlm
  | float y =>
    cases l with
    | int l => nomatch hlm
    | float x =>
      cases n with
      | int n => nomatch hmn
      | float z => exact Binary64.same_trans hlm hmn

theorem Path.same_iff {p q : Path} : p.same q = true ↔ p.components = q.components := beq_iff_eq

theorem Path.ofString_injective : Function.Injective Path.ofString := by
  intro s t h
  exact Option.some.inj ((Path.text_eq_some.mpr rfl).symm.trans (Path.text_eq_some.mpr h))

namespace Value

/-! ## Both directions -/

theorem Agree.refl (v : Value) : Agree v v := by
  cases v with
  | null => exact .null
  | bool b => exact .bool b
  | number n => exact .number (same_number n)
  | string s => exact .string s
  | path p => exact .path (Path.same_iff.mpr rfl)
  | seq items => exact .seq rfl
  | map es => exact .map rfl fun key => Iff.rfl

theorem Agree.symm {v w : Value} (h : Agree v w) : Agree w v := by
  cases h with
  | null => exact .null
  | bool b => exact .bool b
  | number h => exact .number (Number.same_symm h)
  | string s => exact .string s
  | path h => exact .path (Path.same_iff.mpr (Path.same_iff.mp h).symm)
  | pathString h => exact .stringPath h
  | stringPath h => exact .pathString h
  | seq h => exact .seq h.symm
  | map h hkeys => exact .map h.symm fun key => (hkeys key).symm

theorem same_refl {v : Value} (hv : v.Distinct) : v.same v = true := by
  rw [same_iff_agree hv hv]
  intro place
  cases v.at? place with
  | none => exact Option.Rel.none
  | some x => exact Option.Rel.some (Agree.refl x)

theorem same_symm {v w : Value} (h : v.same w = true) (hv : v.Distinct) (hw : w.Distinct) : w.same v = true := by
  rw [same_iff_agree hw hv]
  intro place
  exact rel_symm (agree_at h hv hw place) fun x y hxy => hxy.symm

/-! ## The order of keys -/

/-- The two values differ only in the order of the entries of namespaces, at any depth: entries are put in another order, and
then their values may be changed in the same way. -/
inductive Reordered : Value → Value → Prop where
  | refl (v : Value) : Reordered v v
  | seq {xs ys : List Value} : List.Forall₂ Reordered xs ys → Reordered (.seq xs) (.seq ys)
  | map {es gs fs : List (String × Value)} : es.Perm gs → gs.map Prod.fst = fs.map Prod.fst →
      List.Forall₂ Reordered (gs.map Prod.snd) (fs.map Prod.snd) → Reordered (.map es) (.map fs)

/-- What stands under a key of entries stands there under other entries with the same keys, value by value. -/
theorem lookup_of_forall₂ {r : Value → Value → Prop} {gs fs : List (String × Value)}
    (hkeys : gs.map Prod.fst = fs.map Prod.fst) (hvalues : List.Forall₂ r (gs.map Prod.snd) (fs.map Prod.snd)) (key : String) :
    Option.Rel r (gs.lookup key) (fs.lookup key) := by
  induction gs generalizing fs with
  | nil =>
    cases fs with
    | nil => exact Option.Rel.none
    | cons f fs => nomatch hkeys
  | cons g gs ih =>
    cases fs with
    | nil => nomatch hkeys
    | cons f fs =>
      obtain ⟨hkey, hkeys⟩ := List.cons.inj hkeys
      obtain ⟨hvalue, hvalues⟩ := List.forall₂_cons.mp hvalues
      rw [Namespace.lookup_cons, Namespace.lookup_cons, ← hkey]
      by_cases hk : key = g.1
      · rw [if_pos hk, if_pos hk]
        exact Option.Rel.some hvalue
      · rw [if_neg hk, if_neg hk]
        exact ih hkeys hvalues

/-- Values that differ only in the order of entries are equal. -/
theorem same_of_reordered {v w : Value} (h : Reordered v w) (hv : v.Distinct) : v.same w = true := by
  induction v using induct generalizing w with
  | seq xs ih =>
    cases h with
    | refl => exact same_refl hv
    | seq hitems =>
      refine same_seq.mpr (forall₂_imp_of_mem hitems fun x hx y _ hxy => ?_)
      exact ih x hx hxy fun es hw => hv es (.item hx hw)
  | map es ih =>
    cases h with
    | refl => exact same_refl hv
    | @map _ gs fs hperm hkeys hvalues =>
      -- An entry is found by its key in `gs`, where it only has another place, and its changed value by that key in `fs`.
      have hn : (gs.map Prod.fst).Nodup := ((hperm.map Prod.fst).nodup_iff).mp (hv es (.self es))
      have hlength : gs.length = fs.length := by simpa using congrArg List.length hkeys
      refine same_map.mpr ⟨hperm.length_eq.trans hlength, fun e he => ?_⟩
      have hfound : gs.lookup e.1 = some e.2 := Namespace.lookup_of_mem hn (hperm.mem_iff.mp he)
      obtain ⟨w, hw, hreordered⟩ := exists_of_rel (lookup_of_forall₂ hkeys hvalues e.1) hfound
      exact ⟨w, hw, ih e he hreordered fun es' hw' => hv es' (.value he hw')⟩
  | _ =>
    cases h
    exact same_refl hv

/-- Equality is reflexive and symmetric, and no order of keys matters to it: values that differ only in that are equal, and values
are equal exactly where they agree at every place, so that sequences have the same length and equal elements one by one, and
namespaces the same keys and equal values under each. Namespaces are compared as the values they are. -/
theorem same_upToOrder {v w : Value} (hv : v.Distinct) (hw : w.Distinct) :
    v.same v = true ∧ (v.same w = true ↔ w.same v = true) ∧ (Reordered v w → v.same w = true) ∧
      (v.same w = true ↔ ∀ place, Option.Rel Agree (v.at? place) (w.at? place)) ∧
      ∀ a b : Namespace, v = ofNamespace a → w = ofNamespace b →
        (a.same b = true ↔ v.same w = true) ∧
          (a.same b = true ↔ ∀ key, Option.Rel (fun x y => same x y = true) (a.getRaw? key) (b.getRaw? key)) := by
  refine ⟨same_refl hv, ⟨fun h => same_symm h hv hw, fun h => same_symm h hw hv⟩, fun h => same_of_reordered h hv,
    same_iff_agree hv hw, ?_⟩
  rintro a b rfl rfl
  exact ⟨Iff.rfl, same_map_iff_lookup (hv a.entries (.self a.entries)) (hw b.entries (.self b.entries))⟩

/-- A value that is no number, a path, and namespaces at two depths, in one order and in another. -/
theorem same_upToOrder_nested :
    let v := Value.map [("ratio", .number (.float .nan)),
      ("dirs", .seq [.path (.ofString "/v/"), .map [("home", .null), ("apps", .bool true)]])]
    let w := Value.map [("dirs", .seq [.path (.ofString "/v/"), .map [("apps", .bool true), ("home", .null)]]),
      ("ratio", .number (.float .nan))]
    v.Distinct ∧ w.Distinct ∧ Reordered v w ∧ v.same v = true ∧ v.same w = true ∧ w.same v = true ∧
      Option.Rel Agree (v.at? [.key "dirs", .item 1]) (w.at? [.key "dirs", .item 1]) := by
  intro v w
  have hv : v.Distinct := by simp [v]
  have hw : w.Distinct := by simp [w]
  have hinner : Reordered (.map [("home", .null), ("apps", .bool true)]) (.map [("apps", .bool true), ("home", .null)]) :=
    .map (List.Perm.swap _ _ _) rfl (List.forall₂_same.mpr fun x _ => .refl x)
  have hdirs : Reordered (.seq [.path (.ofString "/v/"), .map [("home", .null), ("apps", .bool true)]])
      (.seq [.path (.ofString "/v/"), .map [("apps", .bool true), ("home", .null)]]) :=
    .seq (.cons (.refl _) (.cons hinner .nil))
  have hreordered : Reordered v w := .map (List.Perm.swap _ _ _) rfl (.cons hdirs (.cons (.refl _) .nil))
  obtain ⟨hrefl, hcomm, horder, hagree, -⟩ := same_upToOrder hv hw
  have hsame := horder hreordered
  exact ⟨hv, hw, hreordered, hrefl, hsame, hcomm.mp hsame, hagree.mp hsame _⟩

/-! ## Values in between -/

/-- One of the outer values is a text, the middle one is a path, and the other outer one is a path written otherwise. -/
inductive Respells : Value → Value → Value → Prop where
  | textFirst {s : String} {p q : Path} : p ≠ q → Respells (.string s) (.path p) (.path q)
  | textLast {s : String} {p q : Path} : p ≠ q → Respells (.path q) (.path p) (.string s)

/-- At some place of the three values a path is between a text and another way to write it. -/
def RespellsWithin (u v w : Value) : Prop :=
  ∃ place x y z, u.at? place = some x ∧ v.at? place = some y ∧ w.at? place = some z ∧ Respells x y z

theorem agree_path_string {p : Path} {s : String} : Agree (.path p) (.string s) ↔ p = .ofString s :=
  ⟨fun | .pathString h => h, .pathString⟩

theorem agree_string_path {p : Path} {s : String} : Agree (.string s) (.path p) ↔ p = .ofString s :=
  ⟨fun | .stringPath h => h, .stringPath⟩

theorem respells_textFirst {s : String} {p q : Path} : Respells (.string s) (.path p) (.path q) ↔ p ≠ q :=
  ⟨fun | .textFirst h => h, .textFirst⟩

theorem respells_textLast {s : String} {p q : Path} : Respells (.path q) (.path p) (.string s) ↔ p ≠ q :=
  ⟨fun | .textLast h => h, .textLast⟩

/-- Agreement goes over a value in between unless that is a path between a text and another way to write it. -/
theorem Agree.trans_iff {x y z : Value} (hxy : Agree x y) (hyz : Agree y z) : Agree x z ↔ ¬Respells x y z := by
  cases hxy with
  | null | bool | string => exact ⟨fun _ => nofun, fun _ => hyz⟩
  | number hlm =>
    cases hyz with
    | number hmn => exact ⟨fun _ => nofun, fun _ => .number (Number.same_trans hlm hmn)⟩
  | path hpq =>
    cases hyz with
    | path hqr =>
      have hcomponents := (Path.same_iff.mp hpq).trans (Path.same_iff.mp hqr)
      exact ⟨fun _ => nofun, fun _ => .path (Path.same_iff.mpr hcomponents)⟩
    | pathString hq => rw [agree_path_string, respells_textLast, not_not, ← hq, eq_comm]
  | pathString hp =>
    cases hyz with
    | string s => exact ⟨fun _ => nofun, fun _ => .pathString hp⟩
    | stringPath hq => exact ⟨fun _ => nofun, fun _ => .path (Path.same_iff.mpr (by rw [hp, hq]))⟩
  | stringPath hp =>
    cases hyz with
    | path hpq => rw [agree_string_path, respells_textFirst, not_not, ← hp, eq_comm]
    | pathString hq =>
      obtain rfl := Path.ofString_injective (hp.symm.trans hq)
      exact ⟨fun _ => nofun, fun _ => .string _⟩
  | seq hxy =>
    cases hyz with
    | seq hyz => exact ⟨fun _ => nofun, fun _ => .seq (hxy.trans hyz)⟩
  | map hxy hkeys =>
    cases hyz with
    | map hyz hkeys' => exact ⟨fun _ => nofun, fun _ => .map (hxy.trans hyz) fun key => (hkeys key).trans (hkeys' key)⟩

/-- Values that are equal one to the next: the first equals the last exactly where no path stands between a text and another way
to write it. -/
theorem same_trans_iff {u v w : Value} (hu : u.Distinct) (hv : v.Distinct) (hw : w.Distinct) (huv : u.same v = true)
    (hvw : v.same w = true) : u.same w = true ↔ ¬RespellsWithin u v w := by
  rw [same_iff_agree hu hw]
  constructor
  · rintro h ⟨place, x, y, z, hx, hy, hz, hrespells⟩
    have hxy := agree_at huv hu hv place
    have hyz := agree_at hvw hv hw place
    have hxz := h place
    rw [hx, hy] at hxy
    rw [hy, hz] at hyz
    rw [hx, hz] at hxz
    cases hxy with
    | some hxy =>
      cases hyz with
      | some hyz =>
        cases hxz with
        | some hxz => exact (hxy.trans_iff hyz).mp hxz hrespells
  · intro h place
    refine rel_trans (agree_at huv hu hv place) (agree_at hvw hv hw place) fun x y z hx hy hz hxy hyz => ?_
    exact (hxy.trans_iff hyz).mpr fun hrespells => h ⟨place, x, y, z, hx, hy, hz, hrespells⟩

/-- A text, the path that is written as it and that path without the slash at its end. -/
theorem same_trans_iff_slash :
    let u := Value.map [("log_dir", .string "/v/")]
    let v := Value.map [("log_dir", .path (.ofString "/v/"))]
    let w := Value.map [("log_dir", .path (.ofString "/v"))]
    u.Distinct ∧ v.Distinct ∧ w.Distinct ∧ u.same v = true ∧ v.same w = true ∧ RespellsWithin u v w ∧ u.same w = false := by
  intro u v w
  have hu : u.Distinct := by simp [u]
  have hv : v.Distinct := by simp [v]
  have hw : w.Distinct := by simp [w]
  have huv : u.same v = true := by decide
  have hvw : v.same w = true := by decide
  have hne : Path.ofString "/v/" ≠ Path.ofString "/v" := by decide
  have hrespells : RespellsWithin u v w := ⟨[.key "log_dir"], _, _, _, rfl, rfl, rfl, .textFirst hne⟩
  have huw : ¬u.same w = true := fun h => (same_trans_iff hu hv hw huv hvw).mp h hrespells
  exact ⟨hu, hv, hw, huv, hvw, hrespells, Bool.eq_false_iff.mpr huw⟩

/-- Two values may equal a third one and not each other. -/
theorem not_same_trans :
    ¬∀ u v w : Value, u.Distinct → v.Distinct → w.Distinct → u.same v = true → v.same w = true → u.same w = true := by
  intro h
  have huw := h (.string "/v/") (.path (.ofString "/v/")) (.path (.ofString "/v")) (by simp) (by simp) (by simp)
    (by decide) (by decide +kernel)
  exact absurd huw (by decide)

end Value

end ClusterConfig
