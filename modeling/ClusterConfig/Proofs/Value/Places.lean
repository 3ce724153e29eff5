import ClusterConfig.Proofs.Value.Equality

/-!
# Values compared place by place

A place in a value is a list of steps into it, by the number of an element or by a key. Statements about `same` in terms of what
two values have at each place: they mean the same exactly where they agree everywhere (`same_iff_agree`). Agreement looks at a
value alone and not at what stands inside it, so the laws of `same` come down to the laws of agreement.
-/

namespace ClusterConfig

namespace Value

/-! ## Places -/

/-- A step into a value: to the element with a number, or to what stands under a key. -/
inductive Step where
  | item (i : Nat)
  | key (key : String)

/-- The value that a step leads to. -/
def child? : Value → Step → Option Value
  | seq items, .item i => items[i]?
  | map es, .key key => es.lookup key
  | _, _ => none

/-- The value at a place. -/
def at? (v : Value) : List Step → Option Value
  | [] => some v
  | step :: place => (v.child? step).bind fun w => w.at? place

@[simp] theorem at_nil (v : Value) : v.at? [] = some v := rfl

@[simp] theorem at_cons (v : Value) (step : Step) (place : List Step) :
    v.at? (step :: place) = (v.child? step).bind fun w => w.at? place := rfl

/-- What stands inside a value with distinct keys has distinct keys. -/
theorem Distinct.child {v w : Value} (hd : v.Distinct) {step : Step} (h : v.child? step = some w) : w.Distinct := by
  intro es hw
  cases v with
  | seq items =>
    cases step with
    | item i => exact hd es (.item (List.mem_of_getElem? h) hw)
    | key key => nomatch h
  | map fs =>
    cases step with
    | item i => nomatch h
    | key key => exact hd es (.value (e := (key, w)) (Namespace.mem_of_lookup h) hw)
  | _ => nomatch h

/-- Induction over a value by what stands inside it. -/
theorem inductInside {motive : Value → Prop}
    (inside : ∀ v, (∀ step w, v.child? step = some w → motive w) → motive v) (v : Value) : motive v := by
  induction v using induct with
  | seq items ih =>
    refine inside _ fun step w h => ?_
    cases step with
    | item i => exact ih w (List.mem_of_getElem? h)
    | key key => nomatch h
  | map es ih =>
    refine inside _ fun step w h => ?_
    cases step with
    | item i => nomatch h
    | key key => exact ih (key, w) (Namespace.mem_of_lookup h)
  | _ => exact inside _ nofun

/-! ## Agreement -/

/-- The two values agree as far as can be seen without a step into them: leaves in their meaning, sequences in their length,
namespaces in their keys. -/
inductive Agree : Value → Value → Prop where
  | null : Agree .null .null
  | bool (b : Bool) : Agree (.bool b) (.bool b)
  | number {m n : Number} : m.same n = true → Agree (.number m) (.number n)
  | string (s : String) : Agree (.string s) (.string s)
  /-- Two paths with the same components. -/
  | path {p q : Path} : p.same q = true → Agree (.path p) (.path q)
  /-- A path and the text it is written as. -/
  | pathString {p : Path} {s : String} : p = .ofString s → Agree (.path p) (.string s)
  | stringPath {p : Path} {s : String} : p = .ofString s → Agree (.string s) (.path p)
  | seq {xs ys : List Value} : xs.length = ys.length → Agree (.seq xs) (.seq ys)
  | map {es fs : List (String × Value)} : es.length = fs.length →
      (∀ key, key ∈ es.map Prod.fst ↔ key ∈ fs.map Prod.fst) → Agree (.map es) (.map fs)

/-- Namespaces mean the same where they hold the same under each key. -/
theorem same_map_iff_lookup {es fs : List (String × Value)} (hes : (es.map Prod.fst).Nodup)
    (hfs : (fs.map Prod.fst).Nodup) :
    same (.map es) (.map fs) = true ↔
      ∀ key, Option.Rel (fun x y => same x y = true) (es.lookup key) (fs.lookup key) := by
  constructor
  · intro h key
    have hkeys := keys_perm_of_same h hes
    obtain ⟨-, hfound⟩ := same_map.mp h
    cases hv : es.lookup key with
    | none =>
      have hkey : key ∉ fs.map Prod.fst := fun hmem => Namespace.lookup_eq_none.mp hv (hkeys.mem_iff.mpr hmem)
      rw [Namespace.lookup_eq_none.mpr hkey]
      exact Option.Rel.none
    | some v =>
      obtain ⟨w, hw, hsame⟩ := hfound (key, v) (Namespace.mem_of_lookup hv)
      rw [hw]
      exact Option.Rel.some hsame
  · intro h
    have hkeys : (es.map Prod.fst).Perm (fs.map Prod.fst) := by
      rw [List.perm_ext_iff_of_nodup hes hfs]
      intro key
      have hsome := isSome_eq_of_rel (h key)
      rw [← not_iff_not, ← Namespace.lookup_eq_none, ← Namespace.lookup_eq_none, ← Option.not_isSome_iff_eq_none,
        ← Option.not_isSome_iff_eq_none, hsome]
    have hlength : es.length = fs.length := by simpa using hkeys.length_eq
    refine same_map.mpr ⟨hlength, fun e he => ?_⟩
    exact exists_of_rel (h e.1) (Namespace.lookup_of_mem hes he)

theorem same_path_string {p : Path} {s : String} : same (.path p) (.string s) = true ↔ p = .ofString s := by
  obtain ⟨bytes⟩ := p
  simp [same, Path.ofString]

theorem same_string_path {p : Path} {s : String} : same (.string s) (.path p) = true ↔ p = .ofString s := by
  obtain ⟨bytes⟩ := p
  simp [same, Path.ofString]

/-- Values that mean the same agree. -/
theorem agree_of_same {v w : Value} (h : v.same w = true) (hv : v.Distinct) : Agree v w := by
  cases v with
  | null => cases w <;> first | exact .null | simp [same] at h
  | bool b =>
    cases w with
    | bool c =>
      obtain rfl : b = c := by simpa [same] using h
      exact .bool b
    | _ => simp [same] at h
  | number m => cases w <;> first | exact .number h | simp [same] at h
  | string s =>
    cases w with
    | string t =>
      obtain rfl : s = t := by simpa [same] using h
      exact .string s
    | path p => exact .stringPath (same_string_path.mp h)
    | _ => simp [same] at h
  | path p =>
    cases w with
    | path q => exact .path h
    | string s => exact .pathString (same_path_string.mp h)
    | _ => simp [same] at h
  | seq xs =>
    cases w with
    | seq ys => exact .seq (same_seq.mp h).length_eq
    | _ => simp [same] at h
  | map es =>
    cases w with
    | map fs =>
      have hkeys := keys_perm_of_same h (hv es (.self es))
      exact .map (same_map.mp h).1 fun key => hkeys.mem_iff
    | _ => simp [same] at h

/-- Values that mean the same have values inside them that do. -/
theorem same_child {v w : Value} (h : v.same w = true) (hv : v.Distinct) (hw : w.Distinct) (step : Step) :
    Option.Rel (fun x y => same x y = true) (v.child? step) (w.child? step) := by
  have hagree := agree_of_same h hv
  cases hagree with
  | @seq xs ys =>
    cases step with
    | item i => exact forall₂_iff_rel.mp (same_seq.mp h) i
    | key key => exact Option.Rel.none
  | @map es fs =>
    cases step with
    | item i => exact Option.Rel.none
    | key key => exact (same_map_iff_lookup (hv es (.self es)) (hw fs (.self fs))).mp h key
  | _ => cases step <;> exact Option.Rel.none

/-- Values that agree and have values inside them that mean the same mean the same. -/
theorem same_of_agree {v w : Value} (h : Agree v w) (hv : v.Distinct) (hw : w.Distinct)
    (hchild : ∀ step, Option.Rel (fun x y => same x y = true) (v.child? step) (w.child? step)) : v.same w = true := by
  cases h with
  | null => rfl
  | bool b => exact beq_self_eq_true b
  | number h => exact h
  | string s => exact beq_self_eq_true s
  | path h => exact h
  | pathString h => exact same_path_string.mpr h
  | stringPath h => exact same_string_path.mpr h
  | seq => exact same_seq.mpr (forall₂_iff_rel.mpr fun i => hchild (.item i))
  | @map es fs =>
    exact (same_map_iff_lookup (hv es (.self es)) (hw fs (.self fs))).mpr fun key => hchild (.key key)

/-! ## Agreement everywhere -/

/-- Values that mean the same agree at every place. -/
theorem agree_at {v w : Value} (h : v.same w = true) (hv : v.Distinct) (hw : w.Distinct) (place : List Step) :
    Option.Rel Agree (v.at? place) (w.at? place) := by
  induction place generalizing v w with
  | nil => exact Option.Rel.some (agree_of_same h hv)
  | cons step place ih =>
    have hchild : Option.Rel (fun x y => Option.Rel Agree (x.at? place) (y.at? place)) (v.child? step) (w.child? step) :=
      rel_imp_of_some (same_child h hv hw step) fun x y hx hy hsame => ih hsame (hv.child hx) (hw.child hy)
    exact rel_bind hchild fun x y hxy => hxy

/-- From values that agree at every place each step leads to such values again, or from both to none. -/
theorem agree_child {v w : Value} (h : ∀ place, Option.Rel Agree (v.at? place) (w.at? place)) (step : Step) :
    Option.Rel (fun x y => ∀ place, Option.Rel Agree (x.at? place) (y.at? place)) (v.child? step) (w.child? step) := by
  have hstep : Option.Rel Agree (v.child? step) (w.child? step) := by simpa using h [step]
  refine rel_imp_of_some hstep fun x y hx hy _ place => ?_
  have hplace := h (step :: place)
  rwa [at_cons, at_cons, hx, hy] at hplace

/-- Two values mean the same exactly where they agree at every place. -/
theorem same_iff_agree {v w : Value} (hv : v.Distinct) (hw : w.Distinct) :
    v.same w = true ↔ ∀ place, Option.Rel Agree (v.at? place) (w.at? place) := by
  constructor
  · intro h place
    exact agree_at h hv hw place
  · intro h
    -- One step in, the values agree everywhere again, so they mean the same by induction on what stands inside `v`.
    induction v using inductInside generalizing w with
    | inside v ih =>
      obtain ⟨w', hw', hagree⟩ := exists_of_rel (h []) rfl
      obtain rfl : w = w' := Option.some.inj hw'
      refine same_of_agree hagree hv hw fun step => ?_
      exact rel_imp_of_some (agree_child h step) fun x y hx hy hxy => ih step x hx (hv.child hx) (hw.child hy) hxy

end Value

end ClusterConfig
