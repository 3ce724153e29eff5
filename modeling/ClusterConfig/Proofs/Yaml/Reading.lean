import ClusterConfig.Proofs.Outcome
import ClusterConfig.Proofs.Yaml.Tree
import ClusterConfig.Yaml.Document

/-!
# Trees that are read

Reading refuses a mapping with a key that stands twice, so every mapping of a tree that is read has distinct keys. The parts of a
document are read with a stack of open collections; the invariant `Opening.Sound` says this of what they hold so far.
-/

namespace ClusterConfig.Yaml

/-- Every mapping of the tree has distinct keys. -/
def Node.Distinct (n : Node) : Prop := ∀ es, n.Within es → Node.DistinctKeys es

namespace Document

/-- The entries, newest first, have distinct keys, and so have all mappings in their values. -/
def SoundEntries (entries : List (Node × Node)) : Prop :=
  (entries.Pairwise fun a b => ¬a.1.same b.1 = true) ∧ ∀ e ∈ entries, e.2.Distinct

/-- What an open collection holds so far has distinct keys. -/
def Opening.Sound : Opening → Prop
  | .sequence _ items => ∀ n ∈ items, n.Distinct
  | .mapping _ entries => SoundEntries entries
  | .pair _ entries key => SoundEntries entries ∧ ∀ e ∈ entries, ¬key.same e.1 = true
  | .repeated _ => True

/-- What a finished tree leaves open, or the tree itself. -/
def Placed.Sound : Placed → Prop
  | .open_ stack _ => ∀ o ∈ stack, o.Sound
  | .done node => node.Distinct

theorem distinct_seq {items : List Node} (h : ∀ n ∈ items, n.Distinct) : (Node.seq items.reverse).Distinct := by
  intro es hw
  obtain ⟨n, hn, hw⟩ := Node.within_seq.mp hw
  exact h n (List.mem_reverse.mp hn) es hw

/-- A mapping is finished with its entries in the order they were read. -/
theorem distinct_map {entries : List (Node × Node)} (h : SoundEntries entries) :
    (Node.map entries.reverse).Distinct := by
  intro es hw
  rcases Node.within_map.mp hw with rfl | ⟨e, he, hw⟩
  · exact List.pairwise_reverse.mpr h.1
  · exact h.2 e (List.mem_reverse.mp he) es hw

theorem distinct_tagCollection {tag : Option (List UInt8)} {n : Node} (h : n.Distinct) :
    (tagCollection tag n).Distinct := by
  unfold tagCollection
  split
  · exact fun es hw => h es (Node.within_tagged.mp hw)
  · exact h

/-- Putting a sound tree where it belongs keeps what is open sound. -/
theorem place_sound {node : Node} {stack : List Opening} {rest : List Part} {placed : Placed} (hn : node.Distinct)
    (hs : ∀ o ∈ stack, o.Sound) (h : place node stack rest = .ok placed) : placed.Sound := by
  fun_induction place node stack rest with
  | case1 rest =>
    cases h
    exact hn
  | case2 tag items stack rest =>
    cases h
    obtain ⟨hitems, hstack⟩ := List.forall_mem_cons.mp hs
    exact List.forall_mem_cons.mpr ⟨List.forall_mem_cons.mpr ⟨hn, hitems⟩, hstack⟩
  | case3 tag entries stack rest hdup => nomatch h
  | case4 tag entries stack rest hdup =>
    cases h
    obtain ⟨hentries, hstack⟩ := List.forall_mem_cons.mp hs
    refine List.forall_mem_cons.mpr ⟨⟨hentries, fun e he hk => hdup ?_⟩, hstack⟩
    exact List.any_eq_true.mpr ⟨e, he, hk⟩
  | case5 tag entries key stack rest =>
    cases h
    obtain ⟨⟨hentries, hkey⟩, hstack⟩ := List.forall_mem_cons.mp hs
    refine List.forall_mem_cons.mpr ⟨⟨List.pairwise_cons.mpr ⟨hkey, hentries.1⟩, ?_⟩, hstack⟩
    exact List.forall_mem_cons.mpr ⟨hn, hentries.2⟩
  | case6 after stack rest ih => exact ih (List.forall_mem_cons.mp hs).2 h

/-! ## Scalars -/

/-- A plain scalar is no collection. -/
theorem not_within_plain {s : String} {n : Node} (h : Resolution.plain s = some n) (es : List (Node × Node)) :
    ¬n.Within es := by
  unfold Resolution.plain at h
  split at h
  · cases h
    exact nofun
  · split at h
    · cases h
      exact nofun
    · split at h
      · cases h
        exact nofun
      · nomatch h
      · split at h <;> cases h <;> exact nofun

/-- A scalar below a local tag is no collection. -/
theorem not_within_tagged {s : Scalar} {n : Node} (h : Resolution.tagged s = some n) (es : List (Node × Node)) :
    ¬n.Within es := by
  unfold Resolution.tagged at h
  split at h
  · exact not_within_plain h es
  · cases h
    exact nofun

/-- A scalar of a core type is no collection. -/
theorem not_within_forced {tag : Resolution.CoreTag} {s : String} {n : Node} (h : Resolution.forced tag s = some n)
    (es : List (Node × Node)) : ¬n.Within es := by
  cases tag with
  | null =>
    simp only [Resolution.forced, Option.ite_none_right_eq_some, Option.some.injEq] at h
    obtain ⟨-, rfl⟩ := h
    exact nofun
  | bool =>
    obtain ⟨b, -, rfl⟩ := Option.map_eq_some_iff.mp h
    exact nofun
  | int =>
    simp only [Resolution.forced] at h
    split at h
    · cases h
      exact nofun
    · nomatch h
  | float =>
    obtain ⟨x, -, rfl⟩ := Option.map_eq_some_iff.mp h
    exact nofun

/-- A scalar is no collection. -/
theorem not_within_scalar {tag : Option (List UInt8)} {s : Scalar} {n : Node} (h : Resolution.scalar tag s = some n)
    (es : List (Node × Node)) : ¬n.Within es := by
  have hplain : ∀ {c : Prop} [Decidable c],
      (if c then Resolution.plain s.text else some (.string s.text)) = some n → ¬n.Within es := by
    intro c _ h
    split at h
    · exact not_within_plain h es
    · cases h
      exact nofun
  unfold Resolution.scalar at h
  split at h
  · exact hplain h
  · split at h
    · exact not_within_forced h es
    · exact hplain h

/-- A scalar has no mappings, whatever its tag. -/
theorem distinct_scalarNode {tag : Option (List UInt8)} {s : Scalar} {n : Node} (h : scalarNode tag s = .ok n) :
    n.Distinct := by
  have hnone : ∀ es, ¬n.Within es := by
    intro es hw
    unfold scalarNode at h
    cases htag : tag.bind Resolution.localTag? with
    | none =>
      rw [htag] at h
      cases hs : Resolution.scalar tag s with
      | none => simp [hs] at h
      | some m =>
        obtain rfl : m = n := by simpa [hs] using h
        exact not_within_scalar hs es hw
    | some name =>
      rw [htag] at h
      cases hs : Resolution.tagged s with
      | none => simp [hs] at h
      | some m =>
        obtain rfl : Node.tagged name m = n := by simpa [hs] using h
        exact not_within_tagged hs es (Node.within_tagged.mp hw)
  exact fun es hw => absurd hw (hnone es)

/-! ## The whole document -/

/-- A sound tree is put where it belongs, and then reading goes on with what is open or ends with the tree. -/
theorem distinct_of_place {resume : Placed → Except SyntaxFault Node} {n node : Node} {stack : List Opening}
    {rest : List Part} (hn : n.Distinct) (hs : ∀ o ∈ stack, o.Sound) (hdone : ∀ tree, resume (.done tree) = .ok tree)
    (hopen : ∀ stack rest, (∀ o ∈ stack, o.Sound) → resume (.open_ stack rest) = .ok node → node.Distinct)
    (h : place n stack rest >>= resume = .ok node) : node.Distinct := by
  obtain ⟨placed, hp, h⟩ := bind_eq_ok.mp h
  have hsound := place_sound hn hs hp
  cases placed with
  | done tree =>
    rw [hdone] at h
    cases h
    exact hsound
  | open_ stack' rest' => exact hopen stack' rest' hsound h

/-- From sound open collections a tree with distinct keys is read. -/
theorem build_sound {anchors : List (Nat × List Part)} {fuel aliases : Nat} {stack : List Opening} {parts : List Part}
    {node : Node} (hs : ∀ o ∈ stack, o.Sound) (h : build anchors fuel aliases stack parts = .ok node) :
    node.Distinct := by
  induction fuel generalizing aliases stack parts with
  | zero => cases parts <;> cases h
  | succ fuel ih =>
    cases parts with
    | nil => cases h
    | cons part rest =>
      -- A collection is opened without elements, so it is sound.
      have hopen : ∀ {o : Opening}, o.Sound →
          (if maxDepth ≤ openDepth stack then Except.error SyntaxFault.tooDeep
            else build anchors fuel aliases (o :: stack) rest) = .ok node → node.Distinct := by
        intro o ho h
        split at h
        · cases h
        · exact ih (List.forall_mem_cons.mpr ⟨ho, hs⟩) h
      cases part with
      | scalar tag s =>
        obtain ⟨n, hn, h⟩ := bind_eq_ok.mp h
        exact distinct_of_place (distinct_scalarNode hn) hs (fun _ => rfl) (fun _ _ hs h => ih hs h) h
      | seqStart tag => exact hopen (o := .sequence tag []) (by simp [Opening.Sound]) h
      | mapStart tag => exact hopen (o := .mapping tag []) (by simp [Opening.Sound, SoundEntries]) h
      | «alias» id =>
        simp only [build] at h
        split at h
        · cases h
        · cases h
        · have hrepeated : ∀ o ∈ Opening.repeated rest :: stack, o.Sound := List.forall_mem_cons.mpr ⟨trivial, hs⟩
          exact ih hrepeated h
      | seqEnd =>
        simp only [build] at h
        split at h
        · obtain ⟨hitems, hstack⟩ := List.forall_mem_cons.mp hs
          exact distinct_of_place (distinct_tagCollection (distinct_seq hitems)) hstack (fun _ => rfl)
            (fun _ _ hs h => ih hs h) h
        · cases h
      | mapEnd =>
        simp only [build] at h
        split at h
        · obtain ⟨hentries, hstack⟩ := List.forall_mem_cons.mp hs
          exact distinct_of_place (distinct_tagCollection (distinct_map hentries)) hstack (fun _ => rfl)
            (fun _ _ hs h => ih hs h) h
        · cases h

end Document

/-- Every mapping of a tree that is read has distinct keys. -/
theorem distinct_of_read {text : String} {node : Node} (h : read text = .ok node) : node.Distinct := by
  obtain ⟨d, -, hd⟩ := bind_eq_ok.mp h
  unfold Document.node at hd
  split at hd
  · cases hd
    exact fun es hw => nomatch hw
  · exact Document.build_sound (List.forall_mem_nil _) hd

end ClusterConfig.Yaml
