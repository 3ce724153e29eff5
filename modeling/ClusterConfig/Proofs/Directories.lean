import ClusterConfig.FileSystem.Tree
import ClusterConfig.Proofs.Paths

/-!
# Well-formed file systems

In a well-formed file system directories lie in no circle, and in a directory every name and every number stands once. Its working
directory has the path of the names that lead to it (`workingPath_eq_ok`), and what lies below a directory is what names lead to
from there (`mem_discarded`).
-/

namespace ClusterConfig

/-! ## Directories -/

/-- The entries of a directory have the names of entries, and every name and every number stands once; the numbers are below a
limit. -/
structure Directory.Formed (limit : Nat) (d : Directory) : Prop where
  names : (d.entries.map Prod.fst).Nodup
  numbers : (d.entries.map Prod.snd).Nodup
  isName : ∀ e ∈ d.entries, FileSystem.IsName e.1
  bounded : ∀ e ∈ d.entries, e.2 < limit

instance (limit : Nat) : DecidablePred (Directory.Formed limit) := fun d =>
  decidable_of_iff ((d.entries.map Prod.fst).Nodup ∧ (d.entries.map Prod.snd).Nodup ∧
    (∀ e ∈ d.entries, FileSystem.IsName e.1) ∧ ∀ e ∈ d.entries, e.2 < limit)
    ⟨fun ⟨hnames, hnumbers, hisName, hbounded⟩ => ⟨hnames, hnumbers, hisName, hbounded⟩, fun h => ⟨h.1, h.2, h.3, h.4⟩⟩

namespace Directory.Formed

variable {limit : Nat} {d d' : Directory}

theorem of_nil (h : d.entries = []) : d.Formed limit := by
  constructor <;> simp [h]

theorem mono (h : d.Formed limit) {limit' : Nat} (hle : limit ≤ limit') : d.Formed limit' :=
  ⟨h.names, h.numbers, h.isName, fun e he => Nat.lt_of_lt_of_le (h.bounded e he) hle⟩

theorem sublist (h : d.Formed limit) (hsub : d'.entries.Sublist d.entries) : d'.Formed limit :=
  ⟨h.names.sublist (hsub.map _), h.numbers.sublist (hsub.map _), fun e he => h.isName e (hsub.subset he),
    fun e he => h.bounded e (hsub.subset he)⟩

theorem add (h : d.Formed limit) {name : EntryName} (hname : FileSystem.IsName name) (hnew : name ∉ d.entries.map Prod.fst) :
    Directory.Formed (limit + 1) { d with entries := d.entries ++ [(name, limit)] } := by
  have hnumber : limit ∉ d.entries.map Prod.snd := by
    intro hmem
    obtain ⟨e, he, heq⟩ := List.mem_map.mp hmem
    exact Nat.lt_irrefl limit (heq ▸ h.bounded e he)
  refine ⟨?_, ?_, ?_, ?_⟩
  · rw [List.map_append, List.map_singleton]
    refine List.nodup_append.mpr ⟨h.names, List.pairwise_singleton _ name, ?_⟩
    rintro a ha b hb rfl
    obtain rfl : a = name := List.mem_singleton.mp hb
    exact hnew ha
  · rw [List.map_append, List.map_singleton]
    refine List.nodup_append.mpr ⟨h.numbers, List.pairwise_singleton _ limit, ?_⟩
    rintro a ha b hb rfl
    obtain rfl : a = limit := List.mem_singleton.mp hb
    exact hnumber ha
  · exact List.forall_mem_append.mpr ⟨h.isName, List.forall_mem_singleton.mpr hname⟩
  · have hold := (h.mono (Nat.le_succ limit)).bounded
    exact List.forall_mem_append.mpr ⟨hold, List.forall_mem_singleton.mpr (Nat.lt_succ_self limit)⟩

/-- A name leads to a number where the directory has that entry. -/
theorem lookup_eq_some (h : d.Formed limit) {name : EntryName} {i : Nat} :
    d.entries.lookup name = some i ↔ (name, i) ∈ d.entries := by
  constructor
  · intro hlookup
    obtain ⟨before, after, hentries, -⟩ := List.lookup_eq_some_iff.mp hlookup
    rw [hentries]
    exact List.mem_append_right _ List.mem_cons_self
  · intro hmem
    obtain ⟨before, after, hentries⟩ := List.append_of_mem hmem
    have hnames := h.names
    rw [hentries, List.map_append, List.map_cons, List.nodup_append] at hnames
    refine List.lookup_eq_some_iff.mpr ⟨before, after, hentries, fun e he => bne_iff_ne.mpr fun heq => ?_⟩
    exact hnames.2.2 e.1 (List.mem_map_of_mem he) name List.mem_cons_self heq.symm

/-- An entry is found by its number. -/
theorem find_number (h : d.Formed limit) {e : EntryName × Nat} (he : e ∈ d.entries) {i : Nat} (hi : e.2 = i) :
    d.entries.find? (fun e => e.2 == i) = some e := by
  obtain ⟨before, after, hentries⟩ := List.append_of_mem he
  have hnumbers := h.numbers
  rw [hentries, List.map_append, List.map_cons, List.nodup_append] at hnumbers
  refine List.find?_eq_some_iff_append.mpr ⟨by simpa using hi, before, after, hentries, fun e' he' => ?_⟩
  simpa [← hi] using hnumbers.2.2 e'.2 (List.mem_map_of_mem he') e.2 List.mem_cons_self

end Directory.Formed

namespace FileSystem

variable {fs : FileSystem}

/-! ## File systems -/

/-- Every directory has a rank, and what is in it has a higher one; so directories lie in no circle. -/
def Ranked (fs : FileSystem) (rank : Nat → Nat) : Prop :=
  ∀ i d, fs.directory? i = some d → rank i < fs.inodes.length ∧ ∀ e ∈ d.entries, rank i < rank e.2

/-- The root and the working directory are directories, and all directories are well formed and lie in no circle. -/
structure WellFormed (fs : FileSystem) : Prop where
  root : (fs.directory? root).isSome = true
  working : (fs.directory? fs.working).isSome = true
  formed : ∀ {i d}, fs.directory? i = some d → d.Formed fs.inodes.length
  ranked : ∃ rank, fs.Ranked rank

theorem WellFormed.lookup_eq_some (h : fs.WellFormed) {i j : Nat} {name : EntryName} :
    fs.lookup i name = some j ↔ ∃ d, fs.directory? i = some d ∧ (name, j) ∈ d.entries := by
  rw [lookup, Option.bind_eq_some_iff]
  exact exists_congr fun d => and_congr_right fun hd => (h.formed hd).lookup_eq_some

theorem lt_length_of_directory {i : Nat} {d : Directory} (h : fs.directory? i = some d) : i < fs.inodes.length :=
  (List.getElem?_eq_some_iff.mp (directory_eq_some.mp h)).1

/-- A file system is well formed where that can be seen number by number. -/
theorem WellFormed.of_numbers (rank : Nat → Nat) (hroot : (fs.directory? FileSystem.root).isSome = true)
    (hworking : (fs.directory? fs.working).isSome = true)
    (h : ∀ i < fs.inodes.length, ∀ d ∈ fs.directory? i,
      d.Formed fs.inodes.length ∧ rank i < fs.inodes.length ∧ ∀ e ∈ d.entries, rank i < rank e.2) : fs.WellFormed :=
  ⟨hroot, hworking, fun hd => (h _ (lt_length_of_directory hd) _ hd).1,
    rank, fun i d hd => (h i (lt_length_of_directory hd) d hd).2⟩

/-- The names that lead somewhere are no more than there are numbers. -/
theorem WellFormed.length_le_of_descend (h : fs.WellFormed) {i j : Nat} {names : List EntryName}
    (hdescend : fs.descend i names = some j) : names.length ≤ fs.inodes.length := by
  obtain ⟨rank, hrank⟩ := h.ranked
  have hrise : ∀ {names : List EntryName} {i j : Nat}, fs.descend i names = some j → rank i + names.length ≤ rank j := by
    intro names
    induction names with
    | nil =>
      intro i j hdescend
      rw [Option.some.inj hdescend]
      exact Nat.le_refl _
    | cons name names ih =>
      intro i j hdescend
      obtain ⟨k, hlookup, hdescend⟩ := Option.bind_eq_some_iff.mp hdescend
      obtain ⟨d, hd, hmem⟩ := h.lookup_eq_some.mp hlookup
      have hstep : rank i < rank k := (hrank i d hd).2 _ hmem
      have hrest := ih hdescend
      rw [List.length_cons]
      omega
  rcases names.eq_nil_or_concat' with rfl | ⟨before, last, rfl⟩
  · exact Nat.zero_le _
  · rw [descend_append] at hdescend
    obtain ⟨k, hbefore, hlast⟩ := Option.bind_eq_some_iff.mp hdescend
    obtain ⟨l, hlookup, -⟩ := Option.bind_eq_some_iff.mp hlast
    obtain ⟨d, hd, -⟩ := h.lookup_eq_some.mp hlookup
    have hlow := hrise hbefore
    have hhigh := (hrank k d hd).1
    rw [List.length_append, List.length_singleton]
    omega

/-! ## The path of a directory -/

/-- The names of a directory on its way up to the root, from its parent links. -/
inductive Spelled (fs : FileSystem) : Nat → List EntryName → Prop where
  | root : Spelled fs root []
  | entry {i : Nat} {d above : Directory} {e : EntryName × Nat} {names : List EntryName} (hne : i ≠ root)
    (hd : fs.directory? i = some d) (habove : fs.directory? d.parent = some above)
    (he : above.entries.find? (fun e => e.2 == i) = some e) (hnames : Spelled fs d.parent names) :
    Spelled fs i (e.1 :: names)

theorem namesOf_eq_some {fuel i : Nat} {names : List EntryName} :
    fs.namesOf fuel i = some names ↔ fs.Spelled i names ∧ names.length < fuel := by
  induction fuel generalizing i names with
  | zero => simp [namesOf]
  | succ fuel ih =>
    rw [namesOf]
    split
    · rename_i hroot
      subst hroot
      constructor
      · intro h
        rw [← Option.some.inj h]
        exact ⟨.root, Nat.succ_pos fuel⟩
      · rintro ⟨hspelled, -⟩
        cases hspelled with
        | root => rfl
        | entry hne => exact absurd rfl hne
    · rename_i hne
      constructor
      · intro h
        obtain ⟨d, hd, h⟩ := Option.bind_eq_some_iff.mp h
        obtain ⟨above, habove, h⟩ := Option.bind_eq_some_iff.mp h
        obtain ⟨e, he, h⟩ := Option.bind_eq_some_iff.mp h
        obtain ⟨more, hmore, h⟩ := Option.bind_eq_some_iff.mp h
        obtain rfl := Option.some.inj h
        obtain ⟨hspelled, hlength⟩ := ih.mp hmore
        exact ⟨.entry hne hd habove he hspelled, Nat.succ_lt_succ hlength⟩
      · rintro ⟨hspelled, hlength⟩
        cases hspelled with
        | root => exact absurd rfl hne
        | entry _ hd habove he hnames =>
          have hmore := ih.mpr ⟨hnames, Nat.lt_of_succ_lt_succ hlength⟩
          simp [hd, habove, he, hmore]

/-- The names of a directory lead to it from the root. -/
theorem Spelled.descend (h : fs.WellFormed) {i : Nat} {names : List EntryName} (hspelled : fs.Spelled i names) :
    fs.descend FileSystem.root names.reverse = some i ∧ ∀ name ∈ names, IsName name := by
  induction hspelled with
  | root => exact ⟨rfl, nofun⟩
  | entry hne hd habove he hnames ih =>
    obtain ⟨hdescend, hisName⟩ := ih
    have hmem := List.mem_of_find?_eq_some he
    obtain rfl : _ = _ := by simpa using List.find?_some he
    refine ⟨?_, List.forall_mem_cons.mpr ⟨(h.formed habove).isName _ hmem, hisName⟩⟩
    rw [List.reverse_cons, descend_append, hdescend, Option.bind_some, descend_cons, h.lookup_eq_some.mpr ⟨_, habove, hmem⟩]
    rfl

/-- The path of the working directory is the path of its names from the root. -/
theorem workingPath_eq_ok (h : fs.WellFormed) {p : Path} :
    fs.workingPath = .ok p ↔ ∃ names, fs.Spelled fs.working names ∧ p = Path.absolute names.reverse := by
  have hnames : ∀ names, fs.namesOf (fs.inodes.length + 1) fs.working = some names ↔ fs.Spelled fs.working names := by
    intro names
    rw [namesOf_eq_some, and_iff_left_iff_imp]
    intro hspelled
    have hlength := h.length_le_of_descend (hspelled.descend h).1
    rw [List.length_reverse] at hlength
    omega
  simp only [← hnames]
  unfold workingPath
  split
  · rename_i hnone
    simp [hnone]
  · rename_i hroot
    rw [hroot, Except.ok.injEq]
    constructor
    · intro hp
      exact ⟨[], rfl, hp.symm⟩
    · rintro ⟨names, hnames, hp⟩
      rw [hp, ← Option.some.inj hnames]
      rfl
  · rename_i names hne hsome
    have habsolute : Path.absolute names.reverse = Path.ofSegments ([] :: names.reverse) := by
      rw [Path.absolute, if_neg (by simpa using hne)]
    rw [hsome, Except.ok.injEq, ← habsolute]
    constructor
    · intro hp
      exact ⟨names, rfl, hp.symm⟩
    · rintro ⟨names', hnames, hp⟩
      rw [hp, ← Option.some.inj hnames]

/-- The path of the working directory is one of names that lead to it. -/
theorem exists_names_of_workingPath (h : fs.WellFormed) {p : Path} (hp : fs.workingPath = .ok p) :
    ∃ names, p = Path.absolute names ∧ (∀ name ∈ names, IsName name) ∧
      fs.descend FileSystem.root names = some fs.working := by
  obtain ⟨names, hspelled, rfl⟩ := (workingPath_eq_ok h).mp hp
  obtain ⟨hdescend, hnames⟩ := hspelled.descend h
  exact ⟨names.reverse, rfl, fun name hname => hnames name (List.mem_reverse.mp hname), hdescend⟩

/-! ## What lies below a directory -/

/-- The numbers below a directory are those that names lead to from there. -/
theorem mem_below (hfs : fs.WellFormed) {fuel i j : Nat} :
    j ∈ fs.below fuel i ↔ ∃ names : List EntryName, names.length ≤ fuel ∧ fs.descend i names = some j := by
  induction fuel generalizing i with
  | zero => simp [below, descend, eq_comm]
  | succ fuel ih =>
    cases hd : fs.directory? i with
    | none =>
      rw [below, hd, List.mem_singleton]
      constructor
      · rintro rfl
        exact ⟨[], Nat.zero_le _, rfl⟩
      · rintro ⟨_ | ⟨name, names⟩, -, hdescend⟩
        · exact (Option.some.inj hdescend).symm
        · simp [descend_cons, lookup, hd] at hdescend
    | some d =>
      rw [below, hd]
      simp only [List.mem_cons, List.mem_flatMap, ih]
      constructor
      · rintro (rfl | ⟨e, he, names, hlength, hdescend⟩)
        · exact ⟨[], Nat.zero_le _, rfl⟩
        · refine ⟨e.1 :: names, Nat.succ_le_succ hlength, ?_⟩
          rw [descend_cons, hfs.lookup_eq_some.mpr ⟨d, hd, he⟩]
          exact hdescend
      · rintro ⟨_ | ⟨name, names⟩, hlength, hdescend⟩
        · exact .inl (Option.some.inj hdescend).symm
        · obtain ⟨k, hlookup, hdescend⟩ := Option.bind_eq_some_iff.mp hdescend
          obtain ⟨d', hd', hmem⟩ := hfs.lookup_eq_some.mp hlookup
          obtain rfl : d = d' := Option.some.inj (hd.symm.trans hd')
          exact .inr ⟨(name, k), hmem, names, Nat.le_of_succ_le_succ hlength, hdescend⟩

/-- What is discarded with a directory is all that names lead to from there. -/
theorem mem_discarded (hfs : fs.WellFormed) {i j : Nat} :
    j ∈ fs.below fs.inodes.length i ↔ ∃ names : List EntryName, fs.descend i names = some j := by
  rw [mem_below hfs]
  exact exists_congr fun names => and_iff_right_of_imp hfs.length_le_of_descend

end FileSystem

end ClusterConfig
