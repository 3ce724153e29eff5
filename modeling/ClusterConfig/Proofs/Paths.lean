import ClusterConfig.Proofs.Files

/-!
# Names and paths from the root

The path of names from the root leads where the names do, one entry of a directory after the other, unless it is too long to be
followed (`find_absolute`). The names are those that an entry can have; a path that ends in a name ends in such a one. A path that
leads to something has a parent that does (`holds_of_find`).
-/

namespace ClusterConfig

namespace FileSystem

variable {fs : FileSystem}

/-! ## Names -/

/-- The names that an entry of a directory can have. -/
structure IsName (name : EntryName) : Prop where
  significant : Path.significant name = true
  ne_dotDot : name ≠ Path.dotDot
  length : name.length ≤ maxNameLength
  slash : Path.slash ∉ name
  nul : 0 ∉ name

instance : DecidablePred IsName := fun name =>
  decidable_of_iff (Path.significant name = true ∧ name ≠ Path.dotDot ∧ name.length ≤ maxNameLength ∧ Path.slash ∉ name ∧
    0 ∉ name) ⟨fun ⟨hs, hdots, hl, hslash, hnul⟩ => ⟨hs, hdots, hl, hslash, hnul⟩, fun h => ⟨h.1, h.2, h.3, h.4, h.5⟩⟩

/-- What names lead to, one entry of a directory after the other. -/
def descend (fs : FileSystem) (i : Nat) (names : List EntryName) : Option Nat := names.foldlM fs.lookup i

theorem descend_cons (fs : FileSystem) (i : Nat) (name : EntryName) (names : List EntryName) :
    fs.descend i (name :: names) = (fs.lookup i name).bind fun j => fs.descend j names := rfl

theorem descend_append (fs : FileSystem) (i : Nat) (names more : List EntryName) :
    fs.descend i (names ++ more) = (fs.descend i names).bind fun j => fs.descend j more := by
  rw [descend, List.foldlM_append]
  rfl

/-- Names lead where they led if every one of them does. -/
theorem descend_of_lookup {fs' : FileSystem} (h : ∀ i name j, fs.lookup i name = some j → fs'.lookup i name = some j) {i j : Nat}
    {names : List EntryName} (hdescend : fs.descend i names = some j) : fs'.descend i names = some j := by
  induction names generalizing i with
  | nil => exact hdescend
  | cons name names ih =>
    obtain ⟨k, hlookup, hdescend⟩ := Option.bind_eq_some_iff.mp hdescend
    rw [descend_cons, h i name k hlookup]
    exact ih hdescend

/-- The step by a name of an entry is its lookup. -/
theorem step_eq_ok {i j : Nat} {name : EntryName} (h : IsName name) : fs.step i name = .ok j ↔ fs.lookup i name = some j := by
  constructor
  · intro hstep
    obtain ⟨d, hd, hentry⟩ := lookup_of_step hstep h.significant h.ne_dotDot
    rw [lookup, hd, Option.bind_some, hentry]
  · exact fun hlookup => step_of_lookup hlookup h.significant h.ne_dotDot h.length

theorem walk_eq_ok {i j : Nat} {names : List EntryName} (h : ∀ name ∈ names, IsName name) :
    fs.walk i names = .ok j ↔ fs.descend i names = some j := by
  induction names generalizing i with
  | nil => simp [walk, descend, pure, Except.pure]
  | cons name names ih =>
    rw [List.forall_mem_cons] at h
    rw [walk, List.foldlM_cons, bind_eq_ok, descend_cons, Option.bind_eq_some_iff]
    exact exists_congr fun k => and_congr (step_eq_ok h.1) (ih h.2)

end FileSystem

/-! ## Paths from the root -/

namespace Path

theorem splitAt_of_notMem {sep : UInt8} {part : List UInt8} (h : sep ∉ part) : splitAt sep part = [part] := by
  induction part with
  | nil => rfl
  | cons b part ih =>
    rw [List.mem_cons, not_or] at h
    rw [splitAt, if_neg (Ne.symm h.1), ih h.2]

theorem splitAt_append {sep : UInt8} {part : List UInt8} (h : sep ∉ part) (rest : List UInt8) :
    splitAt sep (part ++ sep :: rest) = part :: splitAt sep rest := by
  induction part with
  | nil => rw [List.nil_append, splitAt, if_pos rfl]
  | cons b part ih =>
    rw [List.mem_cons, not_or] at h
    rw [List.cons_append, splitAt, if_neg (Ne.symm h.1), ih h.2]

theorem bytes_ofSegments_cons (segment next : List UInt8) (more : List (List UInt8)) :
    (ofSegments (segment :: next :: more)).bytes = segment ++ slash :: (ofSegments (next :: more)).bytes := by
  simp [ofSegments, List.intercalate]

/-- Segments that are put together are found again. -/
theorem segments_ofSegments {segment : List UInt8} {more : List (List UInt8)}
    (h : ∀ part ∈ segment :: more, slash ∉ part) : (ofSegments (segment :: more)).segments = segment :: more := by
  induction more generalizing segment with
  | nil =>
    rw [ofSegments, segments, List.intercalate, List.intersperse_singleton, List.flatten_singleton]
    exact splitAt_of_notMem (h segment List.mem_cons_self)
  | cons next more ih =>
    rw [segments, bytes_ofSegments_cons, splitAt_append (h segment List.mem_cons_self)]
    exact congrArg _ (ih fun part hpart => h part (List.mem_cons_of_mem _ hpart))

/-- The path of names from the root. -/
def absolute (names : List EntryName) : Path := if names = [] then ⟨[slash]⟩ else ofSegments ([] :: names)

theorem absolute_cons (name : EntryName) (names : List EntryName) :
    (absolute (name :: names)).bytes = slash :: (ofSegments (name :: names)).bytes := by
  rw [absolute, if_neg (List.cons_ne_nil _ _), bytes_ofSegments_cons, List.nil_append]

theorem isAbsolute_absolute (names : List EntryName) : (absolute names).isAbsolute = true := by
  cases names with
  | nil => rfl
  | cons name names => rw [isAbsolute, absolute_cons]; rfl

theorem notMem_ofSegments {b : UInt8} (hb : b ≠ slash) {segment : List UInt8} {more : List (List UInt8)}
    (h : ∀ part ∈ segment :: more, b ∉ part) : b ∉ (ofSegments (segment :: more)).bytes := by
  rw [List.forall_mem_cons] at h
  induction more generalizing segment with
  | nil =>
    rw [ofSegments, List.intercalate, List.intersperse_singleton, List.flatten_singleton]
    exact h.1
  | cons next more ih =>
    rw [bytes_ofSegments_cons, List.mem_append, List.mem_cons, not_or, not_or]
    exact ⟨h.1, hb, ih (List.forall_mem_cons.mp h.2)⟩

end Path

namespace FileSystem

variable {fs : FileSystem}

/-- A path from the root can be followed where it is not too long. -/
theorem checkPath_absolute {names : List EntryName} (h : ∀ name ∈ names, IsName name) :
    checkPath (Path.absolute names) = .ok () ↔ (Path.absolute names).bytes.length ≤ maxPathLength := by
  have hnul : (0 : UInt8) ∉ (Path.absolute names).bytes := by
    cases names with
    | nil => decide
    | cons name names =>
      rw [Path.absolute_cons, List.mem_cons, not_or]
      exact ⟨by decide, Path.notMem_ofSegments (by decide) fun part hpart => (h part hpart).nul⟩
  have hne : (Path.absolute names).bytes.isEmpty = false := by
    cases names with
    | nil => rfl
    | cons name names => rw [Path.absolute_cons]; rfl
  simp [checkPath, hnul, hne]

theorem walk_absolute {names : List EntryName} (h : ∀ name ∈ names, IsName name) (hroot : (fs.directory? root).isSome = true) :
    fs.walk root (Path.absolute names).segments = fs.walk root names := by
  obtain ⟨d, hd⟩ := Option.isSome_iff_exists.mp hroot
  have hstep : fs.step root [] = .ok root := by
    simp [step, hd, Path.significant]
  cases names with
  | nil => simp [Path.absolute, Path.segments, Path.splitAt, walk, hstep, bind, Except.bind]
  | cons name names =>
    have hsegments : (Path.absolute (name :: names)).segments = [] :: name :: names := by
      rw [Path.absolute, if_neg (List.cons_ne_nil _ _)]
      exact Path.segments_ofSegments (List.forall_mem_cons.mpr ⟨List.not_mem_nil, fun part hpart => (h part hpart).slash⟩)
    rw [hsegments, walk, List.foldlM_cons, hstep]
    rfl

/-- A path from the root leads where its names lead. -/
theorem find_absolute {names : List EntryName} (h : ∀ name ∈ names, IsName name)
    (hroot : (fs.directory? root).isSome = true) {j : Nat} :
    fs.find (Path.absolute names) = .ok j ↔
      (Path.absolute names).bytes.length ≤ maxPathLength ∧ fs.descend root names = some j := by
  have hstart : fs.start (Path.absolute names) = root := by rw [start, if_pos (Path.isAbsolute_absolute names)]
  rw [find, bind_eq_ok, hstart, walk_absolute h hroot, ← checkPath_absolute h, ← walk_eq_ok h]
  constructor
  · rintro ⟨_, hfind⟩
    exact hfind
  · exact fun hfind => ⟨(), hfind⟩

/-! ## The last name of a path -/

theorem mem_splitAt {sep : UInt8} {bytes part : List UInt8} (h : part ∈ Path.splitAt sep bytes) :
    sep ∉ part ∧ ∀ b ∈ part, b ∈ bytes := by
  induction bytes generalizing part with
  | nil =>
    rw [Path.splitAt, List.mem_singleton] at h
    rw [h]
    exact ⟨List.not_mem_nil, nofun⟩
  | cons b rest ih =>
    rw [Path.splitAt] at h
    split at h
    · rcases List.mem_cons.mp h with rfl | h
      · exact ⟨List.not_mem_nil, nofun⟩
      · exact ⟨(ih h).1, fun c hc => List.mem_cons_of_mem _ ((ih h).2 c hc)⟩
    · rename_i hne
      split at h
      · rw [List.mem_singleton.mp h]
        refine ⟨fun hmem => hne (List.mem_singleton.mp hmem).symm, fun c hc => ?_⟩
        exact List.mem_cons.mpr (.inl (List.mem_singleton.mp hc))
      · rename_i first parts hsplit
        rw [hsplit] at ih
        rcases List.mem_cons.mp h with rfl | h
        · obtain ⟨hsep, hsub⟩ := ih List.mem_cons_self
          refine ⟨fun hmem => ?_, List.forall_mem_cons.mpr ⟨List.mem_cons_self, fun c hc => List.mem_cons_of_mem _ (hsub c hc)⟩⟩
          rcases List.mem_cons.mp hmem with heq | hmem
          · exact hne heq.symm
          · exact hsep hmem
        · obtain ⟨hsep, hsub⟩ := ih (List.mem_cons_of_mem _ h)
          exact ⟨hsep, fun c hc => List.mem_cons_of_mem _ (hsub c hc)⟩

/-- A path ends in a name that an entry can have. -/
theorem isName_of_target {p : Path} {dir : Nat} {name : EntryName} {slash : Bool}
    (h : fs.target p = .ok (.entry dir name slash)) : IsName name := by
  obtain ⟨hcheck, ⟨before, hsplit, -⟩, hs, hdots, hl, -⟩ := target_eq_entry h
  have hmem : name ∈ p.segments := by
    refine (List.rdropWhile_prefix List.isEmpty p.segments).subset ?_
    rw [hsplit]
    exact List.mem_append_right _ List.mem_cons_self
  obtain ⟨hslash, hsub⟩ := mem_splitAt hmem
  refine ⟨hs, hdots, hl, hslash, fun hnul => ?_⟩
  rw [checkPath, if_pos (List.contains_iff_mem.mpr (hsub 0 hnul))] at hcheck
  nomatch hcheck

end FileSystem

/-! ## The parent of a path -/

namespace Path

theorem splitAt_ne_nil (sep : UInt8) (bytes : List UInt8) : splitAt sep bytes ≠ [] := by
  cases bytes with
  | nil => exact List.cons_ne_nil _ _
  | cons b rest =>
    rw [splitAt]
    split
    · exact List.cons_ne_nil _ _
    · split <;> exact List.cons_ne_nil _ _

/-- The segments of a path are put together to it. -/
theorem ofSegments_segments (p : Path) : ofSegments p.segments = p := by
  obtain ⟨bytes⟩ := p
  have hbytes : (ofSegments (splitAt slash bytes)).bytes = bytes := by
    induction bytes with
    | nil => rfl
    | cons b rest ih =>
      obtain ⟨part, parts, hsplit⟩ := List.exists_cons_of_ne_nil (splitAt_ne_nil slash rest)
      rw [splitAt]
      split
      · rename_i hb
        rw [hsplit, bytes_ofSegments_cons, ← hsplit, ih, hb]
        rfl
      · simp only [hsplit]
        cases parts with
        | nil =>
          rw [hsplit] at ih
          simpa [ofSegments, List.intercalate] using ih
        | cons next more =>
          rw [hsplit, bytes_ofSegments_cons] at ih
          rw [bytes_ofSegments_cons, List.cons_append, ih]
  exact congrArg Path.mk hbytes

/-- The path of the first segments starts the path of all. -/
theorem bytes_ofSegments_prefix {first : List UInt8} {kept rest : List (List UInt8)} :
    (ofSegments (first :: kept)).bytes <+: (ofSegments (first :: (kept ++ rest))).bytes := by
  induction kept generalizing first with
  | nil =>
    cases rest with
    | nil => exact List.prefix_rfl
    | cons next more =>
      rw [List.nil_append, bytes_ofSegments_cons]
      simp [ofSegments, List.intercalate]
  | cons next more ih =>
    rw [List.cons_append, bytes_ofSegments_cons, bytes_ofSegments_cons, List.prefix_append_right_inj]
    exact (List.prefix_cons_inj slash).mpr ih

/-- A path is absolute where its first segment is empty and not its only one. -/
theorem isAbsolute_of_segments {p : Path} {next : List UInt8} {more : List (List UInt8)}
    (h : p.segments = [] :: next :: more) : p.isAbsolute = true := by
  rw [← ofSegments_segments p, h, isAbsolute, bytes_ofSegments_cons]
  rfl

/-- The parent of a path is empty, or the root, or the path of its first segments. -/
theorem parent_cases {p above : Path} (h : p.parent? = some above) :
    above.bytes = [] ∨ (p.isAbsolute = true ∧ above = ⟨[slash]⟩) ∨
      ∃ first kept rest, p.segments = first :: (kept ++ rest) ∧ above = ofSegments (first :: kept) := by
  unfold parent? at h
  split at h
  · nomatch h
  · nomatch h
  · cases h
    exact .inl rfl
  · split at h
    · cases h
      exact .inl rfl
    · rename_i hbefore
      generalize hnamed : p.segments.reverse.dropWhile (fun s => !significant s) = named at h hbefore
      cases named with
      | nil => exact absurd rfl hbefore
      | cons name before =>
        rw [List.tail_cons] at h hbefore
        have hsegments : p.segments = before.reverse ++ name :: p.segments.rtakeWhile (fun s => !significant s) := by
          have happend := List.rdropWhile_append_rtakeWhile (p := fun s => !significant s) (l := p.segments)
          rw [List.rdropWhile, hnamed, List.reverse_cons, List.append_assoc] at happend
          exact happend.symm
        obtain ⟨first, more, hfirst⟩ := List.exists_cons_of_ne_nil hbefore
        have hkept : more.rdropWhile (fun s => !significant s) ++ more.rtakeWhile (fun s => !significant s) = more :=
          List.rdropWhile_append_rtakeWhile
        rw [hfirst] at h hsegments
        rw [← hkept, List.cons_append, List.append_assoc] at hsegments
        have htrim : trimEnd (first :: more) = first :: more.rdropWhile (fun s => !significant s) := rfl
        simp only [htrim, Option.some.injEq] at h
        split at h
        · rename_i hroot
          obtain ⟨rfl, hnil⟩ := List.cons.inj hroot
          rw [hnil, List.nil_append] at hsegments
          obtain ⟨next, others, hnext⟩ := List.exists_cons_of_ne_nil
            (List.append_ne_nil_of_right_ne_nil (more.rtakeWhile fun s => !significant s) (List.cons_ne_nil name _))
          rw [hnext] at hsegments
          exact .inr (.inl ⟨isAbsolute_of_segments hsegments, h.symm⟩)
        · exact .inr (.inr ⟨first, _, _, hsegments, h.symm⟩)

end Path

namespace FileSystem

variable {fs : FileSystem}

/-- What starts a path that can be followed can be followed too, if it is not empty. -/
theorem checkPath_of_prefix {p above : Path} (hcheck : checkPath p = .ok ()) (hstarts : above.bytes <+: p.bytes)
    (hne : above.bytes ≠ []) : checkPath above = .ok () := by
  unfold checkPath at hcheck ⊢
  split at hcheck
  · nomatch hcheck
  · rename_i hnul
    split at hcheck
    · nomatch hcheck
    · split at hcheck
      · nomatch hcheck
      · rename_i hlength
        have hnul' : ¬above.bytes.contains 0 = true := by
          intro hmem
          exact hnul (List.contains_iff_mem.mpr (hstarts.subset (List.contains_iff_mem.mp hmem)))
        have hle := hstarts.length_le
        rw [if_neg hnul', if_neg (by simpa using hne), if_neg (by omega)]

/-- Where a path leads to something, the path of its first segments does, if it is not empty. -/
theorem find_of_segments {p above : Path} {i : Nat} {first : List UInt8} {kept rest : List (List UInt8)}
    (hfind : fs.find p = .ok i) (hsegments : p.segments = first :: (kept ++ rest)) (habove : above = Path.ofSegments (first :: kept))
    (hne : above.bytes ≠ []) : ∃ j, fs.find above = .ok j := by
  obtain ⟨⟨⟩, hcheck, hwalk⟩ := bind_eq_ok.mp hfind
  have hstarts : above.bytes <+: p.bytes := by
    rw [habove, ← Path.ofSegments_segments p, hsegments]
    exact Path.bytes_ofSegments_prefix
  have hsegments' : above.segments = first :: kept := by
    rw [habove]
    refine Path.segments_ofSegments fun part hpart => ?_
    have hmem : part ∈ p.segments := by
      rw [hsegments, ← List.cons_append]
      exact List.mem_append_left _ hpart
    exact (mem_splitAt hmem).1
  have hstart : fs.start above = fs.start p := by
    obtain ⟨b, bytes, hbytes⟩ := List.exists_cons_of_ne_nil hne
    obtain ⟨rest, hrest⟩ := hstarts
    rw [start, start, Path.isAbsolute, Path.isAbsolute, ← hrest, hbytes]
    rfl
  rw [hsegments, ← List.cons_append, walk_append_eq_ok] at hwalk
  obtain ⟨j, hj, -⟩ := hwalk
  exact ⟨j, bind_eq_ok.mpr ⟨(), checkPath_of_prefix hcheck hstarts hne, by rw [hstart, hsegments']; exact hj⟩⟩

/-- Where a path leads to something, its parent does, if it is not empty. -/
theorem holds_of_find {p above : Path} {i : Nat} (hfind : fs.find p = .ok i) (habove : p.parent? = some above) :
    (above.bytes.isEmpty || fs.holds above) = true := by
  have hholds : ∀ {j}, fs.find above = .ok j → fs.holds above = true := by
    intro j hj
    rw [holds, hj]
    rfl
  rcases Path.parent_cases habove with hempty | ⟨habsolute, rfl⟩ | ⟨first, kept, rest, hsegments, hfirst⟩
  · simp [hempty]
  · obtain ⟨⟨⟩, -, hwalk⟩ := bind_eq_ok.mp hfind
    obtain ⟨segment, segments, hsegments⟩ := List.exists_cons_of_ne_nil (Path.splitAt_ne_nil Path.slash p.bytes)
    rw [start, if_pos habsolute, Path.segments, hsegments] at hwalk
    obtain ⟨j, hstep, -⟩ := bind_eq_ok.mp hwalk
    have hroot : (fs.directory? root).isSome = true := by
      unfold step at hstep
      split at hstep
      · cases hstep
      · rename_i d hd
        rw [hd]
        rfl
    have hfindroot : fs.find ⟨[Path.slash]⟩ = .ok root :=
      bind_eq_ok.mpr ⟨(), rfl, walk_of_isEmpty hroot (by decide)⟩
    rw [hholds hfindroot, Bool.or_true]
  · by_cases hne : above.bytes = []
    · simp [hne]
    · obtain ⟨j, hj⟩ := find_of_segments hfind hsegments hfirst hne
      rw [hholds hj, Bool.or_true]

end FileSystem

end ClusterConfig
