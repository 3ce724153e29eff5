import ClusterConfig.Proofs.Directories
import ClusterConfig.Proofs.SessionSteps

/-!
# File systems over time

While nothing is renamed, a name that leads to something old has always led there, a directory that has been removed stays so, and
one that has not been removed is still found by the names that led to it. This is `Ages`; every operation that moves nothing lets
a file system age.
-/

namespace ClusterConfig

namespace FileSystem

variable {fs fs' fs'' : FileSystem}

/-! ## Time -/

/-- The directory of a number has not been removed. -/
def Stands (fs : FileSystem) (i : Nat) : Prop := ∃ d, fs.directory? i = some d ∧ d.removed = false

/-- What becomes of a file system as long as nothing in it is renamed. Directories keep their parents and stay removed once they
are, an entry for something old has been there before, and a directory that stands is found by the names that led to it. -/
structure Ages (fs fs' : FileSystem) : Prop where
  wellFormed : fs'.WellFormed
  length : fs.inodes.length ≤ fs'.inodes.length
  directory : ∀ {i d}, fs.directory? i = some d →
    ∃ d', fs'.directory? i = some d' ∧ d'.parent = d.parent ∧ (d.removed = true → d'.removed = true)
  older : ∀ {i d'}, fs'.directory? i = some d' → ∀ e ∈ d'.entries, e.2 < fs.inodes.length →
    ∃ d, fs.directory? i = some d ∧ e ∈ d.entries
  kept : ∀ {names i}, (fs.directory? i).isSome = true → fs.descend FileSystem.root names = some i → fs'.Stands i →
    fs'.descend FileSystem.root names = some i

namespace Ages

theorem isSome (h : fs.Ages fs') {i : Nat} (hi : (fs.directory? i).isSome = true) : (fs'.directory? i).isSome = true := by
  obtain ⟨d, hd⟩ := Option.isSome_iff_exists.mp hi
  obtain ⟨d', hd', -⟩ := h.directory hd
  rw [hd']
  rfl

/-- What stands has stood before, if it was there. -/
theorem stands (h : fs.Ages fs') {i : Nat} (hi : (fs.directory? i).isSome = true) (hstands : fs'.Stands i) : fs.Stands i := by
  obtain ⟨d, hd⟩ := Option.isSome_iff_exists.mp hi
  obtain ⟨d', hd', -, hremoved⟩ := h.directory hd
  obtain ⟨e, he, hfalse⟩ := hstands
  obtain rfl : d' = e := Option.some.inj (hd'.symm.trans he)
  refine ⟨d, hd, ?_⟩
  by_contra htrue
  rw [hremoved (by simpa using htrue)] at hfalse
  nomatch hfalse

theorem refl (h : fs.WellFormed) : fs.Ages fs :=
  ⟨h, Nat.le_refl _, fun hd => ⟨_, hd, rfl, id⟩, fun hd _ he _ => ⟨_, hd, he⟩, fun _ hdescend _ => hdescend⟩

theorem trans (h : fs.Ages fs') (h' : fs'.Ages fs'') : fs.Ages fs'' := by
  refine ⟨h'.wellFormed, h.length.trans h'.length, fun hd => ?_, fun hd'' e he hlt => ?_, fun hi hdescend hstands => ?_⟩
  · obtain ⟨d', hd', hparent, hremoved⟩ := h.directory hd
    obtain ⟨d'', hd'', hparent', hremoved'⟩ := h'.directory hd'
    exact ⟨d'', hd'', hparent'.trans hparent, fun htrue => hremoved' (hremoved htrue)⟩
  · obtain ⟨d', hd', he'⟩ := h'.older hd'' e he (Nat.lt_of_lt_of_le hlt h.length)
    exact h.older hd' e he' hlt
  · have hi' := h.isSome hi
    exact h'.kept hi' (h.kept hi hdescend (h'.stands hi' hstands)) hstands

/-- Names that lead to something old led there before. -/
theorem descend_before (h : fs.Ages fs') (hfs : fs.WellFormed) {names : List EntryName} {i : Nat}
    (hdescend : fs'.descend FileSystem.root names = some i) (hi : i < fs.inodes.length) :
    fs.descend FileSystem.root names = some i := by
  -- From the last name backwards: what an old thing is in must be old too.
  induction names using List.reverseRecOn generalizing i with
  | nil => exact hdescend
  | append_singleton names name ih =>
    rw [descend_append] at hdescend ⊢
    obtain ⟨k, hbefore, hlast⟩ := Option.bind_eq_some_iff.mp hdescend
    obtain ⟨l, hlookup, hl⟩ := Option.bind_eq_some_iff.mp hlast
    obtain rfl : l = i := Option.some.inj hl
    obtain ⟨d', hd', hmem⟩ := h.wellFormed.lookup_eq_some.mp hlookup
    obtain ⟨d, hd, hmem⟩ := h.older hd' _ hmem hi
    rw [ih hbefore (lt_length_of_directory hd), Option.bind_some, descend_cons, hfs.lookup_eq_some.mpr ⟨d, hd, hmem⟩]
    rfl

/-- A directory that was there had its names before. -/
theorem spelled_before (h : fs.Ages fs') (hfs : fs.WellFormed) {i : Nat} {names : List EntryName}
    (hspelled : fs'.Spelled i names) (hi : (fs.directory? i).isSome = true) : fs.Spelled i names := by
  induction hspelled with
  | root => exact .root
  | @entry i d' above' e names hne hd' habove' he hnames ih =>
    obtain ⟨d, hd⟩ := Option.isSome_iff_exists.mp hi
    obtain ⟨d'', hd'', hparent, -⟩ := h.directory hd
    obtain rfl : d'' = d' := Option.some.inj (hd''.symm.trans hd')
    have hnumber : e.2 = i := by simpa using List.find?_some he
    obtain ⟨above, habove, hmem⟩ := h.older habove' e (List.mem_of_find?_eq_some he)
      (by rw [hnumber]; exact lt_length_of_directory hd)
    rw [hparent] at habove ih
    exact .entry hne hd habove ((hfs.formed habove).find_number hmem hnumber) (ih (by rw [habove]; rfl))

/-- Where no directory changes, the file system ages. -/
theorem of_directory (hfs : fs.WellFormed) (hlength : fs'.inodes.length = fs.inodes.length)
    (hdirectory : ∀ i, fs'.directory? i = fs.directory? i) (hworking : (fs.directory? fs'.working).isSome = true) :
    fs.Ages fs' := by
  have hlookup : fs'.lookup = fs.lookup := by
    funext i name
    rw [lookup, lookup, hdirectory]
  refine ⟨?_, hlength.ge, fun hd => ⟨_, (hdirectory _).trans hd, rfl, id⟩, fun hd e he _ => ⟨_, (hdirectory _).symm.trans hd, he⟩,
    fun _ hdescend _ => ?_⟩
  · constructor <;> simp only [Ranked, hdirectory, hlength, hworking]
    · exact hfs.root
    · exact hfs.formed
    · exact hfs.ranked
  · rwa [descend, hlookup]

end Ages

/-! ## Directories that change -/

theorem directory_modifyDirectory (fs : FileSystem) (i : Nat) (f : Directory → Directory) (j : Nat) :
    (fs.modifyDirectory i f).directory? j = if j = i then (fs.directory? j).map f else fs.directory? j := by
  unfold modifyDirectory
  split
  · rename_i d hd
    have hlt := lt_length_of_directory hd
    split
    · rename_i hij
      rw [hij, hd, Option.map_some, directory_eq_some, set, List.getElem?_set_self hlt]
    · rename_i hij
      rw [directory?, set, List.getElem?_set_ne (Ne.symm hij)]
      rfl
  · rename_i hnone
    split
    · rename_i hij
      rw [hij, hnone]
      rfl
    · rfl

@[simp]
theorem length_modifyDirectory (fs : FileSystem) (i : Nat) (f : Directory → Directory) :
    (fs.modifyDirectory i f).inodes.length = fs.inodes.length := by
  unfold modifyDirectory
  split
  · exact List.length_set
  · rfl

@[simp]
theorem working_modifyDirectory (fs : FileSystem) (i : Nat) (f : Directory → Directory) :
    (fs.modifyDirectory i f).working = fs.working := by
  unfold modifyDirectory
  split <;> rfl

/-! ## Something new -/

/-- Something new gets the next number, and an entry in its directory. -/
theorem directory_create {dir i : Nat} {name : EntryName} {inode : Inode} (h : fs.create dir name inode = .ok (fs', i)) :
    i = fs.inodes.length ∧ fs'.inodes.length = fs.inodes.length + 1 ∧ ∃ d, fs.directory? dir = some d ∧
      ∀ j d', fs'.directory? j = some d' ↔ (j = i ∧ inode = .directory d') ∨
        (j = dir ∧ { d with entries := d.entries ++ [(name, i)] } = d') ∨ (j ≠ i ∧ j ≠ dir ∧ fs.directory? j = some d') := by
  obtain ⟨rfl, -, d, hd, hinodes⟩ := inodes_create h
  have hlt := lt_length_of_directory hd
  refine ⟨rfl, by simp [hinodes], d, hd, fun j d' => ?_⟩
  rw [directory_eq_some, directory_eq_some, hinodes]
  by_cases hdir : j = dir
  · subst hdir
    have hne : j ≠ fs.inodes.length := by omega
    rw [List.getElem?_set_self (by simp; omega)]
    simp [hne]
  · rw [List.getElem?_set_ne (Ne.symm hdir)]
    by_cases hnew : j = fs.inodes.length
    · simp [hnew, Ne.symm (Nat.ne_of_lt hlt)]
    · have hold : (fs.inodes ++ [inode])[j]? = fs.inodes[j]? := by
        rw [List.getElem?_append]
        split
        · rfl
        · rw [List.getElem?_eq_none (by simp; omega), List.getElem?_eq_none (by omega)]
      simp [hold, hdir, hnew]

/-- A directory keeps its entries when something is created. -/
theorem directory_of_create {dir i : Nat} {name : EntryName} {inode : Inode} (h : fs.create dir name inode = .ok (fs', i))
    {j : Nat} {e : Directory} (he : fs.directory? j = some e) :
    ∃ d', fs'.directory? j = some d' ∧ d'.parent = e.parent ∧ d'.removed = e.removed ∧ ∀ x ∈ e.entries, x ∈ d'.entries := by
  obtain ⟨hi, -, d, hd, hdirectory⟩ := directory_create h
  have hj : j ≠ i := by
    have := lt_length_of_directory he
    omega
  by_cases hdir : j = dir
  · subst hdir
    obtain rfl : d = e := Option.some.inj (hd.symm.trans he)
    exact ⟨_, (hdirectory j _).mpr (.inr (.inl ⟨rfl, rfl⟩)), rfl, rfl, fun x hx => List.mem_append_left _ hx⟩
  · exact ⟨e, (hdirectory j e).mpr (.inr (.inr ⟨hj, hdir, he⟩)), rfl, rfl, fun x hx => hx⟩

/-- A new number ranks above all others. -/
theorem Ranked.create {rank : Nat → Nat} (hrank : fs.Ranked rank) (hfs : fs.WellFormed) {dir i : Nat} {name : EntryName}
    {inode : Inode} (h : fs.create dir name inode = .ok (fs', i)) (hempty : ∀ d, inode = .directory d → d.entries = []) :
    fs'.Ranked fun j => if j = i then i else rank j := by
  obtain ⟨hi, hlength, d, hd, hdirectory⟩ := directory_create h
  have hold : ∀ j e, fs.directory? j = some e →
      (if j = i then i else rank j) < i ∧ ∀ x ∈ e.entries, (if j = i then i else rank j) < if x.2 = i then i else rank x.2 := by
    intro j e he
    have hj : j ≠ i := by
      have := lt_length_of_directory he
      omega
    obtain ⟨hlow, hrise⟩ := hrank j e he
    rw [if_neg hj]
    refine ⟨by omega, fun x hx => ?_⟩
    have hne : x.2 ≠ i := by
      have := (hfs.formed he).bounded x hx
      omega
    rw [if_neg hne]
    exact hrise x hx
  intro j d' hd'
  dsimp only
  rcases (hdirectory j d').mp hd' with ⟨hj, hmade⟩ | ⟨rfl, rfl⟩ | ⟨-, -, he⟩
  · rw [if_pos hj, hempty d' hmade]
    exact ⟨by omega, nofun⟩
  · obtain ⟨hlow, hrise⟩ := hold j d hd
    refine ⟨by omega, List.forall_mem_append.mpr ⟨hrise, List.forall_mem_singleton.mpr ?_⟩⟩
    rwa [if_pos rfl]
  · obtain ⟨hlow, hrise⟩ := hold j d' he
    exact ⟨by omega, hrise⟩

/-- A file system stays well formed when it gets something new that has no entries, under a new name. -/
theorem WellFormed.create (hfs : fs.WellFormed) {dir i : Nat} {name : EntryName} {inode : Inode}
    (h : fs.create dir name inode = .ok (fs', i)) (hname : IsName name) (hnew : fs.lookup dir name = none)
    (hempty : ∀ d, inode = .directory d → d.entries = []) : fs'.WellFormed := by
  obtain ⟨hi, hlength, d, hd, hdirectory⟩ := directory_create h
  obtain ⟨rank, hrank⟩ := hfs.ranked
  have hsome : ∀ {j}, (fs.directory? j).isSome = true → (fs'.directory? j).isSome = true := by
    intro j hj
    obtain ⟨e, he⟩ := Option.isSome_iff_exists.mp hj
    obtain ⟨d', hd', -⟩ := directory_of_create h he
    rw [hd']
    rfl
  have hfresh : name ∉ d.entries.map Prod.fst := by
    intro hmem
    obtain ⟨⟨segment, number⟩, he, rfl⟩ := List.mem_map.mp hmem
    rw [hfs.lookup_eq_some.mpr ⟨d, hd, he⟩] at hnew
    nomatch hnew
  have hworking : (fs'.directory? fs'.working).isSome = true := by
    rw [(create_eq_ok h).1]
    exact hsome hfs.working
  refine ⟨hsome hfs.root, hworking, fun hd' => ?_, _, hrank.create hfs h hempty⟩
  rw [hlength]
  rcases (hdirectory _ _).mp hd' with ⟨-, hmade⟩ | ⟨-, rfl⟩ | ⟨-, -, he⟩
  · exact .of_nil (hempty _ hmade)
  · rw [hi]
    exact (hfs.formed hd).add hname hfresh
  · exact (hfs.formed he).mono (Nat.le_succ _)

/-- A file system ages when it gets something new that has no entries, under a new name. -/
theorem Ages.create (hfs : fs.WellFormed) {dir i : Nat} {name : EntryName} {inode : Inode}
    (h : fs.create dir name inode = .ok (fs', i)) (hname : IsName name) (hnew : fs.lookup dir name = none)
    (hempty : ∀ d, inode = .directory d → d.entries = []) : fs.Ages fs' := by
  have hwell := hfs.create h hname hnew hempty
  obtain ⟨hi, hlength, d, hd, hdirectory⟩ := directory_create h
  refine ⟨hwell, by omega, fun hd => ?_, fun hd' x hx hlt => ?_, fun _ hdescend _ => ?_⟩
  · obtain ⟨d', hd', hparent, hremoved, -⟩ := directory_of_create h hd
    exact ⟨d', hd', hparent, hremoved.trans⟩
  · rcases (hdirectory _ _).mp hd' with ⟨-, hmade⟩ | ⟨rfl, rfl⟩ | ⟨-, -, he⟩
    · rw [hempty _ hmade] at hx
      nomatch hx
    · rcases List.mem_append.mp hx with hx | hx
      · exact ⟨d, hd, hx⟩
      · rw [List.mem_singleton.mp hx] at hlt
        exact absurd hi (Nat.ne_of_lt hlt)
    · exact ⟨_, he, hx⟩
  · refine descend_of_lookup (fun j segment k hlookup => ?_) hdescend
    obtain ⟨e, he, hmem⟩ := hfs.lookup_eq_some.mp hlookup
    obtain ⟨d', hd', -, -, hsub⟩ := directory_of_create h he
    exact hwell.lookup_eq_some.mpr ⟨d', hd', hsub _ hmem⟩

/-! ## Something taken away -/

theorem directory_foldl_modify {f : Directory → Directory} (hf : ∀ d, f (f d) = f d) (fs : FileSystem) (numbers : List Nat)
    (j : Nat) : (numbers.foldl (fun fs i => fs.modifyDirectory i f) fs).directory? j =
      if j ∈ numbers then (fs.directory? j).map f else fs.directory? j := by
  induction numbers generalizing fs with
  | nil => simp
  | cons i rest ih =>
    rw [List.foldl_cons, ih, directory_modifyDirectory]
    by_cases hi : j = i
    · have htwice : f ∘ f = f := funext hf
      simp [hi, htwice]
    · simp [hi]

/-- A directory once a name has been taken out of one and what it led to has been discarded. -/
def remaining (discarded : List Nat) (dir : Nat) (name : EntryName) (j : Nat) (d : Directory) : Directory :=
  { d with
    entries := if j ∈ discarded then [] else if j = dir then d.entries.filter fun e => e.1 != name else d.entries
    removed := d.removed || decide (j ∈ discarded) }

theorem directory_remove (fs : FileSystem) (i dir : Nat) (name : EntryName) (j : Nat) :
    ((fs.discard i).unlink dir name).directory? j =
      (fs.directory? j).map (remaining (fs.below fs.inodes.length i) dir name j) := by
  rw [unlink, directory_modifyDirectory, discard,
    directory_foldl_modify (f := fun d => { d with entries := [], removed := true }) fun _ => rfl]
  generalize fs.below fs.inodes.length i = discarded
  cases fs.directory? j with
  | none => simp
  | some d =>
    by_cases hdir : j = dir
    · subst hdir
      by_cases hj : j ∈ discarded <;> simp [remaining, hj]
    · by_cases hj : j ∈ discarded <;> simp [remaining, hdir, hj]

theorem sublist_remaining (discarded : List Nat) (dir : Nat) (name : EntryName) (j : Nat) (d : Directory) :
    (remaining discarded dir name j d).entries.Sublist d.entries := by
  unfold remaining
  dsimp only
  split
  · exact List.nil_sublist _
  · split
    · exact List.filter_sublist
    · exact List.Sublist.refl _

/-- What a change of a directory leaves as it is, discarding does too. -/
theorem discard_eq_of_modifyDirectory {α : Type} {f : FileSystem → α} (h : ∀ fs i g, f (modifyDirectory fs i g) = f fs)
    (fs : FileSystem) (i : Nat) : f (fs.discard i) = f fs := by
  unfold discard
  generalize fs.below fs.inodes.length i = numbers
  induction numbers generalizing fs with
  | nil => rfl
  | cons j rest ih => rw [List.foldl_cons, ih, h]

@[simp]
theorem length_discard (fs : FileSystem) (i : Nat) : (fs.discard i).inodes.length = fs.inodes.length :=
  discard_eq_of_modifyDirectory (f := fun fs => fs.inodes.length) length_modifyDirectory fs i

@[simp]
theorem working_discard (fs : FileSystem) (i : Nat) : (fs.discard i).working = fs.working :=
  discard_eq_of_modifyDirectory (f := working) working_modifyDirectory fs i

theorem working_removes (h : fs.Removes fs') : fs'.working = fs.working := by
  obtain ⟨dir, name, i, -, rfl⟩ := h
  simp [unlink]

/-- A directory from which something has been taken away was there, with all its entries. -/
theorem directory_before_remove {i dir j : Nat} {name : EntryName} {d' : Directory}
    (h : ((fs.discard i).unlink dir name).directory? j = some d') :
    ∃ d, fs.directory? j = some d ∧ remaining (fs.below fs.inodes.length i) dir name j d = d' ∧
      d'.entries.Sublist d.entries := by
  rw [directory_remove] at h
  obtain ⟨d, hd, rfl⟩ := Option.map_eq_some_iff.mp h
  exact ⟨d, hd, rfl, sublist_remaining _ _ _ _ _⟩

theorem WellFormed.removes (hfs : fs.WellFormed) (h : fs.Removes fs') : fs'.WellFormed := by
  have hworking := working_removes h
  obtain ⟨dir, name, i, -, rfl⟩ := h
  have hlength : ((fs.discard i).unlink dir name).inodes.length = fs.inodes.length := by simp [unlink]
  obtain ⟨rank, hrank⟩ := hfs.ranked
  refine ⟨?_, ?_, fun hd' => ?_, rank, fun j d' hd' => ?_⟩
  · rw [directory_remove, Option.isSome_map]
    exact hfs.root
  · rw [hworking, directory_remove, Option.isSome_map]
    exact hfs.working
  · obtain ⟨d, hd, -, hsub⟩ := directory_before_remove hd'
    rw [hlength]
    exact (hfs.formed hd).sublist hsub
  · obtain ⟨d, hd, -, hsub⟩ := directory_before_remove hd'
    obtain ⟨hlow, hrise⟩ := hrank j d hd
    rw [hlength]
    exact ⟨hlow, fun e he => hrise e (hsub.subset he)⟩

/-- Names lead to a directory that stands after something has been taken away as they did before. -/
theorem descend_remove (hfs : fs.WellFormed) {dir i j start : Nat} {name : EntryName} {names : List EntryName}
    (hentry : fs.lookup dir name = some i) (hdescend : fs.descend start names = some j)
    (hstands : ((fs.discard i).unlink dir name).Stands j) :
    ((fs.discard i).unlink dir name).descend start names = some j := by
  have hwell := hfs.removes ⟨dir, name, i, hentry, rfl⟩
  -- Whatever leads to the directory has not been discarded, as the directory would have been discarded with it.
  have hkept : ∀ {k names}, fs.descend k names = some j → k ∉ fs.below fs.inodes.length i := by
    intro k names hdescend hmem
    obtain ⟨above, habove⟩ := (mem_discarded hfs).mp hmem
    have hj : j ∈ fs.below fs.inodes.length i := by
      refine (mem_discarded hfs).mpr ⟨above ++ names, ?_⟩
      rw [descend_append, habove]
      exact hdescend
    obtain ⟨d', hd', hremoved⟩ := hstands
    obtain ⟨d, -, rfl, -⟩ := directory_before_remove hd'
    simp [remaining, hj] at hremoved
  induction names generalizing start with
  | nil => exact hdescend
  | cons segment names ih =>
    obtain ⟨k, hlookup, hrest⟩ := Option.bind_eq_some_iff.mp hdescend
    obtain ⟨d, hd, hmem⟩ := hfs.lookup_eq_some.mp hlookup
    have hstart := hkept hdescend
    have hother : start = dir → segment ≠ name := by
      rintro rfl rfl
      obtain rfl : i = k := Option.some.inj (hentry.symm.trans hlookup)
      exact hkept hrest ((mem_discarded hfs).mpr ⟨[], rfl⟩)
    have hstill : (segment, k) ∈ (remaining (fs.below fs.inodes.length i) dir name start d).entries := by
      by_cases hdir : start = dir
      · have hsegment := hother hdir
        simp [remaining, hdir ▸ hstart, hdir, hmem, hsegment]
      · simp [remaining, hstart, hdir, hmem]
    rw [descend_cons, hwell.lookup_eq_some.mpr ⟨_, by rw [directory_remove, hd]; rfl, hstill⟩]
    exact ih hrest

/-- A file system ages when an entry is taken away and what it led to is discarded. -/
theorem Ages.removes (hfs : fs.WellFormed) (h : fs.Removes fs') : fs.Ages fs' := by
  have hwell := hfs.removes h
  obtain ⟨dir, name, i, hentry, rfl⟩ := h
  refine ⟨hwell, by simp [unlink], fun {j d} hd => ?_, fun hd' e he _ => ?_, fun _ hdescend hstands => ?_⟩
  · refine ⟨remaining _ _ _ j d, by rw [directory_remove, hd]; rfl, rfl, fun hremoved => ?_⟩
    simp [remaining, hremoved]
  · obtain ⟨d, hd, -, hsub⟩ := directory_before_remove hd'
    exact ⟨d, hd, hsub.subset he⟩
  · exact descend_remove hfs hentry hdescend hstands

/-! ## Operations that rename nothing -/

namespace Ages

variable {p : Path} {i : Nat}

theorem setContent (hfs : fs.WellFormed) (i : Nat) (bytes : List UInt8) : fs.Ages (fs.setContent i bytes) := by
  refine of_directory hfs ?_ (directory_setContent fs i bytes) ?_
  · unfold FileSystem.setContent
    split
    · exact List.length_set
    · rfl
  · rw [(extends_setContent fs i bytes).working]
    exact hfs.working

theorem append (hfs : fs.WellFormed) (i : Nat) (bytes : List UInt8) : fs.Ages (fs.append i bytes) := by
  unfold FileSystem.append
  split
  · exact setContent hfs i _
  · exact refl hfs

theorem openToWrite (hfs : fs.WellFormed) (h : fs.openToWrite p = .ok (fs', i)) : fs.Ages fs' := by
  obtain ⟨dir, name, htarget, ⟨rfl, -⟩ | ⟨hnone, hcreate⟩⟩ := openToWrite_cases h
  · exact refl hfs
  · exact create hfs hcreate (isName_of_target htarget) hnone nofun

theorem write {bytes : List UInt8} (hfs : fs.WellFormed) (h : fs.write p bytes = .ok fs') : fs.Ages fs' := by
  obtain ⟨⟨opened, i⟩, hopen, h⟩ := bind_eq_ok.mp h
  obtain rfl : opened.setContent i bytes = fs' := pure_eq_ok.mp h
  have hopened := openToWrite hfs hopen
  exact hopened.trans (setContent hopened.wellFormed i bytes)

theorem makeDirectory (hfs : fs.WellFormed) (h : fs.makeDirectory p = .ok fs') : fs.Ages fs' := by
  obtain ⟨dir, name, slash, i, htarget, hnone, hmade⟩ := makeDirectory_eq_ok h
  refine create hfs hmade (isName_of_target htarget) hnone fun d hd => ?_
  rw [← Inode.directory.inj hd]

theorem makeDirectories (hfs : fs.WellFormed) (p : Path) : fs.Ages (fs.makeDirectories p).1 :=
  makeDirectoriesUpTo_induction (r := fun fs fs' => fs.WellFormed → fs.Ages fs') (fun _ => refl)
    (fun h h' hfs => (h hfs).trans (h' (h hfs).wellFormed)) (fun h hfs => makeDirectory hfs h) _ fs p hfs

theorem enter (hfs : fs.WellFormed) (h : fs.enter p = .ok fs') : fs.Ages fs' := by
  obtain ⟨i, -, hdirectory, rfl⟩ := enter_eq_ok.mp h
  exact of_directory hfs rfl (fun _ => rfl) hdirectory

end Ages

end FileSystem

end ClusterConfig
