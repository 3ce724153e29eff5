import Mathlib.Data.List.DropRight
import ClusterConfig.FileSystem.File
import ClusterConfig.Proofs.Outcome
import ClusterConfig.Proofs.Text

/-!
# Reading what was written

A write creates a file or replaces its content, and paths lead through the directories as before. So a file that a write leaves
at its path holds what was written. Anything else that can be read holds nothing.
-/

namespace ClusterConfig

namespace FileSystem

/-! ## File systems that lead further -/

/-- Every step of a path that can be taken in the first file system leads to the same in the second. -/
structure Extends (fs fs' : FileSystem) : Prop where
  working : fs'.working = fs.working
  step : ∀ i name j, fs.step i name = .ok j → fs'.step i name = .ok j

theorem Extends.walk {fs fs' : FileSystem} (h : fs.Extends fs') {i j : Nat} {names : List EntryName}
    (hw : fs.walk i names = .ok j) : fs'.walk i names = .ok j := by
  induction names generalizing i with
  | nil => exact hw
  | cons name names ih =>
    obtain ⟨k, hk, hw⟩ := bind_eq_ok.mp hw
    exact bind_eq_ok.mpr ⟨k, h.step i name k hk, ih hw⟩

theorem Extends.start {fs fs' : FileSystem} (h : fs.Extends fs') (p : Path) : fs'.start p = fs.start p := by
  rw [FileSystem.start, FileSystem.start, h.working]

theorem Extends.find {fs fs' : FileSystem} (h : fs.Extends fs') {p : Path} {i : Nat} (hfind : fs.find p = .ok i) :
    fs'.find p = .ok i := by
  obtain ⟨⟨⟩, hcheck, hwalk⟩ := bind_eq_ok.mp hfind
  refine bind_eq_ok.mpr ⟨(), hcheck, ?_⟩
  rw [h.start]
  exact h.walk hwalk

theorem Extends.refl (fs : FileSystem) : fs.Extends fs := ⟨rfl, fun _ _ _ h => h⟩

theorem Extends.trans {fs fs' fs'' : FileSystem} (h : fs.Extends fs') (h' : fs'.Extends fs'') : fs.Extends fs'' :=
  ⟨h'.working.trans h.working, fun i name j hstep => h'.step i name j (h.step i name j hstep)⟩

/-- Steps are taken in directories, so the same directories lead to the same. -/
theorem extends_of_directory {fs fs' : FileSystem} (hw : fs'.working = fs.working)
    (hd : ∀ i, fs'.directory? i = fs.directory? i) : fs.Extends fs' := by
  refine ⟨hw, fun i name j h => ?_⟩
  simp only [step, hd] at h ⊢
  exact h

/-- Replacing the content of a file changes no directory. -/
theorem directory_setContent (fs : FileSystem) (i : Nat) (bytes : List UInt8) (j : Nat) :
    (fs.setContent i bytes).directory? j = fs.directory? j := by
  unfold setContent
  split
  · rename_i content hi
    by_cases hij : i = j
    · subst hij
      simp [directory?, set, hi, List.getElem?_set]
    · simp [directory?, set, List.getElem?_set_ne hij]
  · rfl

theorem extends_setContent (fs : FileSystem) (i : Nat) (bytes : List UInt8) : fs.Extends (fs.setContent i bytes) := by
  refine extends_of_directory ?_ (directory_setContent fs i bytes)
  unfold setContent
  split <;> rfl

/-! ## A new file -/

theorem directory_eq_some {fs : FileSystem} {i : Nat} {d : Directory} :
    fs.directory? i = some d ↔ fs.inodes[i]? = some (.directory d) := by
  unfold directory?
  split
  · rename_i d' hd
    rw [hd, Option.some.injEq, Option.some.injEq, Inode.directory.injEq]
  · rename_i hno
    exact ⟨nofun, fun h => absurd h (hno d)⟩

/-- What is created gets the next number, and its directory an entry. -/
theorem inodes_create {fs fs' : FileSystem} {dir i : Nat} {name : EntryName} {inode : Inode}
    (h : fs.create dir name inode = .ok (fs', i)) :
    i = fs.inodes.length ∧ fs'.working = fs.working ∧ ∃ d, fs.directory? dir = some d ∧
      fs'.inodes = (fs.inodes ++ [inode]).set dir (.directory { d with entries := d.entries ++ [(name, i)] }) := by
  unfold create at h
  split at h
  · nomatch h
  · rename_i d hd
    split at h
    · nomatch h
    · cases h
      have hlt : dir < fs.inodes.length := (List.getElem?_eq_some_iff.mp (directory_eq_some.mp hd)).1
      have hd' : ({ fs with inodes := fs.inodes ++ [inode] } : FileSystem).directory? dir = some d := by
        rw [directory_eq_some, List.getElem?_append_left hlt]
        exact directory_eq_some.mp hd
      rw [link, modifyDirectory, hd']
      exact ⟨rfl, rfl, d, hd, rfl⟩

/-- Creating something in a directory puts its name there, and changes no other directory. -/
theorem create_eq_ok {fs fs' : FileSystem} {dir i : Nat} {name : EntryName} {inode : Inode}
    (h : fs.create dir name inode = .ok (fs', i)) :
    fs'.working = fs.working ∧ fs'.inodes[i]? = some inode ∧
      ∃ d, fs.directory? dir = some d ∧ fs'.directory? dir = some { d with entries := d.entries ++ [(name, i)] } ∧
        ∀ j d', j ≠ dir → fs.directory? j = some d' → fs'.directory? j = some d' := by
  obtain ⟨rfl, hworking, d, hd, hinodes⟩ := inodes_create h
  have hlt : dir < fs.inodes.length := (List.getElem?_eq_some_iff.mp (directory_eq_some.mp hd)).1
  refine ⟨hworking, ?_, d, hd, ?_, ?_⟩
  · rw [hinodes, List.getElem?_set_ne (by omega), List.getElem?_concat_length]
  · rw [directory_eq_some, hinodes, List.getElem?_set_self (by simp; omega)]
  · intro j d' hj hd'
    rw [directory_eq_some] at hd' ⊢
    rw [hinodes, List.getElem?_set_ne (Ne.symm hj), List.getElem?_append_left (List.getElem?_eq_some_iff.mp hd').1, hd']

/-- A path leads through a directory that has got a new name as before. -/
theorem extends_create {fs fs' : FileSystem} {dir i : Nat} {name : EntryName} {inode : Inode}
    (h : fs.create dir name inode = .ok (fs', i)) : fs.Extends fs' := by
  obtain ⟨hworking, -, d, hd, hd', hother⟩ := create_eq_ok h
  refine ⟨hworking, fun k segment j hstep => ?_⟩
  by_cases hk : k = dir
  · subst hk
    simp only [step, hd, hd'] at hstep ⊢
    split
    · rwa [if_pos ‹_›] at hstep
    · rw [if_neg ‹_›] at hstep
      split
      · rwa [if_pos ‹_›] at hstep
      · rw [if_neg ‹_›] at hstep
        split
        · rw [if_pos ‹_›] at hstep
          nomatch hstep
        · rw [if_neg ‹_›] at hstep
          cases hlookup : d.entries.lookup segment with
          | none => simp [hlookup] at hstep
          | some child =>
            rw [List.lookup_append, hlookup]
            rwa [hlookup] at hstep
  · cases hdir : fs.directory? k with
    | none => simp [step, hdir] at hstep
    | some d' =>
      simp only [step, hdir] at hstep
      simp only [step, hother k d' hk hdir]
      exact hstep

/-! ## The end of a path -/

/-- A path that ends in the name of an entry, but for slashes, leads through the names before it to the directory. -/
theorem target_eq_entry {fs : FileSystem} {p : Path} {dir : Nat} {name : EntryName} {slash : Bool}
    (h : fs.target p = .ok (.entry dir name slash)) :
    checkPath p = .ok () ∧
      (∃ before, p.segments.rdropWhile List.isEmpty = before ++ [name] ∧ fs.walk (fs.start p) before = .ok dir) ∧
      Path.significant name = true ∧ name ≠ Path.dotDot ∧ name.length ≤ maxNameLength ∧
      (slash = false → p.segments.rdropWhile List.isEmpty = p.segments) := by
  obtain ⟨⟨⟩, hcheck, h⟩ := bind_eq_ok.mp h
  have hnamed : (p.segments.reverse.dropWhile List.isEmpty).reverse = p.segments.rdropWhile List.isEmpty := rfl
  simp only [hnamed] at h
  cases hlast : (p.segments.rdropWhile List.isEmpty).getLast? with
  | none => simp [hlast, pure_eq_ok] at h
  | some last =>
    simp only [hlast] at h
    split at h
    · obtain ⟨j, -, h⟩ := bind_eq_ok.mp h
      nomatch h
    · rename_i hdots
      obtain ⟨j, hwalk, h⟩ := bind_eq_ok.mp h
      split at h
      · nomatch h
      · split at h
        · nomatch h
        · rename_i hlength
          simp only [pure_eq_ok, Target.entry.injEq] at h
          obtain ⟨rfl, rfl, hslash⟩ := h
          have hsplit := List.dropLast_append_getLast? last hlast
          have hne : p.segments.rdropWhile List.isEmpty ≠ [] := by
            intro hnil
            simp [hnil] at hlast
          have hnonempty := List.rdropWhile_last_not List.isEmpty p.segments hne
          rw [List.getLast?_eq_some_getLast hne, Option.some.injEq] at hlast
          rw [hlast] at hnonempty
          rw [not_or] at hdots
          refine ⟨hcheck, ⟨_, hsplit.symm, hwalk⟩, ?_, hdots.2, by omega, fun hfalse => ?_⟩
          · simp [Path.significant, hnonempty, hdots.1]
          · rw [hfalse, decide_eq_false_iff_not, Nat.not_lt] at hslash
            exact (List.rdropWhile_prefix List.isEmpty p.segments).eq_of_length_le hslash

/-- A path that ends in the name of an entry leads where a step by that name leads from the directory. -/
theorem target_entry {fs : FileSystem} {p : Path} {dir : Nat} {name : EntryName}
    (h : fs.target p = .ok (.entry dir name false)) :
    checkPath p = .ok () ∧ (∃ before, p.segments = before ++ [name] ∧ fs.walk (fs.start p) before = .ok dir) ∧
      Path.significant name = true ∧ name ≠ Path.dotDot ∧ name.length ≤ maxNameLength := by
  obtain ⟨hcheck, ⟨before, hsplit, hwalk⟩, hs, hdots, hl, hslash⟩ := target_eq_entry h
  exact ⟨hcheck, ⟨before, (hslash rfl).symm.trans hsplit, hwalk⟩, hs, hdots, hl⟩

/-- From a directory the name of an entry leads to the entry. -/
theorem step_of_lookup {fs : FileSystem} {dir i : Nat} {name : EntryName} (h : fs.lookup dir name = some i)
    (hs : Path.significant name = true) (hdots : name ≠ Path.dotDot) (hl : name.length ≤ maxNameLength) :
    fs.step dir name = .ok i := by
  obtain ⟨d, hd, hi⟩ := Option.bind_eq_some_iff.mp h
  have hlength : ¬maxNameLength < name.length := by omega
  simp [step, hd, hs, hdots, hlength, hi]

/-- A step by the name of an entry is taken in a directory that has the entry. -/
theorem lookup_of_step {fs : FileSystem} {dir i : Nat} {name : EntryName} (h : fs.step dir name = .ok i)
    (hs : Path.significant name = true) (hdots : name ≠ Path.dotDot) :
    ∃ d, fs.directory? dir = some d ∧ d.entries.lookup name = some i := by
  unfold step at h
  split at h
  · nomatch h
  · rename_i d hd
    simp only [hs, Bool.not_true, Bool.false_eq_true, if_false, if_neg hdots] at h
    split at h
    · nomatch h
    · split at h
      · rename_i child hchild
        exact ⟨d, hd, by rw [hchild, Except.ok.inj h]⟩
      · nomatch h

/-- Names that lead to a directory, and the name of an entry after them, are a path that ends in the entry. -/
theorem target_of_segments {fs : FileSystem} {p : Path} {before : List EntryName} {dir : Nat} {name : EntryName} {d : Directory}
    (hcheck : checkPath p = .ok ()) (hsegments : p.segments = before ++ [name]) (hwalk : fs.walk (fs.start p) before = .ok dir)
    (hd : fs.directory? dir = some d) (hs : Path.significant name = true) (hdots : name ≠ Path.dotDot)
    (hl : name.length ≤ maxNameLength) : fs.target p = .ok (.entry dir name false) := by
  have hempty : ¬name.isEmpty = true := by
    intro h
    simp [Path.significant, h] at hs
  have hdot : ¬(name = Path.dot ∨ name = Path.dotDot) := by
    rintro (h | h)
    · simp [Path.significant, h] at hs
    · exact hdots h
  have hnamed : ((before ++ [name]).reverse.dropWhile List.isEmpty).reverse = before ++ [name] :=
    List.rdropWhile_concat_neg _ _ _ hempty
  have hlength : ¬maxNameLength < name.length := by omega
  refine bind_eq_ok.mpr ⟨(), hcheck, ?_⟩
  simp only [hsegments, hnamed, List.getLast?_concat, if_neg hdot, List.dropLast_concat, Nat.lt_irrefl, decide_false]
  refine bind_eq_ok.mpr ⟨dir, hwalk, ?_⟩
  simp [hd, hlength, pure, Except.pure]

theorem walk_append_eq_ok {fs : FileSystem} {i k : Nat} {names more : List EntryName} :
    fs.walk i (names ++ more) = .ok k ↔ ∃ j, fs.walk i names = .ok j ∧ fs.walk j more = .ok k := by
  rw [walk, List.foldlM_append]
  exact bind_eq_ok

/-- Empty segments stay in a directory. -/
theorem walk_of_isEmpty {fs : FileSystem} {i : Nat} (hd : (fs.directory? i).isSome = true) {names : List EntryName}
    (h : ∀ name ∈ names, name.isEmpty = true) : fs.walk i names = .ok i := by
  obtain ⟨d, hd⟩ := Option.isSome_iff_exists.mp hd
  induction names with
  | nil => rfl
  | cons name names ih =>
    have hempty : Path.significant name = false := by simp [Path.significant, h name List.mem_cons_self]
    have hstep : fs.step i name = .ok i := by simp [step, hd, hempty]
    exact bind_eq_ok.mpr ⟨i, hstep, ih fun n hn => h n (List.mem_cons_of_mem _ hn)⟩

/-- Once its last name has got an entry, a path leads there, as the directories above it are as before. With a slash at its end it
leads to a directory only. -/
theorem find_of_lookup {fs fs' : FileSystem} {p : Path} {dir i : Nat} {name : EntryName} {slash : Bool}
    (htarget : fs.target p = .ok (.entry dir name slash)) (hext : fs.Extends fs') (hlookup : fs'.lookup dir name = some i)
    (hslash : slash = false ∨ (fs'.directory? i).isSome = true) : fs'.find p = .ok i := by
  obtain ⟨hcheck, ⟨before, hsplit, hwalk⟩, hs, hdots, hl, hfalse⟩ := target_eq_entry htarget
  have hsegments : p.segments.rdropWhile List.isEmpty ++ p.segments.rtakeWhile List.isEmpty = p.segments :=
    List.rdropWhile_append_rtakeWhile
  have hbefore : fs'.walk (fs'.start p) before = .ok dir := by
    rw [hext.start]
    exact hext.walk hwalk
  have hname : fs'.walk dir [name] = .ok i := bind_eq_ok.mpr ⟨i, step_of_lookup hlookup hs hdots hl, rfl⟩
  have hrest : fs'.walk i (p.segments.rtakeWhile List.isEmpty) = .ok i := by
    rcases hslash with hslash | hdirectory
    · rw [hfalse hslash, List.append_right_eq_self] at hsegments
      rw [hsegments]
      rfl
    · exact walk_of_isEmpty hdirectory fun segment hmem => List.mem_rtakeWhile_imp hmem
  refine bind_eq_ok.mpr ⟨(), hcheck, ?_⟩
  rw [← hsegments, hsplit]
  exact walk_append_eq_ok.mpr ⟨i, walk_append_eq_ok.mpr ⟨dir, hbefore, hname⟩, hrest⟩

/-- The new name leads to what has been created. -/
theorem lookup_create {fs fs' : FileSystem} {dir i : Nat} {name : EntryName} {inode : Inode}
    (h : fs.create dir name inode = .ok (fs', i)) (hnone : fs.lookup dir name = none) : fs'.lookup dir name = some i := by
  obtain ⟨-, -, d, hd, hd', -⟩ := create_eq_ok h
  have hentry : d.entries.lookup name = none := by simpa [lookup, hd] using hnone
  simp [lookup, hd', List.lookup_append, hentry]

/-- A file that is opened has the last name of the path, or it is created under this name. -/
theorem openToWrite_cases {fs fs' : FileSystem} {p : Path} {i : Nat} (h : fs.openToWrite p = .ok (fs', i)) :
    ∃ dir name, fs.target p = .ok (.entry dir name false) ∧
      ((fs' = fs ∧ fs.lookup dir name = some i) ∨
        (fs.lookup dir name = none ∧ fs.create dir name (.file []) = .ok (fs', i))) := by
  obtain ⟨target, htarget, h⟩ := bind_eq_ok.mp h
  cases target with
  | directory j => nomatch h
  | entry dir name slash =>
    cases slash with
    | true => nomatch h
    | false =>
      refine ⟨dir, name, htarget, ?_⟩
      simp only [Bool.false_eq_true, if_false] at h
      cases hlookup : fs.lookup dir name with
      | some j =>
        simp only [hlookup] at h
        split at h
        · nomatch h
        · cases h
          exact .inl ⟨rfl, rfl⟩
      | none =>
        simp only [hlookup] at h
        exact .inr ⟨rfl, h⟩

/-- A file that is opened at a path is what the path leads to afterwards. -/
theorem find_of_openToWrite {fs fs' : FileSystem} {p : Path} {i : Nat} (h : fs.openToWrite p = .ok (fs', i)) :
    fs'.find p = .ok i := by
  obtain ⟨dir, name, htarget, ⟨rfl, hlookup⟩ | ⟨hnone, hcreate⟩⟩ := openToWrite_cases h
  · exact find_of_lookup htarget (.refl _) hlookup (.inl rfl)
  · exact find_of_lookup htarget (extends_create hcreate) (lookup_create hcreate hnone) (.inl rfl)

/-! ## Reading -/

theorem isFile_of_find {fs : FileSystem} {p : Path} {i : Nat} (h : fs.find p = .ok i) :
    fs.isFile p = (fs.content? i).isSome := by
  rw [isFile, h]
  rfl

/-- What has content after its content was replaced is a file with the new content. -/
theorem inodes_setContent {fs : FileSystem} {i : Nat} {bytes : List UInt8}
    (h : ((fs.setContent i bytes).content? i).isSome = true) :
    (fs.setContent i bytes).inodes[i]? = some (.file bytes) := by
  unfold setContent at h ⊢
  split
  · rename_i old hi
    simp [set, (List.getElem?_eq_some_iff.mp hi).1]
  · rename_i hno
    simp [content?] at h

/-- A file that a write leaves at its path holds what was written. -/
theorem read_of_write {fs fs' : FileSystem} {p : Path} {bytes : List UInt8} (h : fs.write p bytes = .ok fs')
    (hf : fs'.isFile p = true) : fs'.read p = .ok bytes := by
  obtain ⟨⟨opened, i⟩, hopen, h⟩ := bind_eq_ok.mp h
  obtain rfl : opened.setContent i bytes = fs' := pure_eq_ok.mp h
  have hfind := (extends_setContent opened i bytes).find (find_of_openToWrite hopen)
  rw [isFile_of_find hfind] at hf
  refine bind_eq_ok.mpr ⟨i, hfind, ?_⟩
  rw [inodes_setContent hf]
  rfl

/-- What is no file but can be read has no content. -/
theorem read_of_not_isFile {fs : FileSystem} {p : Path} {bytes : List UInt8} (h : fs.read p = .ok bytes)
    (hf : fs.isFile p = false) : bytes = [] := by
  obtain ⟨i, hfind, h⟩ := bind_eq_ok.mp h
  split at h
  · rename_i content hi
    simp [isFile_of_find hfind, content?, hi] at hf
  · nomatch h
  · exact (pure_eq_ok.mp h).symm

/-- The text that is read at a path is written there. -/
theorem readText_eq_ok {fs : FileSystem} {p : Path} {text : String} :
    fs.readText p = .ok text ↔ fs.read p = .ok (Text.Utf8.encode text) := by
  unfold readText
  rw [bind_eq_ok]
  constructor
  · rintro ⟨bytes, hread, h⟩
    split at h
    · rename_i s hs
      obtain rfl : s = text := pure_eq_ok.mp h
      rw [hread, Text.Utf8.decode_eq_some.mp hs]
    · nomatch h
  · intro hread
    refine ⟨_, hread, ?_⟩
    rw [Text.Utf8.decode_eq_some.mpr rfl]
    rfl

/-- A file system with one file, which is named `c` and holds the text. -/
def holding (text : String) : FileSystem :=
  ⟨[.directory ⟨root, [([99], 1)], false⟩, .file (Text.Utf8.encode text)], root⟩

theorem write_holding (old text : String) :
    (holding old).write ⟨[99]⟩ (Text.Utf8.encode text) = .ok (holding text) := by rfl

theorem readText_holding (text : String) : (holding text).readText ⟨[99]⟩ = .ok text :=
  readText_eq_ok.mpr rfl

end FileSystem

end ClusterConfig
