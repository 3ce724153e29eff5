import ClusterConfig.FileSystem.Tree
import ClusterConfig.Proofs.Files

/-!
# What operations do to the contents of files

Moving, removing and making directories changes no content, also not of a file that has lost its name. Only a write changes one:
that of the file it opens.
-/

namespace ClusterConfig

namespace FileSystem

theorem content_eq_some {fs : FileSystem} {i : Nat} {content : List UInt8} :
    fs.content? i = some content ↔ fs.inodes[i]? = some (.file content) := by
  unfold content?
  split
  · rename_i old hold
    rw [hold, Option.some.injEq, Option.some.injEq, Inode.file.injEq]
  · rename_i hno
    exact ⟨nofun, fun h => absurd h (hno content)⟩

/-! ## Directories -/

@[simp]
theorem content_modifyDirectory (fs : FileSystem) (i : Nat) (f : Directory → Directory) (j : Nat) :
    (fs.modifyDirectory i f).content? j = fs.content? j := by
  unfold modifyDirectory
  split
  · rename_i d hd
    have hi := directory_eq_some.mp hd
    by_cases hij : i = j
    · subst hij
      simp [content?, set, hi, List.getElem?_set]
    · simp [content?, set, List.getElem?_set_ne hij]
  · rfl

@[simp]
theorem content_link (fs : FileSystem) (dir : Nat) (name : EntryName) (i j : Nat) :
    (fs.link dir name i).content? j = fs.content? j :=
  content_modifyDirectory fs dir _ j

@[simp]
theorem content_unlink (fs : FileSystem) (dir : Nat) (name : EntryName) (j : Nat) :
    (fs.unlink dir name).content? j = fs.content? j :=
  content_modifyDirectory fs dir _ j

@[simp]
theorem content_discard (fs : FileSystem) (i j : Nat) : (fs.discard i).content? j = fs.content? j := by
  unfold discard
  generalize fs.below fs.inodes.length i = numbers
  induction numbers generalizing fs with
  | nil => rfl
  | cons k rest ih => rw [List.foldl_cons, ih, content_modifyDirectory]

/-- Something new leaves the content of all that was there, and gets a number of its own. -/
theorem content_create {fs fs' : FileSystem} {dir i : Nat} {name : EntryName} {inode : Inode}
    (h : fs.create dir name inode = .ok (fs', i)) :
    fs.inodes[i]? = none ∧ ∀ j, j ≠ i → fs'.content? j = fs.content? j := by
  unfold create at h
  split at h
  · nomatch h
  · split at h
    · nomatch h
    · cases h
      refine ⟨by simp, fun j hj => ?_⟩
      have hget : (fs.inodes ++ [inode])[j]? = fs.inodes[j]? := by
        rcases Nat.lt_or_gt_of_ne hj with hlt | hgt
        · exact List.getElem?_append_left hlt
        · rw [List.getElem?_eq_none (by rw [List.length_append, List.length_singleton]; omega),
            List.getElem?_eq_none (by omega)]
      rw [content_link, content?, content?, hget]

/-! ## Writing -/

theorem content_setContent_ne (fs : FileSystem) {i j : Nat} (bytes : List UInt8) (h : j ≠ i) :
    (fs.setContent i bytes).content? j = fs.content? j := by
  unfold setContent
  split
  · simp [content?, set, List.getElem?_set_ne (Ne.symm h)]
  · rfl

theorem content_setContent_self {fs : FileSystem} {i : Nat} {old : List UInt8} (h : fs.content? i = some old)
    (bytes : List UInt8) : (fs.setContent i bytes).content? i = some bytes := by
  have hi := content_eq_some.mp h
  rw [content_eq_some, setContent, hi]
  exact List.getElem?_set_self (List.getElem?_eq_some_iff.mp hi).1

theorem content_append_self {fs : FileSystem} {i : Nat} {old : List UInt8} (h : fs.content? i = some old)
    (bytes : List UInt8) : (fs.append i bytes).content? i = some (old ++ bytes) := by
  rw [append, h]
  exact content_setContent_self h _

theorem content_append_ne (fs : FileSystem) {i j : Nat} (bytes : List UInt8) (h : j ≠ i) :
    (fs.append i bytes).content? j = fs.content? j := by
  unfold append
  split
  · exact content_setContent_ne fs _ h
  · rfl

theorem extends_append (fs : FileSystem) (i : Nat) (bytes : List UInt8) : fs.Extends (fs.append i bytes) := by
  unfold append
  split
  · exact extends_setContent fs i _
  · exact Extends.refl fs

/-! ## Opening -/

/-- The path leads nowhere where a directory has no entry under its last name. -/
theorem find_ne_of_target {fs : FileSystem} {p : Path} {dir : Nat} {name : EntryName} {d : Directory}
    (h : fs.target p = .ok (.entry dir name false)) (hd : fs.directory? dir = some d) (hnone : d.entries.lookup name = none)
    (j : Nat) : fs.find p ≠ .ok j := by
  intro hfind
  obtain ⟨-, ⟨before, hsegments, hwalk⟩, hs, hdots, hl⟩ := target_entry h
  obtain ⟨⟨⟩, -, hfind⟩ := bind_eq_ok.mp hfind
  rw [hsegments] at hfind
  obtain ⟨k, hk, hfind⟩ := walk_append_eq_ok.mp hfind
  obtain rfl : dir = k := Except.ok.inj (hwalk.symm.trans hk)
  obtain ⟨l, hstep, -⟩ := bind_eq_ok.mp hfind
  have hlength : ¬maxNameLength < name.length := by omega
  simp [step, hd, hs, hdots, hlength, hnone] at hstep

/-- A file that is opened is one the path leads to, or it is new and has no content yet. -/
theorem openToWrite_eq_ok {fs fs' : FileSystem} {p : Path} {i : Nat} (h : fs.openToWrite p = .ok (fs', i)) :
    (fs' = fs ∧ fs.find p = .ok i) ∨
      (fs.inodes[i]? = none ∧ (∀ j, fs.find p ≠ .ok j) ∧ fs'.content? i = some [] ∧
        (∀ j, j ≠ i → fs'.content? j = fs.content? j) ∧ fs.Extends fs') := by
  obtain ⟨dir, name, htarget, ⟨rfl, -⟩ | ⟨hlookup, hcreate⟩⟩ := openToWrite_cases h
  · exact .inl ⟨rfl, find_of_openToWrite h⟩
  · obtain ⟨hnew, hsame⟩ := content_create hcreate
    obtain ⟨-, hfile, d, hd, -, -⟩ := create_eq_ok hcreate
    have hnone : d.entries.lookup name = none := by simpa [lookup, hd] using hlookup
    exact .inr ⟨hnew, find_ne_of_target htarget hd hnone, content_eq_some.mpr hfile, hsame, extends_create hcreate⟩

/-- Where a file could be opened at a path once, a file that the path leads to is opened. -/
theorem openToWrite_of_find {fs fs' : FileSystem} {p : Path} {r : FileSystem × Nat} (hopen : fs'.openToWrite p = .ok r) {i : Nat}
    (hfind : fs.find p = .ok i) (hfile : (fs.content? i).isSome = true) : fs.openToWrite p = .ok (fs, i) := by
  obtain ⟨_, name, htarget, -⟩ := openToWrite_cases hopen
  obtain ⟨hcheck, ⟨before, hsegments, -⟩, hs, hdots, hl⟩ := target_entry htarget
  obtain ⟨⟨⟩, -, hwalk⟩ := bind_eq_ok.mp hfind
  rw [hsegments] at hwalk
  obtain ⟨dir, hbefore, hlast⟩ := walk_append_eq_ok.mp hwalk
  obtain ⟨j, hstep, hj⟩ := bind_eq_ok.mp hlast
  obtain rfl := pure_eq_ok.mp hj
  obtain ⟨d, hd, hlookup⟩ := lookup_of_step hstep hs hdots
  have hnone : fs.directory? j = none := by
    obtain ⟨content, hcontent⟩ := Option.isSome_iff_exists.mp hfile
    rw [directory?, content_eq_some.mp hcontent]
  refine bind_eq_ok.mpr ⟨_, target_of_segments hcheck hsegments hbefore hd hs hdots hl, ?_⟩
  simp [lookup, hd, hlookup, hnone, pure, Except.pure]

theorem extends_openToWrite {fs fs' : FileSystem} {p : Path} {i : Nat} (h : fs.openToWrite p = .ok (fs', i)) :
    fs.Extends fs' := by
  rcases openToWrite_eq_ok h with ⟨rfl, -⟩ | ⟨-, -, -, -, hext⟩
  · exact Extends.refl fs'
  · exact hext

theorem extends_write {fs fs' : FileSystem} {p : Path} {bytes : List UInt8} (h : fs.write p bytes = .ok fs') :
    fs.Extends fs' := by
  obtain ⟨⟨opened, i⟩, hopen, h⟩ := bind_eq_ok.mp h
  obtain rfl : opened.setContent i bytes = fs' := pure_eq_ok.mp h
  exact (extends_openToWrite hopen).trans (extends_setContent opened i bytes)

/-! ## Making directories -/

/-- A new directory is something new in a directory. -/
theorem makeDirectory_eq_ok {fs fs' : FileSystem} {p : Path} (h : fs.makeDirectory p = .ok fs') :
    ∃ dir name slash i, fs.target p = .ok (.entry dir name slash) ∧ fs.lookup dir name = none ∧
      fs.create dir name (.directory ⟨dir, [], false⟩) = .ok (fs', i) := by
  obtain ⟨target, htarget, h⟩ := bind_eq_ok.mp h
  cases target with
  | directory => nomatch h
  | entry dir name slash =>
    dsimp only at h
    split at h
    · nomatch h
    · rename_i hnone
      obtain ⟨⟨made, i⟩, hmade, h⟩ := bind_eq_ok.mp h
      obtain rfl : made = fs' := pure_eq_ok.mp h
      exact ⟨dir, name, slash, i, htarget, by simpa using hnone, hmade⟩

/-- Making a directory with what is missing above it is making directories one after the other, for the path and for paths above
it. -/
theorem makeDirectoriesUpTo_above_induction {r : Path → FileSystem → FileSystem → Prop} (refl : ∀ p fs, r p fs fs)
    (trans : ∀ {p fs fs' fs''}, r p fs fs' → r p fs' fs'' → r p fs fs'')
    (make : ∀ {p fs fs'}, fs.makeDirectory p = .ok fs' → r p fs fs')
    (above : ∀ {p q fs fs'}, p.parent? = some q → r q fs fs' → r p fs fs') (fuel : Nat) (fs : FileSystem) (p : Path) :
    r p fs (fs.makeDirectoriesUpTo fuel p).1 := by
  induction fuel generalizing fs p with
  | zero => exact refl p fs
  | succ fuel ih =>
    rw [makeDirectoriesUpTo]
    split
    · exact refl p fs
    · split
      · rename_i made hmade
        exact make hmade
      · split
        · exact refl p fs
        · rename_i q hparent
          have habove := above hparent (ih fs q)
          split
          · rename_i made fault hmade
            rw [hmade] at habove
            exact habove
          · rename_i made hmade
            rw [hmade] at habove
            split
            · rename_i hlast
              exact trans habove (make hlast)
            · exact habove
      · exact refl p fs

theorem makeDirectoriesUpTo_induction {r : FileSystem → FileSystem → Prop} (refl : ∀ fs, r fs fs)
    (trans : ∀ {fs fs' fs''}, r fs fs' → r fs' fs'' → r fs fs'')
    (make : ∀ {fs fs' p}, fs.makeDirectory p = .ok fs' → r fs fs') (fuel : Nat) (fs : FileSystem) (p : Path) :
    r fs (fs.makeDirectoriesUpTo fuel p).1 :=
  makeDirectoriesUpTo_above_induction (r := fun _ => r) (fun _ => refl) trans make (fun _ h => h) fuel fs p

theorem extends_makeDirectory {fs fs' : FileSystem} {p : Path} (h : fs.makeDirectory p = .ok fs') : fs.Extends fs' := by
  obtain ⟨dir, name, slash, i, -, -, hmade⟩ := makeDirectory_eq_ok h
  exact extends_create hmade

theorem extends_makeDirectories (fs : FileSystem) (p : Path) : fs.Extends (fs.makeDirectories p).1 :=
  makeDirectoriesUpTo_induction Extends.refl Extends.trans extends_makeDirectory _ fs p

/-! ## Removing -/

/-- An entry is taken out of a directory, and what it led to is discarded. -/
def Removes (fs fs' : FileSystem) : Prop :=
  ∃ dir name i, fs.lookup dir name = some i ∧ (fs.discard i).unlink dir name = fs'

/-- What is no directory has nothing below it that could be discarded. -/
theorem discard_of_not_directory {fs : FileSystem} {i : Nat} (h : fs.directory? i = none) : fs.discard i = fs := by
  have hbelow : fs.below fs.inodes.length i = [i] := by
    cases fs.inodes.length with
    | zero => rfl
    | succ n => rw [below, h]
  rw [discard, hbelow, List.foldl_cons, List.foldl_nil, modifyDirectory, h]

theorem removes_of_removeFile {fs fs' : FileSystem} {p : Path} (h : fs.removeFile p = .ok fs') : fs.Removes fs' := by
  obtain ⟨target, -, h⟩ := bind_eq_ok.mp h
  cases target with
  | directory => nomatch h
  | entry dir name slash =>
    dsimp only at h
    split at h
    · nomatch h
    · rename_i i hentry
      split at h
      · nomatch h
      · rename_i hfile
        split at h
        · nomatch h
        · have hdiscard := discard_of_not_directory (by simpa using hfile : fs.directory? i = none)
          exact ⟨dir, name, i, hentry, by rw [hdiscard]; exact pure_eq_ok.mp h⟩

theorem removes_of_removeTree {fs fs' : FileSystem} {p : Path} (h : fs.removeTree p = .ok fs') : fs.Removes fs' := by
  obtain ⟨target, -, h⟩ := bind_eq_ok.mp h
  cases target with
  | directory => nomatch h
  | entry dir name slash =>
    dsimp only at h
    split at h
    · nomatch h
    · rename_i i hentry
      split at h
      · nomatch h
      · exact ⟨dir, name, i, hentry, pure_eq_ok.mp h⟩

theorem removes_of_removeDirectory {fs fs' : FileSystem} {p : Path} (h : fs.removeDirectory p = .ok fs') : fs.Removes fs' := by
  obtain ⟨target, -, h⟩ := bind_eq_ok.mp h
  cases target with
  | directory => nomatch h
  | entry dir name slash =>
    dsimp only at h
    split at h
    · nomatch h
    · rename_i i hentry
      split at h
      · nomatch h
      · split at h
        · exact ⟨dir, name, i, hentry, pure_eq_ok.mp h⟩
        · nomatch h

/-! ## Operations that change no content -/

/-- Every file has the same content as before. -/
def SameContents (fs fs' : FileSystem) : Prop := ∀ i, fs'.content? i = fs.content? i

namespace SameContents

variable {fs fs' fs'' : FileSystem}

theorem refl (fs : FileSystem) : fs.SameContents fs := fun _ => rfl

theorem trans (h : fs.SameContents fs') (h' : fs'.SameContents fs'') : fs.SameContents fs'' :=
  fun i => (h' i).trans (h i)

theorem create_directory {dir i : Nat} {name : EntryName} {d : Directory}
    (h : fs.create dir name (.directory d) = .ok (fs', i)) : fs.SameContents fs' := by
  obtain ⟨hnew, hsame⟩ := content_create h
  obtain ⟨-, hmade, -⟩ := create_eq_ok h
  intro j
  by_cases hji : j = i
  · rw [hji, content?, content?, hnew, hmade]
  · exact hsame j hji

theorem rename {source destination : Path} (h : fs.rename source destination = .ok fs') : fs.SameContents fs' := by
  obtain ⟨old, -, h⟩ := bind_eq_ok.mp h
  obtain ⟨new, -, h⟩ := bind_eq_ok.mp h
  split at h
  case h_2 => nomatch h
  case h_1 dir name slash dir' name' slash' _ =>
    cases hi : fs.lookup dir name with
    | none => simp only [hi] at h; nomatch h
    | some i =>
      simp only [hi] at h
      split at h
      · nomatch h
      · split at h
        · nomatch h
        · split at h
          · obtain rfl := pure_eq_ok.mp h
            exact refl _
          · obtain ⟨⟨⟩, -, h⟩ := bind_eq_ok.mp h
            obtain rfl := pure_eq_ok.mp h
            intro j
            cases fs.lookup dir' name' <;> simp

theorem removes (h : fs.Removes fs') : fs.SameContents fs' := by
  obtain ⟨dir, name, i, -, rfl⟩ := h
  intro j
  rw [content_unlink, content_discard]

theorem makeDirectory {p : Path} (h : fs.makeDirectory p = .ok fs') : fs.SameContents fs' := by
  obtain ⟨dir, name, slash, i, -, -, hmade⟩ := makeDirectory_eq_ok h
  exact create_directory hmade

theorem makeDirectories (fs : FileSystem) (p : Path) : fs.SameContents (fs.makeDirectories p).1 :=
  makeDirectoriesUpTo_induction refl trans makeDirectory _ fs p

end SameContents

/-! ## Files stay files -/

/-- Whatever is a file is a file afterwards. -/
def KeepsFiles (fs fs' : FileSystem) : Prop := ∀ i, (fs.content? i).isSome = true → (fs'.content? i).isSome = true

theorem SameContents.keepsFiles {fs fs' : FileSystem} (h : fs.SameContents fs') : fs.KeepsFiles fs' := by
  intro i hi
  rwa [h i]

namespace KeepsFiles

variable {fs fs' : FileSystem}

theorem openToWrite {p : Path} {i : Nat} (h : fs.openToWrite p = .ok (fs', i)) : fs.KeepsFiles fs' := by
  rcases openToWrite_eq_ok h with ⟨rfl, -⟩ | ⟨-, -, hfile, hsame, -⟩
  · exact (SameContents.refl fs').keepsFiles
  · intro j hj
    by_cases hji : j = i
    · rw [hji, hfile]
      rfl
    · rwa [hsame j hji]

theorem setContent (fs : FileSystem) (i : Nat) (bytes : List UInt8) : fs.KeepsFiles (fs.setContent i bytes) := by
  intro j hj
  by_cases hji : j = i
  · subst hji
    obtain ⟨old, hold⟩ := Option.isSome_iff_exists.mp hj
    rw [content_setContent_self hold]
    rfl
  · rwa [content_setContent_ne fs bytes hji]

theorem write {p : Path} {bytes : List UInt8} (h : fs.write p bytes = .ok fs') : fs.KeepsFiles fs' := by
  obtain ⟨⟨opened, i⟩, hopen, h⟩ := bind_eq_ok.mp h
  obtain rfl : opened.setContent i bytes = fs' := pure_eq_ok.mp h
  exact fun j hj => setContent opened i bytes j (openToWrite hopen j hj)

end KeepsFiles

end FileSystem

end ClusterConfig
