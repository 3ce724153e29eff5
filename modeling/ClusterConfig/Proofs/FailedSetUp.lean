import ClusterConfig.Proofs.LogLimits
import ClusterConfig.Proofs.LogSetUp
import ClusterConfig.Proofs.Paths

/-!
# Tries to set up the log that fail

A try makes the directory of the log file and opens the file before it turns out that the log has been set up already, and what it
has made stays. So a try that fails may leave new directories above its log file and a new log file without content, but nothing
that was there is changed.
-/

namespace ClusterConfig

namespace Path

/-- The first path is the second one or above it. -/
inductive AtOrAbove : Path → Path → Prop where
  | self (p : Path) : AtOrAbove p p
  | parent {p q r : Path} : q.parent? = some r → AtOrAbove p r → AtOrAbove p q

/-- The first path is above the second one. -/
def Above (p q : Path) : Prop := ∃ r, q.parent? = some r ∧ p.AtOrAbove r

end Path

namespace FileSystem

variable {fs fs' fs'' : FileSystem} {directories files : Path → Prop}

/-! ## File systems with something new in them -/

/-- Nothing that was there has changed, except that directories have got entries for what is new. Something new is a directory or a
file without content, and one of the paths leads to it. -/
structure Adds (directories files : Path → Prop) (fs fs' : FileSystem) : Prop where
  leads : fs.Extends fs'
  kept : ∀ i inode, fs.inodes[i]? = some inode → fs.directory? i = none → fs'.inodes[i]? = some inode
  entries : ∀ i d, fs.directory? i = some d → ∃ added, fs'.directory? i = some { d with entries := d.entries ++ added } ∧
    ∀ e ∈ added, fs.inodes[e.2]? = none
  new : ∀ i inode, fs.inodes[i]? = none → fs'.inodes[i]? = some inode →
    (∃ p, directories p ∧ fs'.find p = .ok i ∧ ∃ d, inode = .directory d) ∨
      ∃ p, files p ∧ fs'.find p = .ok i ∧ inode = .file []

namespace Adds

theorem refl (fs : FileSystem) : Adds directories files fs fs where
  leads := .refl fs
  kept := fun _ _ h _ => h
  entries := fun _ d h => ⟨[], by rw [List.append_nil]; exact h, nofun⟩
  new := fun _ _ hnone hsome => nomatch hnone.symm.trans hsome

theorem mono {directories' files' : Path → Prop} (h : Adds directories files fs fs') (hd : ∀ p, directories p → directories' p)
    (hf : ∀ p, files p → files' p) : Adds directories' files' fs fs' where
  leads := h.leads
  kept := h.kept
  entries := h.entries
  new := by
    intro i inode hnone hsome
    rcases h.new i inode hnone hsome with ⟨p, hp, hnew⟩ | ⟨p, hp, hnew⟩
    · exact .inl ⟨p, hd p hp, hnew⟩
    · exact .inr ⟨p, hf p hp, hnew⟩

/-- A number that is free afterwards was free before. -/
theorem inodes_eq_none (h : Adds directories files fs fs') {i : Nat} (hnone : fs'.inodes[i]? = none) : fs.inodes[i]? = none := by
  cases hi : fs.inodes[i]? with
  | none => rfl
  | some inode =>
    cases hd : fs.directory? i with
    | none => exact absurd ((h.kept i inode hi hd).symm.trans hnone) nofun
    | some d =>
      obtain ⟨added, hadded, -⟩ := h.entries i d hd
      exact absurd ((directory_eq_some.mp hadded).symm.trans hnone) nofun

theorem trans (h : Adds directories files fs fs') (h' : Adds directories files fs' fs'') : Adds directories files fs fs'' where
  leads := h.leads.trans h'.leads
  kept := by
    intro i inode hi hd
    have hi' := h.kept i inode hi hd
    have hd' : fs'.directory? i = none := by
      rw [directory?, hi] at hd
      rw [directory?, hi']
      exact hd
    exact h'.kept i inode hi' hd'
  entries := by
    intro i d hd
    obtain ⟨added, hadded, hfresh⟩ := h.entries i d hd
    obtain ⟨more, hmore, hfresh'⟩ := h'.entries i _ hadded
    refine ⟨added ++ more, by rw [hmore, List.append_assoc], fun e he => ?_⟩
    rcases List.mem_append.mp he with he | he
    · exact hfresh e he
    · exact h.inodes_eq_none (hfresh' e he)
  new := by
    intro i inode hnone hsome
    cases hi : fs'.inodes[i]? with
    | none => exact h'.new i inode hi hsome
    | some inode' =>
      -- what the first step has made is only extended by the second one
      rcases h.new i inode' hnone hi with ⟨p, hp, hfind, d, rfl⟩ | ⟨p, hp, hfind, rfl⟩
      · obtain ⟨added, hadded, -⟩ := h'.entries i d (directory_eq_some.mpr hi)
        have hinode := Option.some.inj (hsome.symm.trans (directory_eq_some.mp hadded))
        exact .inl ⟨p, hp, h'.leads.find hfind, _, hinode⟩
      · have hkept := h'.kept i (.file []) hi (by rw [directory?, hi])
        exact .inr ⟨p, hp, h'.leads.find hfind, Option.some.inj (hsome.symm.trans hkept)⟩

/-- What is created is all that is new. -/
theorem create {dir i : Nat} {name : EntryName} {inode : Inode} (h : fs.create dir name inode = .ok (fs', i))
    (hnew : (∃ p, directories p ∧ fs'.find p = .ok i ∧ ∃ d, inode = .directory d) ∨
      ∃ p, files p ∧ fs'.find p = .ok i ∧ inode = .file []) : Adds directories files fs fs' := by
  obtain ⟨rfl, -, d, hd, hinodes⟩ := inodes_create h
  have hlt : dir < fs.inodes.length := (List.getElem?_eq_some_iff.mp (directory_eq_some.mp hd)).1
  have hold : ∀ j inode, j ≠ dir → fs.inodes[j]? = some inode → fs'.inodes[j]? = some inode := by
    intro j inode hj hinode
    rw [hinodes, List.getElem?_set_ne (Ne.symm hj), List.getElem?_append_left (List.getElem?_eq_some_iff.mp hinode).1, hinode]
  constructor
  case leads => exact extends_create h
  case kept =>
    intro j inode hinode hnone
    refine hold j inode ?_ hinode
    rintro rfl
    exact absurd (hd.symm.trans hnone) nofun
  case entries =>
    intro j d' hd'
    by_cases hj : j = dir
    · subst hj
      obtain rfl : d = d' := Option.some.inj (hd.symm.trans hd')
      refine ⟨[(name, fs.inodes.length)], ?_, ?_⟩
      · rw [directory_eq_some, hinodes, List.getElem?_set_self (by simp; omega)]
      · intro e he
        rw [List.mem_singleton.mp he]
        exact List.getElem?_eq_none (Nat.le_refl _)
    · refine ⟨[], ?_, nofun⟩
      rw [List.append_nil]
      exact directory_eq_some.mpr (hold j _ hj (directory_eq_some.mp hd'))
  case new =>
    intro j inode' hnone hsome
    have hle : fs.inodes.length ≤ j := List.getElem?_eq_none_iff.mp hnone
    rw [hinodes, List.getElem?_set_ne (by omega)] at hsome
    have hj : j < (fs.inodes ++ [inode]).length := (List.getElem?_eq_some_iff.mp hsome).1
    obtain rfl : j = fs.inodes.length := by
      rw [List.length_append, List.length_singleton] at hj
      omega
    rw [List.getElem?_concat_length] at hsome
    obtain rfl := Option.some.inj hsome
    exact hnew

/-- A directory that is made is new at its path. -/
theorem makeDirectory {p : Path} (h : fs.makeDirectory p = .ok fs') : Adds (· = p) files fs fs' := by
  obtain ⟨dir, name, slash, i, htarget, hnone, hcreate⟩ := makeDirectory_eq_ok h
  obtain ⟨-, hmade, -⟩ := create_eq_ok hcreate
  have hdirectory : (fs'.directory? i).isSome = true := by
    rw [directory_eq_some.mpr hmade]
    rfl
  have hfind := find_of_lookup htarget (extends_create hcreate) (lookup_create hcreate hnone) (.inr hdirectory)
  exact create hcreate (.inl ⟨p, rfl, hfind, _, rfl⟩)

/-- Making a directory with what is missing above it makes directories at the path and above it, also if that fails. -/
theorem makeDirectories (fs : FileSystem) (p : Path) : Adds (·.AtOrAbove p) files fs (fs.makeDirectories p).1 := by
  refine makeDirectoriesUpTo_above_induction (r := fun p fs fs' => Adds (·.AtOrAbove p) files fs fs') ?_ ?_ ?_ ?_ _ fs p
  · exact fun p fs => refl fs
  · exact fun h h' => h.trans h'
  · intro p fs fs' hmake
    refine (makeDirectory hmake).mono ?_ fun _ h => h
    rintro q rfl
    exact .self q
  · intro p q fs fs' hparent h
    exact h.mono (fun r hr => .parent hparent hr) fun _ h => h

/-- A file that is opened is there, or it is new at its path. -/
theorem openToWrite {p : Path} {i : Nat} (h : fs.openToWrite p = .ok (fs', i)) : Adds directories (· = p) fs fs' := by
  have hfind := find_of_openToWrite h
  obtain ⟨dir, name, -, ⟨rfl, -⟩ | ⟨-, hcreate⟩⟩ := openToWrite_cases h
  · exact refl fs'
  · exact create hcreate (.inr ⟨p, rfl, hfind, rfl⟩)

end Adds

end FileSystem

namespace Session

open FileSystem

/-! ## A try -/

theorem adds_makeLogDirectory (files : Path → Prop) (fs : FileSystem) (file : Path) :
    Adds (·.Above file) files fs (makeLogDirectory fs file).1 := by
  have hmade : ∀ above, file.parent? = some above → Adds (·.Above file) files fs (fs.makeDirectories above).1 := by
    intro above habove
    exact (Adds.makeDirectories fs above).mono (fun p hp => ⟨above, habove, hp⟩) fun _ h => h
  unfold makeLogDirectory
  cases habove : file.parent? with
  | none => exact .refl fs
  | some above =>
    dsimp only
    split
    · exact .refl fs
    · have h := hmade above habove
      split <;> simp_all

/-- Where the directory of the log file is there, none is made. -/
theorem makeLogDirectory_of_there {fs : FileSystem} {file : Path} (h : fs.WithLogDirectory file fs) :
    makeLogDirectory fs file = (fs, .ok ()) := by
  obtain ⟨fs', -, ⟨hready, hmade⟩ | ⟨hnone, -⟩⟩ := makeLogDirectory_cases fs file
  · rw [hmade, hready.unique h]
  · exact absurd h (hnone fs)

/-- A log file that is there has its directory. -/
theorem withLogDirectory_of_find {fs : FileSystem} {file : Path} {i : Nat} (h : fs.find file = .ok i) :
    fs.WithLogDirectory file fs := by
  cases habove : file.parent? with
  | none => exact .noParent habove
  | some above => exact .there habove (holds_of_find h habove)

/-- A log file that is opened is there afterwards, and nothing has changed if it was there before. -/
theorem adds_openLog {fs fs' : FileSystem} {file : Path} {w : WatchedFile} (h : openLog fs file = (fs', .ok w)) :
    Adds (·.Above file) (· = file) fs fs' ∧ (∃ i, fs'.find file = .ok i) ∧ ∀ i, fs.find file = .ok i → fs' = fs := by
  have hdirectory := adds_makeLogDirectory (· = file) fs file
  unfold openLog at h
  split at h
  · nomatch h
  · rename_i made hmade
    rw [hmade] at hdirectory
    split at h
    · rename_i opened w' hopenAt
      obtain ⟨rfl, -⟩ := Prod.mk.inj h
      obtain ⟨⟨opened', i⟩, hopen, hopened⟩ := bind_eq_ok.mp hopenAt
      obtain ⟨rfl, -⟩ := Prod.mk.inj (pure_eq_ok.mp hopened)
      refine ⟨hdirectory.trans (.openToWrite hopen), ⟨i, find_of_openToWrite hopen⟩, fun j hj => ?_⟩
      have hthere := makeLogDirectory_of_there (withLogDirectory_of_find hj)
      obtain rfl : fs = made := (Prod.mk.inj (hthere.symm.trans hmade)).1
      rcases openToWrite_eq_ok hopen with ⟨hsame, -⟩ | ⟨-, hnowhere, -⟩
      · exact hsame
      · exact absurd hj (hnowhere j)
    · nomatch h

/-- A log file that cannot be opened is not created, and nothing has changed if its directory was there before. -/
theorem adds_openLog_error {fs fs' : FileSystem} {file : Path} {e : LogError} (h : openLog fs file = (fs', .error e)) :
    e.IsUnusable file ∧ Adds (·.Above file) (fun _ => False) fs fs' ∧ (fs.WithLogDirectory file fs → fs' = fs) := by
  have hdirectory := adds_makeLogDirectory (fun _ => False) fs file
  have hopen : e.IsUnusable file ∧ fs' = (makeLogDirectory fs file).1 := by
    unfold openLog at h
    obtain ⟨made, -, ⟨-, hmade⟩ | ⟨-, e', he', hmade⟩⟩ := makeLogDirectory_cases fs file
    · rw [hmade] at h ⊢
      dsimp only at h
      split at h
      · nomatch h
      · obtain ⟨rfl, he⟩ := Prod.mk.inj h
        rw [← Except.error.inj he]
        exact ⟨.noFile _, rfl⟩
    · rw [hmade] at h ⊢
      obtain ⟨rfl, he⟩ := Prod.mk.inj h
      rw [← Except.error.inj he]
      exact ⟨he', rfl⟩
  obtain ⟨he, hmade⟩ := hopen
  rw [hmade]
  refine ⟨he, hdirectory, fun hthere => ?_⟩
  rw [makeLogDirectory_of_there hthere]

/-- What a try to set up the log that fails leaves behind. -/
structure FailsToSetUp (s : Session) (options : LogOptions) (s' : Session) (e : LogError) : Prop where
  error : (∃ setting, e = .unknownLevel setting) ∨ (∃ file, options.file = some file ∧ e.IsUnusable file) ∨ e = .alreadySet
  rest : s' = { s with files := s'.files }
  unknownLevel : ∀ setting, e = .unknownLevel setting → s' = s
  console : options.file = none → s' = s
  unusable : ∀ file, options.file = some file → e.IsUnusable file →
    Adds (·.Above file) (fun _ => False) s.files s'.files ∧ (s.files.WithLogDirectory file s.files → s' = s)
  alreadySet : ∀ file, options.file = some file → e = .alreadySet →
    Adds (·.Above file) (· = file) s.files s'.files ∧ (∃ i, s'.files.find file = .ok i) ∧
      (s' = s ↔ ∃ i, s.files.find file = .ok i)

/-- A try fails for a setting, for its log file, or after it has opened that. -/
theorem setUp_error_cases {s s' : Session} {options : LogOptions} {e : LogError} (h : s.setUp options = (s', .error e)) :
    (s' = s ∧ ∃ setting, e = .unknownLevel setting) ∨ (s' = s ∧ options.file = none ∧ e = .alreadySet) ∨
      ∃ file, options.file = some file ∧ (openLog s.files file = (s'.files, .error e) ∨
        e = .alreadySet ∧ ∃ w, openLog s.files file = (s'.files, .ok w)) := by
  unfold setUp at h
  rcases LogFilter.ofOptions_cases options with ⟨-, filter, hfilter⟩ | ⟨setting, -, hfilter⟩
  · rw [hfilter, openSink] at h
    cases hfile : options.file with
    | none =>
      rw [hfile] at h
      dsimp only at h
      split at h
      · obtain ⟨rfl, he⟩ := Prod.mk.inj h
        exact .inr (.inl ⟨rfl, rfl, (Except.error.inj he).symm⟩)
      · nomatch h
    | some file =>
      rw [hfile] at h
      dsimp only at h
      refine .inr (.inr ⟨file, rfl, ?_⟩)
      cases hlog : openLog s.files file with
      | mk opened result =>
        rw [hlog] at h
        cases result with
        | error e' =>
          obtain ⟨rfl, he⟩ := Prod.mk.inj h
          rw [Except.error.inj he]
          exact .inl rfl
        | ok w =>
          dsimp only at h
          split at h
          · obtain ⟨rfl, he⟩ := Prod.mk.inj h
            exact .inr ⟨(Except.error.inj he).symm, w, rfl⟩
          · nomatch h
  · rw [hfilter] at h
    obtain ⟨rfl, he⟩ := Prod.mk.inj h
    exact .inl ⟨rfl, setting, (Except.error.inj he).symm⟩

/-- A try to set up the log that fails leaves filter, sink and handlers as they are. It leaves the files as they are too where a setting
names no limit or there is no log file. Otherwise nothing that was there changes, but directories above the log file may be new, and
where the log has been set up already, the log file is there afterwards, new and empty if it was missing. -/
theorem setUp_failed {s s' : Session} {options : LogOptions} {e : LogError} (h : s.setUp options = (s', .error e)) :
    FailsToSetUp s options s' e := by
  have htry := setsUp s options
  rw [h] at htry
  have hrest : s' = { s with files := s'.files } := htry.failed e rfl
  have hsame : s'.files = s.files → s' = s := by
    intro hfiles
    rw [hrest, hfiles]
  rcases setUp_error_cases h with ⟨rfl, setting, rfl⟩ | ⟨rfl, hfile, rfl⟩ | ⟨file, hfile, hopen | ⟨rfl, w, hopen⟩⟩
  · exact
    { error := .inl ⟨setting, rfl⟩
      rest := rfl
      unknownLevel := fun _ _ => rfl
      console := fun _ => rfl
      unusable := fun _ _ he => nomatch he
      alreadySet := fun _ _ he => nomatch he }
  · exact
    { error := .inr (.inr rfl)
      rest := rfl
      unknownLevel := fun _ _ => rfl
      console := fun _ => rfl
      unusable := fun _ _ he => nomatch he
      alreadySet := fun _ hsome _ => nomatch hfile.symm.trans hsome }
  · obtain ⟨he, hadds, hthere⟩ := adds_openLog_error hopen
    exact
    { error := .inr (.inl ⟨file, hfile, he⟩)
      rest := hrest
      unknownLevel := by
        rintro setting rfl
        nomatch he
      console := fun hnone => nomatch hnone.symm.trans hfile
      unusable := by
        intro file' hfile' _
        obtain rfl := Option.some.inj (hfile.symm.trans hfile')
        exact ⟨hadds, fun hdirectory => hsame (hthere hdirectory)⟩
      alreadySet := by
        rintro _ _ rfl
        nomatch he }
  · obtain ⟨hadds, hfound, hunchanged⟩ := adds_openLog hopen
    exact
    { error := .inr (.inr rfl)
      rest := hrest
      unknownLevel := nofun
      console := fun hnone => nomatch hnone.symm.trans hfile
      unusable := fun _ _ he => nomatch he
      alreadySet := by
        intro file' hfile' _
        obtain rfl := Option.some.inj (hfile.symm.trans hfile')
        refine ⟨hadds, hfound, ?_, fun ⟨i, hi⟩ => hsame (hunchanged i hi)⟩
        rintro rfl
        exact hfound }

/-- A program in an empty root directory that logs to its console. -/
def logging : Session := ⟨⟨[.directory ⟨root, [], false⟩], root⟩, some ⟨.ofLimits (.upTo .info) (.upTo .info), .console⟩, 1, [], [], ""⟩

/-- The program after a second try, with the log file `d/f`. -/
def loggingAgain : Session :=
  { logging with files := ⟨[.directory ⟨root, [([100], 1)], false⟩, .directory ⟨root, [([102], 2)], false⟩, .file []], root⟩ }

theorem setUp_logging : logging.setUp ⟨"info", none, some ⟨[100, 47, 102]⟩⟩ = (loggingAgain, .error .alreadySet) := by
  have hlevel : LevelLimit.Names "info" (.upTo .info) :=
    LevelLimit.names_of_mem (by rw [Text.lowerAscii_eq]; decide)
  have hfilter : LogFilter.ofOptions ⟨"info", none, some ⟨[100, 47, 102]⟩⟩ = .ok (.ofLimits (.upTo .info) (.upTo .info)) :=
    LogFilter.ofOptions_eq_ok.mpr ⟨_, _, .same rfl hlevel, rfl⟩
  rw [setUp, hfilter]
  rfl

/-- A second try makes the directory of its log file and the file, although it fails. -/
theorem setUp_failed_again :
    logging.setUp ⟨"info", none, some ⟨[100, 47, 102]⟩⟩ = (loggingAgain, .error .alreadySet) ∧
      Adds (·.Above ⟨[100, 47, 102]⟩) (· = ⟨[100, 47, 102]⟩) logging.files loggingAgain.files ∧
      loggingAgain.files.find ⟨[100, 47, 102]⟩ = .ok 2 := by
  obtain ⟨hadds, -, -⟩ := (setUp_failed setUp_logging).alreadySet ⟨[100, 47, 102]⟩ rfl rfl
  exact ⟨setUp_logging, hadds, rfl⟩

/-- Not every try that fails leaves the files as they were. -/
theorem not_setUp_atomic :
    ¬∀ (s s' : Session) (options : LogOptions) (e : LogError), s.setUp options = (s', .error e) → s'.files = s.files := by
  intro hall
  have hsame := hall logging loggingAgain _ _ setUp_logging
  exact absurd hsame (by decide)

end Session

end ClusterConfig
