import ClusterConfig.Log.Rotation
import ClusterConfig.Proofs.FileContents

/-!
# Rotation loses no line of a log

Whatever others do to the file system between writes, a write that goes well puts its bytes at the end of the file that the path
leads to then, and one that fails changes nothing. The writer tells files apart only by what the system identifies them by, so
this holds while that stands for no other file than the one that is open. One step is `appended_of_write` and `holds_step`; runs
are put together from it in `holds_run` and `content_run`, and `writes_of_run` is about a log from its opening on.
-/

namespace ClusterConfig

namespace FileChange

/-- Only where others put a file can they change a content. -/
theorem sameContents (fs : FileSystem) {change : FileChange} (h : ∀ p content, change ≠ .put p content) :
    fs.SameContents (change.apply fs) := by
  cases change with
  | rename source destination => exact toOption_getD_of_ok (.refl fs) fun _ h => .rename h
  | removeFile p => exact toOption_getD_of_ok (.refl fs) fun _ h => .removes (FileSystem.removes_of_removeFile h)
  | put p content => exact absurd rfl (h p content)
  | makeDirectory p => exact toOption_getD_of_ok (.refl fs) fun _ h => .makeDirectory h
  | makeDirectories p => exact .makeDirectories fs p
  | removeDirectory p => exact toOption_getD_of_ok (.refl fs) fun _ h => .removes (FileSystem.removes_of_removeDirectory h)
  | removeTree p => exact toOption_getD_of_ok (.refl fs) fun _ h => .removes (FileSystem.removes_of_removeTree h)

/-- Whatever others do, a file remains a file. -/
theorem keepsFiles (fs : FileSystem) (change : FileChange) : fs.KeepsFiles (change.apply fs) := by
  cases change with
  | put p content =>
    rw [apply]
    cases hwrite : fs.write p content with
    | error fault => exact (FileSystem.SameContents.refl fs).keepsFiles
    | ok fs' => exact .write hwrite
  | _ => exact (sameContents fs (by simp)).keepsFiles

end FileChange

namespace FileSystem

/-- What can be opened at the path takes bytes at its end: it is a file, and no device. -/
def TakesBytes (fs : FileSystem) (p : Path) : Prop :=
  ∀ fs' i, fs.openToWrite p = .ok (fs', i) → (fs'.content? i).isSome = true

/-- The bytes have been put at the end of the file of a number, which the path leads to; it is new if the path led nowhere. No
other content has changed, and every path leads where it led. -/
structure Appended (fs fs' : FileSystem) (p : Path) (bytes : List UInt8) (i : Nat) : Prop where
  found : fs'.find p = .ok i
  content : (∃ old, fs.find p = .ok i ∧ fs.content? i = some old ∧ fs'.content? i = some (old ++ bytes)) ∨
    ((∀ j, fs.find p ≠ .ok j) ∧ fs.inodes[i]? = none ∧ fs'.content? i = some bytes)
  others : ∀ j, j ≠ i → fs'.content? j = fs.content? j
  leads : fs.Extends fs'

/-- Bytes put at the end of the file that a path leads to. -/
theorem appended_of_find {fs : FileSystem} {p : Path} {i : Nat} (hfind : fs.find p = .ok i)
    (hfile : (fs.content? i).isSome = true) (bytes : List UInt8) : Appended fs (fs.append i bytes) p bytes i := by
  obtain ⟨old, hold⟩ := Option.isSome_iff_exists.mp hfile
  have hext := extends_append fs i bytes
  exact ⟨hext.find hfind, .inl ⟨old, hfind, hold, content_append_self hold bytes⟩,
    fun j hj => content_append_ne fs bytes hj, hext⟩

/-- Bytes put at the end of the file that is opened at a path. -/
theorem appended_of_openToWrite {fs opened : FileSystem} {p : Path} {i : Nat} (h : fs.openToWrite p = .ok (opened, i))
    (hfile : (opened.content? i).isSome = true) (bytes : List UInt8) :
    Appended fs (opened.append i bytes) p bytes i := by
  rcases openToWrite_eq_ok h with ⟨rfl, hfind⟩ | ⟨hnew, hnowhere, hempty, hsame, hext⟩
  · exact appended_of_find hfind hfile bytes
  · have happend := extends_append opened i bytes
    refine ⟨happend.find (find_of_openToWrite h), .inr ⟨hnowhere, hnew, ?_⟩, fun j hj => ?_, hext.trans happend⟩
    · rw [content_append_self hempty, List.nil_append]
    · rw [content_append_ne opened bytes hj, hsame j hj]

theorem Appended.isFile {fs fs' : FileSystem} {p : Path} {bytes : List UInt8} {i : Nat} (h : Appended fs fs' p bytes i) :
    (fs'.content? i).isSome = true := by
  rcases h.content with ⟨old, -, -, hnew⟩ | ⟨-, -, hnew⟩ <;> rw [hnew] <;> rfl

/-- A file gets the bytes that are put at its end. -/
theorem Appended.getD {fs fs' : FileSystem} {p : Path} {bytes : List UInt8} {i : Nat} (h : Appended fs fs' p bytes i) :
    (fs'.content? i).getD [] = (fs.content? i).getD [] ++ bytes := by
  rcases h.content with ⟨old, -, hold, hnew⟩ | ⟨-, hnone, hnew⟩
  · rw [hold, hnew, Option.getD_some, Option.getD_some]
  · rw [hnew, content?, hnone, Option.getD_some, Option.getD_none, List.nil_append]

end FileSystem

/-- A file is taken to be current where its path leads to something that is identified as it is. -/
theorem WatchedFile.isCurrent_iff {w : WatchedFile} {ids : Nat → FileId} {fs : FileSystem} :
    w.isCurrent ids fs = true ↔ ∃ i, fs.find w.path = .ok i ∧ ids i = w.id := by
  rw [isCurrent, decide_eq_true_iff, Option.map_eq_some_iff]
  refine exists_congr fun i => and_congr_left fun _ => ?_
  cases fs.find w.path <;> simp [Except.toOption]

namespace LogState

variable {ids : Nat → FileId} {path : Path} {s : LogState}

/-- The system can be relied on: what identifies the file that is open does not stand for another one at its path, and what can be
opened there takes bytes at its end. -/
structure Dependable (ids : Nat → FileId) (s : LogState) : Prop where
  identified : ∀ i, s.files.find s.log.path = .ok i → ids i = ids s.log.inode → i = s.log.inode
  takes : s.files.TakesBytes s.log.path

/-- A file is open for the path, and it is known by what identifies it. -/
structure Holds (ids : Nat → FileId) (path : Path) (s : LogState) : Prop where
  path : s.log.path = path
  id : s.log.id = ids s.log.inode
  file : (s.files.content? s.log.inode).isSome = true

theorem holds_of_openAt {fs files : FileSystem} {log : WatchedFile} (h : WatchedFile.openAt ids fs path = .ok (files, log))
    (htakes : fs.TakesBytes path) : Holds ids path ⟨files, log⟩ := by
  obtain ⟨⟨opened, i⟩, hopen, h⟩ := bind_eq_ok.mp h
  cases pure_eq_ok.mp h
  exact ⟨rfl, rfl, htakes _ _ hopen⟩

/-! ## One step -/

/-- A file that is taken to be current is the one that the path leads to. -/
theorem find_of_isCurrent (h : s.Holds ids path) (hsystem : s.Dependable ids) (hcurrent : s.log.isCurrent ids s.files = true) :
    s.files.find path = .ok s.log.inode := by
  obtain ⟨i, hfind, hid⟩ := WatchedFile.isCurrent_iff.mp hcurrent
  rw [← h.path, hfind, hsystem.identified i hfind (hid.trans h.id)]

/-- A write that goes well puts its bytes at the end of the file that the path leads to, and this is the one that is open then. -/
theorem appended_of_write {files : FileSystem} {log : WatchedFile} {bytes : List UInt8} (h : s.Holds ids path)
    (hsystem : s.Dependable ids) (hwrite : s.log.write ids s.files bytes = .ok (files, log)) :
    s.files.Appended files path bytes log.inode ∧ Holds ids path ⟨files, log⟩ := by
  obtain ⟨⟨opened, log'⟩, hrefresh, hwrite⟩ := bind_eq_ok.mp hwrite
  cases pure_eq_ok.mp hwrite
  rw [WatchedFile.refresh] at hrefresh
  split at hrefresh
  case isTrue hcurrent =>
    cases hrefresh
    have happ := FileSystem.appended_of_find (find_of_isCurrent h hsystem hcurrent) h.file bytes
    exact ⟨happ, h.path, h.id, happ.isFile⟩
  case isFalse =>
    obtain ⟨⟨opened', i⟩, hopen, hrefresh⟩ := bind_eq_ok.mp hrefresh
    cases pure_eq_ok.mp hrefresh
    have happ := FileSystem.appended_of_openToWrite (h.path ▸ hopen) (hsystem.takes _ _ hopen) bytes
    exact ⟨happ, h.path, rfl, happ.isFile⟩

/-- A write goes well where the path can be opened. -/
theorem exists_write_of_openToWrite {r : FileSystem × Nat} (h : s.files.openToWrite s.log.path = .ok r) (bytes : List UInt8) :
    ∃ r, s.log.write ids s.files bytes = .ok r := by
  have hrefresh : ∃ r, s.log.refresh ids s.files = .ok r := by
    rw [WatchedFile.refresh]
    split
    · exact ⟨_, rfl⟩
    · exact ⟨_, bind_eq_ok.mpr ⟨r, h, rfl⟩⟩
  obtain ⟨r, hr⟩ := hrefresh
  exact ⟨_, bind_eq_ok.mpr ⟨r, hr, rfl⟩⟩

/-- A file stays open for the path, whatever is done next. -/
theorem holds_step (h : s.Holds ids path) (hsystem : s.Dependable ids) (next : LogStep) :
    Holds ids path (s.step ids next).1 := by
  cases next with
  | outside change => exact ⟨h.path, h.id, change.keepsFiles s.files s.log.inode h.file⟩
  | write bytes =>
    rw [step]
    cases hwrite : s.log.write ids s.files bytes with
    | error fault => exact h
    | ok r => exact (appended_of_write h hsystem hwrite).2

/-! ## Runs -/

/-- The system can be relied on at every moment of a run. -/
def DependableFor (ids : Nat → FileId) (s : LogState) (steps : List LogStep) : Prop :=
  ∀ before, before <+: steps → (s.run ids before).1.Dependable ids

theorem DependableFor.rest {next : LogStep} {rest : List LogStep} (h : s.DependableFor ids (next :: rest)) :
    (s.step ids next).1.DependableFor ids rest :=
  fun before hbefore => h (next :: before) (List.cons_prefix_cons.mpr ⟨rfl, hbefore⟩)

theorem DependableFor.nil (h : s.Dependable ids) : s.DependableFor ids [] := by
  intro before hbefore
  rw [List.prefix_nil.mp hbefore]
  exact h

theorem DependableFor.cons {next : LogStep} {rest : List LogStep} (h : s.Dependable ids)
    (hrest : (s.step ids next).1.DependableFor ids rest) : s.DependableFor ids (next :: rest) := by
  intro before hbefore
  rcases List.prefix_cons_iff.mp hbefore with rfl | ⟨later, rfl, hlater⟩
  · exact h
  · exact hrest later hlater

theorem run_append (s : LogState) (steps more : List LogStep) :
    s.run ids (steps ++ more) = (((s.run ids steps).1.run ids more).1,
      (s.run ids steps).2 ++ ((s.run ids steps).1.run ids more).2) := by
  induction steps generalizing s with
  | nil => rfl
  | cons next rest ih =>
    simp only [List.cons_append, run, ih, List.append_assoc]

theorem holds_run {steps : List LogStep} (h : s.Holds ids path) (hsystem : s.DependableFor ids steps) :
    Holds ids path (s.run ids steps).1 := by
  induction steps generalizing s with
  | nil => exact h
  | cons next rest ih => exact ih (holds_step h (hsystem [] List.nil_prefix) next) hsystem.rest

/-- The bytes that a file got. -/
def received (deliveries : List Delivery) (i : Nat) : List UInt8 :=
  (deliveries.filter fun d => d.inode == i).flatMap Delivery.bytes

/-- Nobody else puts another content into a file in a run. -/
def LeftAlone (ids : Nat → FileId) (s : LogState) (steps : List LogStep) (i : Nat) : Prop :=
  ∀ before p content, before ++ [.outside (.put p content)] <+: steps →
    ((FileChange.put p content).apply (s.run ids before).1.files).content? i = (s.run ids before).1.files.content? i

theorem LeftAlone.rest {next : LogStep} {rest : List LogStep} {i : Nat} (h : s.LeftAlone ids (next :: rest) i) :
    (s.step ids next).1.LeftAlone ids rest i :=
  fun before p content hbefore => h (next :: before) p content (List.cons_prefix_cons.mpr ⟨rfl, hbefore⟩)

theorem received_append (deliveries more : List Delivery) (i : Nat) :
    received (deliveries ++ more) i = received deliveries i ++ received more i := by
  rw [received, List.filter_append, List.flatMap_append, received, received]

/-- A step adds to the content of a file what the file gets in it. -/
theorem content_step {next : LogStep} {i : Nat} (h : s.Holds ids path) (hsystem : s.Dependable ids)
    (halone : s.LeftAlone ids [next] i) :
    ((s.step ids next).1.files.content? i).getD [] = (s.files.content? i).getD [] ++ received (s.step ids next).2 i := by
  cases next with
  | outside change =>
    have hsame : (change.apply s.files).content? i = s.files.content? i := by
      cases change with
      | put p content => exact halone [] p content List.prefix_rfl
      | _ => exact FileChange.sameContents s.files (by simp) i
    simp [step, hsame, received]
  | write bytes =>
    rw [step]
    cases hwrite : s.log.write ids s.files bytes with
    | error fault => simp [received]
    | ok r =>
      obtain ⟨files, log⟩ := r
      obtain ⟨happ, -⟩ := appended_of_write h hsystem hwrite
      by_cases hi : i = log.inode
      · subst hi
        simpa [received] using happ.getD
      · simp [received, happ.others i hi, Ne.symm hi]

/-- In a run in which nobody else puts content into it a file gets what is delivered to it, in order, and nothing else. -/
theorem content_run {steps : List LogStep} {i : Nat} (h : s.Holds ids path) (hsystem : s.DependableFor ids steps)
    (halone : s.LeftAlone ids steps i) :
    ((s.run ids steps).1.files.content? i).getD [] = (s.files.content? i).getD [] ++ received (s.run ids steps).2 i := by
  induction steps generalizing s with
  | nil => simp [run, received]
  | cons next rest ih =>
    have hfirst := hsystem [] List.nil_prefix
    have halone' : s.LeftAlone ids [next] i := fun before p content hbefore =>
      halone before p content (hbefore.trans (List.cons_prefix_cons.mpr ⟨rfl, List.nil_prefix⟩))
    rw [run, received_append, ← List.append_assoc, ← content_step h hfirst halone']
    exact ih (holds_step h hfirst next) hsystem.rest halone.rest

/-! ## The log -/

/-- What a write does: it puts its bytes at the end of the file that the path leads to then and changes no other one, or it fails
and changes none. It does not fail where the path can be opened. -/
structure WritesToPath (ids : Nat → FileId) (path : Path) (s : LogState) (bytes : List UInt8) : Prop where
  appended : ∀ files log, s.log.write ids s.files bytes = .ok (files, log) → s.files.Appended files path bytes log.inode
  unchanged : ∀ fault, s.log.write ids s.files bytes = .error fault → (s.step ids (.write bytes)).1 = s
  succeeds : ∀ r, s.files.openToWrite path = .ok r → ∃ r, s.log.write ids s.files bytes = .ok r

/-- A log loses and misplaces no line, whatever others do to the file system while it is open. Every write that goes well puts its
bytes at the end of the file that the path leads to then, one that fails changes nothing, and none fails where the path can be
opened. In any part of a run a file that nobody else puts content into gets what has been written to it, in order, and nothing
else. -/
theorem writes_of_run {fs files : FileSystem} {log : WatchedFile} {steps : List LogStep}
    (hopen : WatchedFile.openAt ids fs path = .ok (files, log)) (htakes : fs.TakesBytes path)
    (hsystem : DependableFor ids ⟨files, log⟩ steps) :
    (∀ before bytes, before ++ [.write bytes] <+: steps → WritesToPath ids path (run ids ⟨files, log⟩ before).1 bytes) ∧
      ∀ before part after, steps = before ++ part ++ after → ∃ s s' deliveries,
        (run ids ⟨files, log⟩ before).1 = s ∧ s.run ids part = (s', deliveries) ∧
          ∀ i, s.LeftAlone ids part i →
            (s'.files.content? i).getD [] = (s.files.content? i).getD [] ++ received deliveries i := by
  have hholds : ∀ before, before <+: steps → Holds ids path (run ids ⟨files, log⟩ before).1 := fun before hbefore =>
    holds_run (holds_of_openAt hopen htakes) fun first hfirst => hsystem first (hfirst.trans hbefore)
  refine ⟨fun before bytes hbefore => ?_, ?_⟩
  · have hprefix := (List.prefix_append before _).trans hbefore
    have h := hholds before hprefix
    refine ⟨fun files log hwrite => (appended_of_write h (hsystem before hprefix) hwrite).1, fun fault hwrite => ?_, ?_⟩
    · rw [step, hwrite]
    · intro r hr
      exact exists_write_of_openToWrite (h.path.symm ▸ hr) bytes
  · rintro before part after rfl
    have hprefix : before <+: before ++ part ++ after := ⟨part ++ after, by simp⟩
    refine ⟨_, _, _, rfl, rfl, fun i halone => content_run (hholds before hprefix) (fun first hfirst => ?_) halone⟩
    obtain ⟨last, rfl⟩ := hfirst
    have hfirst := hsystem (before ++ first) ⟨last ++ after, by simp⟩
    rwa [run_append] at hfirst

theorem takesBytes_of_eq {fs opened : FileSystem} {i : Nat} (h : fs.openToWrite path = .ok (opened, i))
    (hfile : (opened.content? i).isSome = true) : fs.TakesBytes path := by
  intro opened' j hopen
  rw [h] at hopen
  cases hopen
  exact hfile

/-- The log file `c` is open. -/
def opened : LogState := ⟨FileSystem.holding "", ⟨⟨[99]⟩, 1, FileSystem.idOf 1⟩⟩

/-- The log file `c` is renamed to `d` between two writes. -/
def renamed : List LogStep := [.write [1], .outside (.rename ⟨[99]⟩ ⟨[100]⟩), .write [2]]

theorem dependable_of_openToWrite {files : FileSystem} {i : Nat} (h : s.files.openToWrite s.log.path = .ok (files, i))
    (hfile : (files.content? i).isSome = true) : s.Dependable FileSystem.idOf :=
  ⟨fun _ _ hid => (FileId.mk.inj hid).2, takesBytes_of_eq h hfile⟩

theorem dependableFor_renamed : opened.DependableFor FileSystem.idOf renamed := by
  refine .cons (dependable_of_openToWrite rfl rfl) ?_
  refine .cons (dependable_of_openToWrite rfl rfl) ?_
  refine .cons (dependable_of_openToWrite rfl rfl) ?_
  exact .nil (dependable_of_openToWrite rfl rfl)

theorem writes_of_run_renamed :
    WatchedFile.openAt FileSystem.idOf (.holding "") ⟨[99]⟩ = .ok (opened.files, opened.log) ∧
      (FileSystem.holding "").TakesBytes ⟨[99]⟩ ∧ opened.DependableFor FileSystem.idOf renamed ∧
      WritesToPath FileSystem.idOf ⟨[99]⟩ (opened.run FileSystem.idOf (renamed.take 2)).1 [2] ∧
      (opened.run FileSystem.idOf renamed).1.files.read ⟨[99]⟩ = .ok [2] ∧
      (opened.run FileSystem.idOf renamed).1.files.read ⟨[100]⟩ = .ok [1] := by
  have hopen : WatchedFile.openAt FileSystem.idOf (.holding "") ⟨[99]⟩ = .ok (opened.files, opened.log) := rfl
  have htakes : (FileSystem.holding "").TakesBytes ⟨[99]⟩ := takesBytes_of_eq rfl rfl
  refine ⟨hopen, htakes, dependableFor_renamed, ?_, rfl, rfl⟩
  exact (writes_of_run hopen htakes dependableFor_renamed).1 (renamed.take 2) [2] List.prefix_rfl

end LogState

end ClusterConfig
