import ClusterConfig.Proofs.FileContents
import ClusterConfig.Session.History

/-!
# Steps of a session

What one step of a running program does to its log, its files and its working directory. An event that reaches a log file writes
to it, and any other event changes no file. Only entering and leaving change the working directory, and only setting up the log
changes which events it lets pass.
-/

namespace ClusterConfig

/-- A write to a log file puts its bytes at the end of the file that is open, or of one that it opens first. -/
theorem WatchedFile.write_eq_ok {w w' : WatchedFile} {ids : Nat → FileId} {fs fs' : FileSystem} {bytes : List UInt8}
    (h : w.write ids fs bytes = .ok (fs', w')) :
    ∃ opened, (opened = fs ∨ fs.openToWrite w.path = .ok (opened, w'.inode)) ∧ fs' = opened.append w'.inode bytes := by
  obtain ⟨⟨opened, w''⟩, hrefresh, h⟩ := bind_eq_ok.mp h
  cases pure_eq_ok.mp h
  refine ⟨opened, ?_, rfl⟩
  unfold refresh at hrefresh
  split at hrefresh
  · cases hrefresh
    exact .inl rfl
  · obtain ⟨⟨opened', i⟩, hopen, hrefresh⟩ := bind_eq_ok.mp hrefresh
    cases pure_eq_ok.mp hrefresh
    exact .inr hopen

/-- Entering a directory changes nothing but the working directory. -/
theorem FileSystem.enter_eq_ok {fs fs' : FileSystem} {p : Path} : fs.enter p = .ok fs' ↔
    ∃ i, fs.find p = .ok i ∧ (fs.directory? i).isSome = true ∧ { fs with working := i } = fs' := by
  rw [enter, bind_eq_ok]
  refine exists_congr fun i => and_congr_right fun _ => ?_
  split
  · rename_i hdirectory
    rw [pure_eq_ok]
    exact (and_iff_right hdirectory).symm
  · rename_i hdirectory
    exact ⟨nofun, fun h => absurd h.1 hdirectory⟩

namespace Session

variable {s s' s'' : Session}

/-! ## Events -/

/-- An event is written to the log file that is open, or no file and no setting changes. -/
theorem emit_cases (s : Session) (e : Event) :
    (∃ console record, s.emit e = { s with console := console, record := record }) ∨
      ∃ subscriber w files w', s.subscriber = some subscriber ∧ subscriber.filter.passes e.target e.level = true ∧
        subscriber.sink = .file w ∧
        w.write FileSystem.idOf s.files (Text.Utf8.encode (e.fileLine s.time ++ "\n")) = .ok (files, w') ∧
        s.emit e = { s with files := files, subscriber := some { subscriber with sink := .file w' } } := by
  unfold emit
  split
  · rename_i subscriber hsubscriber
    split
    · rename_i hpasses
      unfold deliver
      split
      · exact .inl ⟨_, s.record, rfl⟩
      · exact .inl ⟨s.console, s.record, rfl⟩
      · exact .inl ⟨s.console, _, rfl⟩
      · rename_i w hsink
        split
        · rename_i files w' hwrite
          exact .inr ⟨subscriber, w, files, w', hsubscriber, hpasses, hsink, hwrite, rfl⟩
        · exact .inl ⟨s.console, s.record, rfl⟩
    · exact .inl ⟨s.console, s.record, rfl⟩
  · exact .inl ⟨s.console, s.record, rfl⟩

theorem working_emit (s : Session) (e : Event) : (s.emit e).files.working = s.files.working := by
  rcases emit_cases s e with ⟨console, record, h⟩ | ⟨subscriber, w, files, w', -, -, -, hwrite, h⟩
  · rw [h]
  · rw [h]
    obtain ⟨opened, rfl | hopened, rfl⟩ := WatchedFile.write_eq_ok hwrite
    · exact (FileSystem.extends_append _ _ _).working
    · exact ((FileSystem.extends_openToWrite hopened).trans (FileSystem.extends_append _ _ _)).working

theorem working_emitAll (s : Session) (events : List Event) : (s.emitAll events).files.working = s.files.working := by
  induction events generalizing s with
  | nil => rfl
  | cons e rest ih => exact (ih (s.emit e)).trans (working_emit s e)

theorem working_panic (s : Session) (payload : Option String) (location : String) :
    (s.panic payload location).files.working = s.files.working :=
  working_emitAll s (List.replicate s.panicLoggers (panicEvent payload location))

/-! ## Entering and leaving -/

/-- Entering a directory goes well where the working directory has a path and the one to enter is there; a guard for that path is
given. Otherwise everything stays as it is, and there is no guard. -/
theorem enter_cases (s : Session) (p : Path) :
    (∃ home i, s.files.workingPath = .ok home ∧ s.files.find p = .ok i ∧ (s.files.directory? i).isSome = true ∧
        s.enter p = ({ s with files := { s.files with working := i } }, .ok ⟨home⟩)) ∨
      (¬(∃ home i, s.files.workingPath = .ok home ∧ s.files.find p = .ok i ∧ (s.files.directory? i).isSome = true) ∧
        ∃ fault, s.enter p = (s, .error fault)) := by
  unfold enter
  cases hhome : s.files.workingPath with
  | error fault => exact .inr ⟨fun ⟨_, _, h, _⟩ => (nomatch h), fault, rfl⟩
  | ok home =>
    cases henter : s.files.enter p with
    | error fault =>
      refine .inr ⟨fun ⟨_, i, _, hfind, hi⟩ => ?_, fault, rfl⟩
      rw [FileSystem.enter_eq_ok.mpr ⟨i, hfind, hi, rfl⟩] at henter
      nomatch henter
    | ok files =>
      obtain ⟨i, hfind, hi, rfl⟩ := FileSystem.enter_eq_ok.mp henter
      exact .inl ⟨home, i, rfl, hfind, hi, rfl⟩

/-- Leaving goes to the directory that the path of the guard leads to. -/
theorem leave_of_find {guard : DirectoryGuard} {i : Nat} (hfind : s.files.find guard.previous = .ok i)
    (hi : (s.files.directory? i).isSome = true) : s.leave guard = { s with files := { s.files with working := i } } := by
  rw [leave, FileSystem.enter_eq_ok.mpr ⟨i, hfind, hi, rfl⟩]

/-- Leaving stays where the path of the guard leads to no directory. -/
theorem working_leave_of_lost {guard : DirectoryGuard}
    (h : ¬∃ i, s.files.find guard.previous = .ok i ∧ (s.files.directory? i).isSome = true) :
    (s.leave guard).files.working = s.files.working := by
  unfold leave
  split
  · rename_i files henter
    obtain ⟨i, hfind, hi, -⟩ := FileSystem.enter_eq_ok.mp henter
    exact absurd ⟨i, hfind, hi⟩ h
  · exact working_emit s _

/-- Work in a directory that cannot be entered is not done; any other is followed by leaving. -/
theorem within_cases {α : Type} (s : Session) (p : Path) (work : Session → Session × α) :
    (∃ s' guard, s.enter p = (s', .ok guard) ∧ s.within p work = ((work s').1.leave guard, .ok (work s').2)) ∨
      ∃ fault, s.within p work = (s, .error fault) := by
  rcases enter_cases s p with ⟨home, i, -, -, -, henter⟩ | ⟨-, fault, henter⟩
  · exact .inl ⟨_, _, henter, by rw [within, henter]⟩
  · exact .inr ⟨fault, by rw [within, henter]⟩

/-! ## What keeps the log set up -/

/-- The log stays set up as it is: it lets the same events pass, and as many handlers log a panic. -/
structure KeepsSetUp (s s' : Session) : Prop where
  filter : s'.subscriber.map Subscriber.filter = s.subscriber.map Subscriber.filter
  panicLoggers : s'.panicLoggers = s.panicLoggers

namespace KeepsSetUp

theorem refl (s : Session) : s.KeepsSetUp s := ⟨rfl, rfl⟩

theorem trans (h : s.KeepsSetUp s') (h' : s'.KeepsSetUp s'') : s.KeepsSetUp s'' :=
  ⟨h'.filter.trans h.filter, h'.panicLoggers.trans h.panicLoggers⟩

theorem isSome (h : s.KeepsSetUp s') : s'.subscriber.isSome = s.subscriber.isSome := by
  rw [← Option.isSome_map (f := Subscriber.filter), h.filter, Option.isSome_map]

theorem emit (s : Session) (e : Event) : s.KeepsSetUp (s.emit e) := by
  rcases emit_cases s e with ⟨console, record, h⟩ | ⟨subscriber, w, files, w', hsubscriber, -, -, -, h⟩
  · rw [h]
    exact ⟨rfl, rfl⟩
  · rw [h]
    exact ⟨by rw [hsubscriber]; rfl, rfl⟩

theorem emitAll (s : Session) (events : List Event) : s.KeepsSetUp (s.emitAll events) := by
  induction events generalizing s with
  | nil => exact refl s
  | cons e rest ih => exact (emit s e).trans (ih (s.emit e))

theorem panic (s : Session) (payload : Option String) (location : String) : s.KeepsSetUp (s.panic payload location) :=
  have h := emitAll s (List.replicate s.panicLoggers (panicEvent payload location))
  ⟨h.filter, h.panicLoggers⟩

theorem close (s : Session) : s.KeepsSetUp s.close := by
  refine ⟨?_, rfl⟩
  rw [Session.close, Option.map_map]
  congr 1
  funext subscriber
  rw [Function.comp]
  split <;> rfl

theorem enter (s : Session) (p : Path) : s.KeepsSetUp (s.enter p).1 := by
  unfold Session.enter
  split
  · exact refl s
  · split
    · exact refl s
    · exact ⟨rfl, rfl⟩

theorem leave (s : Session) (guard : DirectoryGuard) : s.KeepsSetUp (s.leave guard) := by
  unfold Session.leave
  split
  · exact ⟨rfl, rfl⟩
  · exact emit s _

/-- Only setting up the log changes how it is set up. -/
theorem takeStep {next : SessionStep} (h : ∀ options, next ≠ .setUp options) : s.KeepsSetUp (s.takeStep next).1 := by
  cases next with
  | setUp options => exact absurd rfl (h options)
  | close => exact close s
  | log e => exact emit s e
  | panic payload location => exact panic s payload location
  | enter p => exact enter s p
  | leave guard => exact leave s guard
  | change c => exact ⟨rfl, rfl⟩

end KeepsSetUp

end Session

end ClusterConfig
