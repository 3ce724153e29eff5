import ClusterConfig.Proofs.SessionSteps

/-!
# The log is set up once

However often a program tries to set up its log, and whatever else happens, one try at most goes well, and it is the first one
with settings that can be used. A try that fails leaves the log as it is. A panic is logged once where the log has been set up
before and not at all elsewhere, and then the first handler runs. One try is `setsUp` and one panic is `SetUpTimes.panics`; what a
history leaves behind is `setUpTimes_takeSteps`.
-/

namespace ClusterConfig

/-! ## Settings -/

namespace LogOptions

/-- The first setting that names no limit, the general one before that of the helpers. -/
def unknownLevel? (options : LogOptions) : Option String :=
  (options.level :: options.helperLevel.toList).find? fun setting => (LevelLimit.ofName? setting).isNone

end LogOptions

theorem LevelLimit.parse_eq_ok {setting : String} {limit : LevelLimit} :
    LevelLimit.parse setting = .ok limit ↔ LevelLimit.ofName? setting = some limit := by
  unfold parse
  cases LevelLimit.ofName? setting <;> simp

/-- The settings give a filter where all of them name limits, and the first one that names none is the error. -/
theorem LogFilter.ofOptions_cases (options : LogOptions) :
    (options.unknownLevel? = none ∧ ∃ filter, LogFilter.ofOptions options = .ok filter) ∨
      ∃ setting, options.unknownLevel? = some setting ∧ LogFilter.ofOptions options = .error (.unknownLevel setting) := by
  obtain ⟨level, helperLevel, file⟩ := options
  cases hlevel : LevelLimit.ofName? level with
  | none => exact .inr ⟨level, by simp [LogOptions.unknownLevel?, hlevel], by
      simp [LogFilter.ofOptions, LevelLimit.parse, hlevel, bind, Except.bind]⟩
  | some general =>
    have hgeneral := LevelLimit.parse_eq_ok.mpr hlevel
    cases helperLevel with
    | none => exact .inl ⟨by simp [LogOptions.unknownLevel?, hlevel],
        _, bind_eq_ok.mpr ⟨general, hgeneral, bind_eq_ok.mpr ⟨general, rfl, rfl⟩⟩⟩
    | some setting =>
      cases hsetting : LevelLimit.ofName? setting with
      | none => exact .inr ⟨setting, by simp [LogOptions.unknownLevel?, hlevel, hsetting], by
          simp [LogFilter.ofOptions, LevelLimit.parse, hlevel, hsetting, bind, Except.bind]⟩
      | some helpers => exact .inl ⟨by simp [LogOptions.unknownLevel?, hlevel, hsetting],
          _, bind_eq_ok.mpr ⟨general, hgeneral, bind_eq_ok.mpr ⟨helpers, LevelLimit.parse_eq_ok.mpr hsetting, rfl⟩⟩⟩

/-! ## The log file -/

namespace FileSystem

/-- The file systems in which the directory of a log file is there: the one at hand, or one in which it has just been made. -/
inductive WithLogDirectory (fs : FileSystem) (file : Path) : FileSystem → Prop where
  | noParent (h : file.parent? = none) : WithLogDirectory fs file fs
  | there {above : Path} (habove : file.parent? = some above) (h : above.bytes.isEmpty || fs.holds above) :
    WithLogDirectory fs file fs
  | made {above : Path} {fs' : FileSystem} (habove : file.parent? = some above)
    (hmissing : (above.bytes.isEmpty || fs.holds above) = false) (h : fs.makeDirectories above = (fs', .ok ())) :
    WithLogDirectory fs file fs'

/-- Where the settings have a log file, it can be opened once its directory is there. -/
def CanLog (fs : FileSystem) (options : LogOptions) : Prop :=
  ∀ file, options.file = some file → ∃ fs', fs.WithLogDirectory file fs' ∧ ∃ r, fs'.openToWrite file = .ok r

/-- There is only one such file system. -/
theorem WithLogDirectory.unique {fs fs' fs'' : FileSystem} {file : Path} (h : fs.WithLogDirectory file fs')
    (h' : fs.WithLogDirectory file fs'') : fs' = fs'' := by
  cases h <;> cases h' <;> simp_all

end FileSystem

/-- The error says that the log file, or the directory above it, cannot be used. -/
inductive LogError.IsUnusable (file : Path) : LogError → Prop where
  | noDirectory {above : Path} (h : file.parent? = some above) (fault : IoFault) : IsUnusable file (.noDirectory file above fault)
  | noFile (fault : IoFault) : IsUnusable file (.noFile file fault)

namespace Session

theorem makeLogDirectory_cases (fs : FileSystem) (file : Path) :
    ∃ fs', fs.Extends fs' ∧ ((fs.WithLogDirectory file fs' ∧ makeLogDirectory fs file = (fs', .ok ())) ∨
      ((∀ fs'', ¬fs.WithLogDirectory file fs'') ∧
        ∃ e, e.IsUnusable file ∧ makeLogDirectory fs file = (fs', .error e))) := by
  unfold makeLogDirectory
  cases habove : file.parent? with
  | none => exact ⟨fs, .refl fs, .inl ⟨.noParent habove, rfl⟩⟩
  | some above =>
    dsimp only
    split
    · rename_i hthere
      exact ⟨fs, .refl fs, .inl ⟨.there habove hthere, rfl⟩⟩
    · rename_i hmissing
      have hext := FileSystem.extends_makeDirectories fs above
      split
      · rename_i fs' hmade
        rw [hmade] at hext
        exact ⟨fs', hext, .inl ⟨.made habove (by simpa using hmissing) hmade, rfl⟩⟩
      · rename_i fs' fault hmade
        rw [hmade] at hext
        refine ⟨fs', hext, .inr ⟨fun fs'' h => ?_, _, .noDirectory habove fault, rfl⟩⟩
        cases h <;> simp_all

/-- Where the lines go is open once it turns out that it can be, and the path of a log file leads to what is open. -/
theorem openSink_cases (fs : FileSystem) (options : LogOptions) :
    ∃ fs', fs.Extends fs' ∧ ((fs.CanLog options ∧ ∃ sink, openSink fs options = (fs', .ok sink) ∧
        (options.file = none → sink = .console) ∧
        ∀ file, options.file = some file → ∃ i, sink = .file ⟨file, i, FileSystem.idOf i⟩ ∧ fs'.find file = .ok i) ∨
      (¬fs.CanLog options ∧ ∃ file e, options.file = some file ∧ e.IsUnusable file ∧ openSink fs options = (fs', .error e))) := by
  unfold openSink
  cases hfile : options.file with
  | none => exact ⟨fs, .refl fs, .inl ⟨by simp [FileSystem.CanLog, hfile], _, rfl, fun _ => rfl, nofun⟩⟩
  | some file =>
    obtain ⟨made, hext, ⟨hready, hmade⟩ | ⟨hnone, e, he, hmade⟩⟩ := makeLogDirectory_cases fs file
    · simp only [openLog, hmade, WatchedFile.openAt]
      cases hopen : made.openToWrite file with
      | error fault =>
        refine ⟨made, hext, .inr ⟨fun hcan => ?_, file, _, rfl, .noFile fault, rfl⟩⟩
        obtain ⟨made', hready', r, hr⟩ := hcan file hfile
        rw [← hready.unique hready', hopen] at hr
        nomatch hr
      | ok r =>
        obtain ⟨opened, i⟩ := r
        refine ⟨opened, hext.trans (FileSystem.extends_openToWrite hopen), .inl ⟨fun file' hfile' => ?_, _, rfl, nofun, ?_⟩⟩
        · obtain rfl : file = file' := Option.some.inj (hfile.symm.trans hfile')
          exact ⟨made, hready, _, hopen⟩
        · rintro _ ⟨⟩
          exact ⟨i, rfl, FileSystem.find_of_openToWrite hopen⟩
    · refine ⟨made, hext, .inr ⟨fun hcan => ?_, file, e, rfl, he, by simp only [openLog, hmade]⟩⟩
      obtain ⟨made', hready, -⟩ := hcan file hfile
      exact hnone made' hready

/-! ## One try -/

/-- What trying to set up the log comes to, where it may have been set up already. The settings are judged before the log file,
and that before what has been set up. A try that fails leaves all but the files as it is, and all paths lead where they led. -/
structure SetsUp (s : Session) (options : LogOptions) (already : Prop) (s' : Session) (result : Except LogError Bool) :
    Prop where
  succeeds : (∃ b, result = .ok b) ↔ options.unknownLevel? = none ∧ s.files.CanLog options ∧ ¬already
  unknownLevel : ∀ setting, result = .error (.unknownLevel setting) ↔ options.unknownLevel? = some setting
  unusable : (∃ file e, options.file = some file ∧ LogError.IsUnusable file e ∧ result = .error e) ↔
    options.unknownLevel? = none ∧ ¬s.files.CanLog options
  alreadySet : result = .error .alreadySet ↔ options.unknownLevel? = none ∧ s.files.CanLog options ∧ already
  failed : ∀ e, result = .error e → s' = { s with files := s'.files }
  installed : ∀ b, result = .ok b → ∃ filter sink, LogFilter.ofOptions options = .ok filter ∧
    (options.file = none → sink = .console) ∧
    (∀ file, options.file = some file → ∃ i, sink = .file ⟨file, i, FileSystem.idOf i⟩ ∧ s'.files.find file = .ok i) ∧
    s' = { s with files := s'.files, subscriber := some ⟨filter, sink⟩, panicLoggers := s.panicLoggers + 1 }
  leads : s.files.Extends s'.files

theorem setsUp (s : Session) (options : LogOptions) :
    SetsUp s options (s.subscriber.isSome = true) (s.setUp options).1 (s.setUp options).2 := by
  unfold setUp
  rcases LogFilter.ofOptions_cases options with ⟨hknown, filter, hfilter⟩ | ⟨setting, hsetting, hfilter⟩
  · obtain ⟨fs', hext, ⟨hcan, sink, hopen, hconsole, hfile⟩ | ⟨hcannot, file, e, hfile, he, hopen⟩⟩ :=
      openSink_cases s.files options
    · simp only [hfilter, hopen]
      cases hsubscriber : s.subscriber with
      | none => exact
        { succeeds := by simp [hknown, hcan]
          unknownLevel := by simp [hknown]
          unusable := by simp [hknown, hcan]
          alreadySet := by simp [hknown, hcan]
          failed := nofun
          installed := fun _ _ => ⟨filter, sink, hfilter, hconsole, hfile, rfl⟩
          leads := hext }
      | some subscriber =>
        exact
        { succeeds := by simp [hknown, hcan]
          unknownLevel := by simp [hknown]
          unusable := iff_of_false (by rintro ⟨file, e, -, he, ⟨⟩⟩; nomatch he) fun h => h.2 hcan
          alreadySet := by simp [hknown, hcan]
          failed := fun _ _ => by rw [hsubscriber]
          installed := nofun
          leads := hext }
    · simp only [hfilter, hopen]
      exact
      { succeeds := by simp [hknown, hcannot]
        unknownLevel := by cases he <;> simp [hknown]
        unusable := iff_of_true ⟨file, e, hfile, he, rfl⟩ ⟨hknown, hcannot⟩
        alreadySet := by cases he <;> simp [hcannot]
        failed := fun _ _ => rfl
        installed := nofun
        leads := hext }
  · simp only [hfilter]
    exact
    { succeeds := by simp [hsetting]
      unknownLevel := by simp [hsetting]
      unusable := iff_of_false (by rintro ⟨file, e, -, he, ⟨⟩⟩; nomatch he) (by simp [hsetting])
      alreadySet := by simp [hsetting]
      failed := fun _ _ => rfl
      installed := nofun
      leads := .refl _ }

/-! ## One panic -/

/-- What a panic does: it is logged once where the log has been set up and not at all elsewhere, and then the first handler
runs. -/
structure Panics (s : Session) (payload : Option String) (location : String) (already : Prop) (s' : Session) : Prop where
  logged : already → ∃ logged, s.emit ⟨.error, Event.logging, "Fatal exception: " ++ payload.getD unnamedPayload,
    [("location", location)]⟩ = logged ∧ s' = { logged with record := logged.record ++ [.firstHandler] }
  silent : ¬already → s' = { s with record := s.record ++ [.firstHandler] }

/-- The log has been set up so many times, once at most, and as many handlers log a panic. -/
structure SetUpTimes (n : Nat) (s : Session) : Prop where
  once : n ≤ 1
  panicLoggers : s.panicLoggers = n
  subscriber : s.subscriber.isSome = true ↔ n = 1

theorem SetUpTimes.panics {n : Nat} {s : Session} (h : SetUpTimes n s) (payload : Option String) (location : String) :
    Panics s payload location (n = 1) (s.panic payload location) := by
  refine ⟨fun hset => ⟨_, rfl, ?_⟩, fun hunset => ?_⟩
  · rw [panic, h.panicLoggers, hset]
    rfl
  · have hzero : s.panicLoggers = 0 := by
      have := h.once
      have := h.panicLoggers
      omega
    have hnone : List.replicate s.panicLoggers (panicEvent payload location) = [] := by rw [hzero, List.replicate_zero]
    rw [panic, hnone]
    rfl

end Session

/-! ## Histories -/

/-- The answer of a try to set up the log that went well. -/
def SessionAnswer.installs : SessionAnswer → Bool
  | .setUp (.ok _) => true
  | _ => false

theorem SessionAnswer.installs_eq_true {answer : SessionAnswer} : answer.installs = true ↔ ∃ b, answer = .setUp (.ok b) := by
  constructor
  · intro h
    unfold installs at h
    split at h
    · exact ⟨_, rfl⟩
    · nomatch h
  · rintro ⟨b, rfl⟩
    rfl

namespace Session

/-- Only a try to set up the log can answer that it went well. -/
theorem installs_takeStep {s : Session} {next : SessionStep} (h : ∀ options, next ≠ .setUp options) :
    (s.takeStep next).2.installs = false := by
  cases next <;> first | rfl | exact absurd rfl (h _)

/-- One step sets up the log where that has not been done before, or leaves it as it is. -/
theorem setUpTimes_takeStep {n : Nat} {s : Session} (h : SetUpTimes n s) (next : SessionStep) :
    SetUpTimes (n + if (s.takeStep next).2.installs then 1 else 0) (s.takeStep next).1 := by
  by_cases hnext : ∃ options, next = .setUp options
  · obtain ⟨options, rfl⟩ := hnext
    have htry := setsUp s options
    rw [takeStep]
    cases hresult : (s.setUp options).2 with
    | error e =>
      have hsame := htry.failed e hresult
      rw [if_neg (by simp [SessionAnswer.installs]), hsame]
      exact ⟨h.once, h.panicLoggers, h.subscriber⟩
    | ok b =>
      obtain ⟨-, -, hunset⟩ := htry.succeeds.mp ⟨b, hresult⟩
      obtain ⟨filter, sink, -, -, -, hset⟩ := htry.installed b hresult
      have hzero : n = 0 := by
        have := h.once
        rw [h.subscriber] at hunset
        omega
      rw [if_pos (by rfl), hset]
      exact ⟨by omega, congrArg (· + 1) h.panicLoggers, iff_of_true rfl (by omega)⟩
  · rw [not_exists] at hnext
    have hkeeps := KeepsSetUp.takeStep (s := s) hnext
    rw [installs_takeStep hnext]
    exact ⟨h.once, hkeeps.panicLoggers.trans h.panicLoggers, by rw [hkeeps.isSome]; exact h.subscriber⟩

theorem setUpTimes_takeSteps {n : Nat} {s : Session} (h : SetUpTimes n s) (steps : List SessionStep) :
    SetUpTimes (n + (s.takeSteps steps).2.countP SessionAnswer.installs) (s.takeSteps steps).1 := by
  induction steps generalizing n s with
  | nil => exact h
  | cons next rest ih =>
    have hrest := ih (setUpTimes_takeStep h next)
    rw [takeSteps, List.countP_cons, Nat.add_comm (List.countP _ _), ← Nat.add_assoc]
    exact hrest

/-- Some answer says that setting up the log went well. -/
theorem countP_installs_eq_one {answers : List SessionAnswer} (h : answers.countP SessionAnswer.installs ≤ 1) :
    answers.countP SessionAnswer.installs = 1 ↔ ∃ b, .setUp (.ok b) ∈ answers := by
  have hpos : answers.countP SessionAnswer.installs = 1 ↔ 0 < answers.countP SessionAnswer.installs := by omega
  rw [hpos, List.countP_pos_iff]
  constructor
  · rintro ⟨answer, hmem, hinstalls⟩
    obtain ⟨b, rfl⟩ := SessionAnswer.installs_eq_true.mp hinstalls
    exact ⟨b, hmem⟩
  · rintro ⟨b, hmem⟩
    exact ⟨_, hmem, rfl⟩

/-- After any history at most one try to set up the log has gone well. The next try goes well exactly where its settings name
limits, its log file can be opened, and no try before it has gone well; otherwise it fails for the first of these that is not so,
and leaves filter, sink and handlers as they are. The next panic is logged once where a try has gone well before, and not at all
elsewhere, and then the first handler runs once. -/
theorem setUps_of_takeSteps (files : FileSystem) (time : String) (steps : List SessionStep) :
    ∃ s answers, (start files time).takeSteps steps = (s, answers) ∧
      answers.countP SessionAnswer.installs ≤ 1 ∧
      (∀ options, ∃ s' result, s.takeStep (.setUp options) = (s', .setUp result) ∧
        SetsUp s options (∃ b, .setUp (.ok b) ∈ answers) s' result) ∧
      ∀ payload location, ∃ s', s.takeStep (.panic payload location) = (s', .done) ∧
        Panics s payload location (∃ b, .setUp (.ok b) ∈ answers) s' := by
  have htimes := setUpTimes_takeSteps (n := 0) ⟨Nat.zero_le 1, rfl, by simp [start]⟩ steps (s := start files time)
  rw [Nat.zero_add] at htimes
  refine ⟨_, _, rfl, htimes.once, fun options => ⟨_, _, rfl, ?_⟩, fun payload location => ⟨_, rfl, ?_⟩⟩
  · rw [← countP_installs_eq_one htimes.once, ← htimes.subscriber]
    exact setsUp _ options
  · rw [← countP_installs_eq_one htimes.once]
    exact htimes.panics payload location

end Session

end ClusterConfig
