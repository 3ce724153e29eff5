import ClusterConfig.Proofs.LogRotation
import ClusterConfig.Proofs.LogSetUp

/-!
# Where a log goes when the program changes its directory

The path of a log is looked up again before each write. So while a program only enters and leaves directories, logs and panics, its
lines go where the path leads from the working directory of the moment. The log stays in the file that it was set up with exactly
where the path leads there whenever something is written, as an absolute path does and any path does from the directory of the
set-up. For a log that stays, one event is `grows_emit`, one step `grows_takeStep` and a history `grows_takeSteps`; for any log
they are `receives_emit`, `content_takeStep` and `content_takeSteps`.
-/

namespace ClusterConfig

namespace FileSystem

variable {fs fs' fs'' : FileSystem} {p : Path} {bytes more : List UInt8}

/-- A path leads to the same where directories are the same and it starts at the same one. -/
theorem find_congr (hdirectory : ∀ i, fs'.directory? i = fs.directory? i) (hstart : fs'.start p = fs.start p) :
    fs'.find p = fs.find p := by
  have hstep : fs'.step = fs.step := by
    funext i name
    rw [step, step, hdirectory]
  rw [find, find, walk, walk, hstep, hstart]

/-- Bytes have been put at the end of a file, and nothing else has changed but the working directory. -/
def Grows (fs fs' : FileSystem) (i : Nat) (bytes : List UInt8) : Prop :=
  ∀ content, fs.content? i = some content → fs'.inodes = fs.inodes.set i (.file (content ++ bytes))

namespace Grows

variable {i : Nat}

theorem nothing (h : fs'.inodes = fs.inodes) : fs.Grows fs' i [] := by
  intro content hcontent
  obtain ⟨hlt, hget⟩ := List.getElem?_eq_some_iff.mp (content_eq_some.mp hcontent)
  rw [h, List.append_nil, ← hget, List.set_getElem_self hlt]

theorem content (h : fs.Grows fs' i bytes) {content : List UInt8} (hcontent : fs.content? i = some content) :
    fs'.content? i = some (content ++ bytes) := by
  have hlt := (List.getElem?_eq_some_iff.mp (content_eq_some.mp hcontent)).1
  rw [content_eq_some, h content hcontent, List.getElem?_set_self hlt]

theorem isSome (h : fs.Grows fs' i bytes) (hfile : (fs.content? i).isSome = true) : (fs'.content? i).isSome = true := by
  obtain ⟨content, hcontent⟩ := Option.isSome_iff_exists.mp hfile
  rw [h.content hcontent]
  rfl

theorem trans (h : fs.Grows fs' i bytes) (h' : fs'.Grows fs'' i more) : fs.Grows fs'' i (bytes ++ more) := by
  intro content hcontent
  rw [h' _ (h.content hcontent), h content hcontent, List.set_set, List.append_assoc]

theorem directory (h : fs.Grows fs' i bytes) (hfile : (fs.content? i).isSome = true) (j : Nat) :
    fs'.directory? j = fs.directory? j := by
  obtain ⟨content, hcontent⟩ := Option.isSome_iff_exists.mp hfile
  have hi := content_eq_some.mp hcontent
  have hlt := (List.getElem?_eq_some_iff.mp hi).1
  rw [directory?, directory?, h content hcontent]
  by_cases hij : i = j
  · rw [← hij, List.getElem?_set_self hlt, hi]
  · rw [List.getElem?_set_ne hij]

theorem append (fs : FileSystem) (i : Nat) (bytes : List UInt8) : fs.Grows (fs.append i bytes) i bytes := by
  intro content hcontent
  rw [FileSystem.append, hcontent]
  simp only [setContent, content_eq_some.mp hcontent, set]

end Grows

/-- Of the files that are there, the one that a path leads to has got bytes at its end, and the path leads to it still. -/
structure Receives (fs fs' : FileSystem) (p : Path) (bytes : List UInt8) : Prop where
  content : ∀ {i content}, fs.content? i = some content →
    fs'.content? i = some (content ++ if fs.find p = .ok i then bytes else [])
  find : ∀ {i content}, fs.content? i = some content → (fs'.find p = .ok i ↔ fs.find p = .ok i)

namespace Receives

theorem nothing (fs : FileSystem) (p : Path) : fs.Receives fs p [] :=
  ⟨fun h => by rw [ite_self, List.append_nil, h], fun _ => Iff.rfl⟩

theorem trans (h : fs.Receives fs' p bytes) (h' : fs'.Receives fs'' p more) : fs.Receives fs'' p (bytes ++ more) := by
  refine ⟨fun {i content} hcontent => ?_, fun hcontent => (h'.find (h.content hcontent)).trans (h.find hcontent)⟩
  rw [h'.content (h.content hcontent), List.append_assoc]
  by_cases hfind : fs.find p = .ok i
  · rw [if_pos hfind, if_pos hfind, if_pos ((h.find hcontent).mpr hfind)]
  · rw [if_neg hfind, if_neg hfind, if_neg fun h' => hfind ((h.find hcontent).mp h'), List.append_nil]

/-- Bytes are lost where a path leads to no file. -/
theorem lost (hnone : ∀ {i content}, fs.content? i = some content → fs.find p ≠ .ok i) (bytes : List UInt8) :
    fs.Receives fs p bytes :=
  ⟨fun h => by rw [if_neg (hnone h), List.append_nil, h], fun _ => Iff.rfl⟩

/-- Bytes have been put at the end of the file that a path leads to. -/
theorem append_of_find {i : Nat} (hfind : fs.find p = .ok i) (bytes : List UInt8) : fs.Receives (fs.append i bytes) p bytes := by
  refine ⟨fun {j content} hcontent => ?_, fun _ => by rw [(extends_append fs i bytes).find hfind, hfind]⟩
  rw [hfind]
  by_cases hij : i = j
  · rw [hij, if_pos rfl, content_append_self hcontent]
  · rw [if_neg fun h => hij (Except.ok.inj h), List.append_nil, content_append_ne fs bytes (Ne.symm hij), hcontent]

/-- Bytes have been put at the end of the file that is opened at a path. A new one is none of those that are there. -/
theorem append_of_openToWrite {opened : FileSystem} {i : Nat} (hopen : fs.openToWrite p = .ok (opened, i))
    (bytes : List UInt8) : fs.Receives (opened.append i bytes) p bytes := by
  rcases openToWrite_eq_ok hopen with ⟨rfl, hfind⟩ | ⟨hnew, hnowhere, -, hothers, -⟩
  · exact append_of_find hfind bytes
  · have hafter := (extends_append opened i bytes).find (find_of_openToWrite hopen)
    have hne : ∀ {j content}, fs.content? j = some content → j ≠ i := by
      rintro j content hcontent rfl
      rw [content?, hnew] at hcontent
      cases hcontent
    refine ⟨fun {j content} hcontent => ?_, fun {j content} hcontent => ?_⟩
    · rw [if_neg (hnowhere j), List.append_nil, content_append_ne opened bytes (hne hcontent), hothers j (hne hcontent), hcontent]
    · rw [hafter]
      exact ⟨fun h => absurd (Except.ok.inj h).symm (hne hcontent), fun h => absurd h (hnowhere j)⟩

end Receives

end FileSystem

namespace WatchedFile

variable {fs : FileSystem} {path : Path} {i : Nat}

/-- On one device a file that is open is current where its path leads to it. -/
theorem isCurrent_idOf : isCurrent ⟨path, i, FileSystem.idOf i⟩ FileSystem.idOf fs = true ↔ fs.find path = .ok i := by
  simp [isCurrent_iff, FileSystem.idOf]

/-- A write to a file that the path leads to goes there. -/
theorem write_of_find (h : fs.find path = .ok i) (bytes : List UInt8) :
    write ⟨path, i, FileSystem.idOf i⟩ FileSystem.idOf fs bytes = .ok (fs.append i bytes, ⟨path, i, FileSystem.idOf i⟩) :=
  bind_eq_ok.mpr ⟨_, by rw [refresh, if_pos (isCurrent_idOf.mpr h)], rfl⟩

/-- A write goes to the file that the path leads to, or to one that is opened there; it is lost where none can be opened. -/
theorem write_cases (fs : FileSystem) (path : Path) (i : Nat) (bytes : List UInt8) :
    (∃ fault, write ⟨path, i, FileSystem.idOf i⟩ FileSystem.idOf fs bytes = .error fault ∧ fs.openToWrite path = .error fault) ∨
      ∃ opened j, write ⟨path, i, FileSystem.idOf i⟩ FileSystem.idOf fs bytes =
          .ok (opened.append j bytes, ⟨path, j, FileSystem.idOf j⟩) ∧
        ((opened = fs ∧ fs.find path = .ok j) ∨ fs.openToWrite path = .ok (opened, j)) := by
  by_cases hfind : fs.find path = .ok i
  · exact .inr ⟨fs, i, write_of_find hfind bytes, .inl ⟨rfl, hfind⟩⟩
  · simp only [write, refresh, if_neg (mt isCurrent_idOf.mp hfind), openAt]
    cases hopen : fs.openToWrite path with
    | error fault => exact .inl ⟨fault, rfl, rfl⟩
    | ok r => exact .inr ⟨r.1, r.2, rfl, .inr rfl⟩

end WatchedFile

/-- What a step logs. -/
def SessionStep.events (s : Session) : SessionStep → List Event
  | .log e => [e]
  | .panic payload location => List.replicate s.panicLoggers (Session.panicEvent payload location)
  | .leave guard =>
    match s.files.enter guard.previous with
    | .ok _ => []
    | .error fault => [Session.lostEvent guard.previous fault]
  | _ => []

/-- The step logs or changes the working directory, and does nothing else. -/
def SessionStep.LogsOrMoves : SessionStep → Prop
  | .log _ => True
  | .panic _ _ => True
  | .enter _ => True
  | .leave _ => True
  | _ => False

namespace Session

variable {s s' s'' : Session}

/-- The bytes of events in a log file. -/
def bytesOf (s : Session) (events : List Event) : List UInt8 :=
  (events.filter fun e => s.enabled e.target e.level).flatMap fun e => Text.Utf8.encode (e.fileLine s.time ++ "\n")

/-- The bytes that a history writes to the log. -/
def written (s : Session) : List SessionStep → List UInt8
  | [] => []
  | next :: rest => s.bytesOf (next.events s) ++ (s.takeStep next).1.written rest

/-- The bytes that a history writes while the path of the log leads to a file. -/
def writtenTo (s : Session) (path : Path) (i : Nat) : List SessionStep → List UInt8
  | [] => []
  | next :: rest =>
    (if s.files.find path = .ok i then s.bytesOf (next.events s) else []) ++ (s.takeStep next).1.writtenTo path i rest

/-- Whenever a history writes to the log, the program is in a state with a property. -/
def WritesWhere (s : Session) (here : Session → Prop) (steps : List SessionStep) : Prop :=
  ∀ before next after, steps = before ++ next :: after →
    (s.takeSteps before).1.bytesOf (next.events (s.takeSteps before).1) ≠ [] → here (s.takeSteps before).1

/-- A log that is set up with a file gets all that a history logs into the file at its path, in order, and no other file is made
or changed. -/
def StaysInFile (s : Session) (path : Path) (steps : List SessionStep) : Prop :=
  ∃ i content, s.files.find path = .ok i ∧ s.files.content? i = some content ∧
    (s.takeSteps steps).1.files.inodes = s.files.inodes.set i (.file (content ++ s.written steps))

theorem writesWhere_nil (here : Session → Prop) : s.WritesWhere here [] := by
  intro before next after h
  simp at h

theorem writesWhere_cons {here : Session → Prop} {next : SessionStep} {rest : List SessionStep} :
    s.WritesWhere here (next :: rest) ↔
      (s.bytesOf (next.events s) ≠ [] → here s) ∧ (s.takeStep next).1.WritesWhere here rest := by
  constructor
  · intro h
    exact ⟨h [] next rest rfl, fun before later after hrest => h (next :: before) later after (by rw [hrest, List.cons_append])⟩
  · rintro ⟨hfirst, hrest⟩ before later after hsteps
    cases before with
    | nil =>
      obtain ⟨rfl, -⟩ := List.cons.inj hsteps
      exact hfirst
    | cons first before =>
      obtain ⟨rfl, hlater⟩ := List.cons.inj hsteps
      exact hrest before later after hlater

/-! ## Events -/

theorem bytesOf_nil (s : Session) : s.bytesOf [] = [] := rfl

theorem bytesOf_cons (s : Session) (e : Event) (events : List Event) :
    s.bytesOf (e :: events) = s.bytesOf [e] ++ s.bytesOf events := by
  rw [bytesOf, bytesOf, bytesOf, ← List.flatMap_append, ← List.filter_append, List.singleton_append]

theorem bytesOf_emit (s : Session) (e : Event) (events : List Event) : (s.emit e).bytesOf events = s.bytesOf events := by
  rcases emit_cases s e with ⟨console, record, h⟩ | ⟨subscriber, w, files, w', hsubscriber, -, -, -, h⟩
  · rw [h]
    rfl
  · rw [h]
    simp only [bytesOf, enabled, hsubscriber]

/-- A step enters or leaves a directory, or it does nothing but log. -/
theorem takeStep_cases (s : Session) {next : SessionStep} (hnext : next.LogsOrMoves) :
    (∃ i, (s.takeStep next).1 = { s with files := { s.files with working := i } } ∧ next.events s = []) ∨
      ∃ record, (s.takeStep next).1 = { s.emitAll (next.events s) with record := record } := by
  cases next with
  | setUp options => exact False.elim hnext
  | close => exact False.elim hnext
  | change c => exact False.elim hnext
  | log e => exact .inr ⟨_, rfl⟩
  | panic payload location => exact .inr ⟨_, rfl⟩
  | enter p =>
    rcases enter_cases s p with ⟨home, i, -, -, -, h⟩ | ⟨-, fault, h⟩
    · exact .inl ⟨i, by simp only [takeStep, h], rfl⟩
    · exact .inl ⟨s.files.working, by simp only [takeStep, h], rfl⟩
  | leave guard =>
    simp only [takeStep, leave, SessionStep.events]
    cases henter : s.files.enter guard.previous with
    | ok files =>
      obtain ⟨i, -, -, rfl⟩ := FileSystem.enter_eq_ok.mp henter
      exact .inl ⟨i, rfl, rfl⟩
    | error fault => exact .inr ⟨_, rfl⟩

/-! ## Events in a log file -/

/-- An event that passes is written to the file that is open. It is lost where the write fails. -/
theorem emit_of_sink {w : WatchedFile} (hsink : s.subscriber.map Subscriber.sink = some (.file w)) (e : Event) :
    (s.emit e = s ∧ (s.bytesOf [e] = [] ∨ ∃ fault, w.write FileSystem.idOf s.files (s.bytesOf [e]) = .error fault)) ∨
      s.bytesOf [e] ≠ [] ∧ ∃ w', w.write FileSystem.idOf s.files (s.bytesOf [e]) = .ok ((s.emit e).files, w') ∧
        (s.emit e).subscriber.map Subscriber.sink = some (.file w') := by
  obtain ⟨subscriber, hsubscriber, hsink⟩ := Option.map_eq_some_iff.mp hsink
  by_cases hpasses : subscriber.filter.passes e.target e.level = true
  · have hbytes : s.bytesOf [e] = Text.Utf8.encode (e.fileLine s.time ++ "\n") := by
      simp [bytesOf, enabled, hsubscriber, hpasses]
    have hne : s.bytesOf [e] ≠ [] := by
      rw [hbytes]
      exact Text.Utf8.encode_ne_nil (by simp)
    have hemit : s.emit e = s.deliver subscriber e := by simp only [emit, hsubscriber, hpasses, if_true]
    rw [hemit, deliver, hsink, ← hbytes]
    cases hwrite : w.write FileSystem.idOf s.files (s.bytesOf [e]) with
    | error fault => exact .inl ⟨by simp only [hwrite], .inr ⟨fault, rfl⟩⟩
    | ok r => exact .inr ⟨hne, r.2, by simp only [hwrite], by simp only [hwrite]; rfl⟩
  · have hbytes : s.bytesOf [e] = [] := by simp [bytesOf, enabled, hsubscriber, hpasses]
    exact .inl ⟨by simp only [emit, hsubscriber, if_neg hpasses], .inl hbytes⟩

variable {path : Path} {i : Nat}

/-! ## A log that stays -/

/-- The log goes to the file of a number, which is open for a path. -/
structure LogsTo (s : Session) (path : Path) (i : Nat) : Prop where
  file : (s.files.content? i).isSome = true
  sink : s.subscriber.map Subscriber.sink = some (.file ⟨path, i, FileSystem.idOf i⟩)

/-- An event is put at the end of the log file, where the path leads to it if there is something to write. -/
theorem grows_emit (hlogs : s.LogsTo path i) (e : Event) (hfind : s.bytesOf [e] ≠ [] → s.files.find path = .ok i) :
    s.files.Grows (s.emit e).files i (s.bytesOf [e]) ∧ (s.emit e).LogsTo path i := by
  rcases emit_of_sink hlogs.sink e with ⟨hemit, hnone⟩ | ⟨hne, w', hwrite, hsink⟩
  · have hbytes : s.bytesOf [e] = [] := by
      by_contra hne
      rcases hnone with hnil | ⟨fault, hwrite⟩
      · exact hne hnil
      · rw [WatchedFile.write_of_find (hfind hne)] at hwrite
        nomatch hwrite
    rw [hemit, hbytes]
    exact ⟨.nothing rfl, hlogs⟩
  · rw [WatchedFile.write_of_find (hfind hne)] at hwrite
    obtain ⟨hfiles, rfl⟩ := Prod.mk.inj (Except.ok.inj hwrite)
    have hgrows := FileSystem.Grows.append s.files i (s.bytesOf [e])
    rw [← hfiles]
    exact ⟨hgrows, by rw [← hfiles]; exact hgrows.isSome hlogs.file, hsink⟩

theorem grows_emitAll (hlogs : s.LogsTo path i) (events : List Event) (hfind : s.bytesOf events ≠ [] → s.files.find path = .ok i) :
    s.files.Grows (s.emitAll events).files i (s.bytesOf events) ∧ (s.emitAll events).LogsTo path i := by
  induction events generalizing s with
  | nil => exact ⟨.nothing rfl, hlogs⟩
  | cons e rest ih =>
    rw [bytesOf_cons] at hfind ⊢
    obtain ⟨hfirst, hlogs'⟩ := grows_emit hlogs e fun hne => hfind (List.append_ne_nil_of_left_ne_nil hne _)
    have hstart : (s.emit e).files.start path = s.files.start path := by
      rw [FileSystem.start, FileSystem.start, working_emit]
    have hsame := FileSystem.find_congr (hfirst.directory hlogs.file) hstart
    have hrest := ih hlogs' fun hne => by
      rw [bytesOf_emit] at hne
      rw [hsame]
      exact hfind (List.append_ne_nil_of_right_ne_nil _ hne)
    rw [bytesOf_emit] at hrest
    exact ⟨hfirst.trans hrest.1, hrest.2⟩

/-- A step puts what it logs at the end of the log file, where the path leads to it if there is something to write. -/
theorem grows_takeStep (hlogs : s.LogsTo path i) {next : SessionStep} (hnext : next.LogsOrMoves)
    (hfind : s.bytesOf (next.events s) ≠ [] → s.files.find path = .ok i) :
    s.files.Grows (s.takeStep next).1.files i (s.bytesOf (next.events s)) ∧ (s.takeStep next).1.LogsTo path i := by
  rcases takeStep_cases s hnext with ⟨working, h, hevents⟩ | ⟨record, h⟩
  · rw [h, hevents]
    exact ⟨.nothing rfl, hlogs.file, hlogs.sink⟩
  · obtain ⟨hgrows, hlogs'⟩ := grows_emitAll hlogs _ hfind
    rw [h]
    exact ⟨hgrows, hlogs'.file, hlogs'.sink⟩

/-- A history puts all that it logs at the end of the log file, where the path leads to it whenever there is something to write. -/
theorem grows_takeSteps (hlogs : s.LogsTo path i) {steps : List SessionStep} (hsteps : ∀ next ∈ steps, next.LogsOrMoves)
    (hplace : s.WritesWhere (fun t => t.files.find path = .ok i) steps) :
    s.files.Grows (s.takeSteps steps).1.files i (s.written steps) := by
  induction steps generalizing s with
  | nil => exact .nothing rfl
  | cons next rest ih =>
    rw [List.forall_mem_cons] at hsteps
    rw [writesWhere_cons] at hplace
    obtain ⟨hfirst, hlogs'⟩ := grows_takeStep hlogs hsteps.1 hplace.1
    exact hfirst.trans (ih hlogs' hsteps.2 hplace.2)

/-- A path leads to the log file whenever something is written, if it is absolute or the program is in the directory then from
which it leads there. -/
theorem writesWhere_find (hlogs : s.LogsTo path i) {dir : Nat}
    (hfind : FileSystem.find { s.files with working := dir } path = .ok i) {steps : List SessionStep}
    (hsteps : ∀ next ∈ steps, next.LogsOrMoves)
    (hplace : path.isAbsolute = true ∨ s.WritesWhere (fun t => t.files.working = dir) steps) :
    s.WritesWhere (fun t => t.files.find path = .ok i) steps := by
  induction steps generalizing s with
  | nil => exact writesWhere_nil _
  | cons next rest ih =>
    rw [List.forall_mem_cons] at hsteps
    rw [writesWhere_cons] at hplace ⊢
    have hhere : s.bytesOf (next.events s) ≠ [] → s.files.find path = .ok i := by
      intro hne
      have hstart : s.files.start path = FileSystem.start { s.files with working := dir } path := by
        rw [FileSystem.start, FileSystem.start]
        rcases hplace with habsolute | hdir
        · rw [if_pos habsolute, if_pos habsolute]
        · rw [hdir.1 hne]
      rw [← hfind]
      exact FileSystem.find_congr (fun _ => rfl) hstart
    obtain ⟨hfirst, hlogs'⟩ := grows_takeStep hlogs hsteps.1 hhere
    have hlater : FileSystem.find { (s.takeStep next).1.files with working := dir } path = .ok i := by
      rw [← hfind]
      exact FileSystem.find_congr (hfirst.directory hlogs.file) rfl
    exact ⟨hhere, ih hlogs' hlater hsteps.2 (hplace.imp_right And.right)⟩

/-! ## Any log -/

/-- The log is open for a path at which a file could be opened. -/
structure LogsAt (s : Session) (path : Path) : Prop where
  opened : ∃ fs r, FileSystem.openToWrite fs path = .ok r
  sink : ∃ i, s.subscriber.map Subscriber.sink = some (.file ⟨path, i, FileSystem.idOf i⟩)

/-- Of the files that are there, an event is put at the end of the one that the path of the log leads to. -/
theorem receives_emit (hlogs : s.LogsAt path) (e : Event) :
    s.files.Receives (s.emit e).files path (s.bytesOf [e]) ∧ (s.emit e).LogsAt path := by
  obtain ⟨⟨fs, r, hopened⟩, k, hsink⟩ := hlogs
  rcases emit_of_sink hsink e with ⟨hemit, hnone⟩ | ⟨-, w', hwrite, hsink'⟩
  · rw [hemit]
    refine ⟨?_, ⟨fs, r, hopened⟩, k, hsink⟩
    rcases hnone with hnil | ⟨fault, hwrite⟩
    · rw [hnil]
      exact .nothing _ _
    · refine .lost (fun hcontent hfind => ?_) _
      rcases WatchedFile.write_cases s.files path k (s.bytesOf [e]) with ⟨fault', -, hopen⟩ | ⟨_, _, hok, -⟩
      · rw [FileSystem.openToWrite_of_find hopened hfind (by rw [hcontent]; rfl)] at hopen
        nomatch hopen
      · rw [hwrite] at hok
        nomatch hok
  · rcases WatchedFile.write_cases s.files path k (s.bytesOf [e]) with ⟨fault, herror, -⟩ | ⟨opened, j, hok, hopen⟩
    · rw [hwrite] at herror
      nomatch herror
    · rw [hwrite] at hok
      obtain ⟨hfiles, rfl⟩ := Prod.mk.inj (Except.ok.inj hok)
      rw [hfiles]
      refine ⟨?_, ⟨fs, r, hopened⟩, j, hsink'⟩
      rcases hopen with ⟨rfl, hfind⟩ | hopen
      · exact .append_of_find hfind _
      · exact .append_of_openToWrite hopen _

theorem receives_emitAll (hlogs : s.LogsAt path) (events : List Event) :
    s.files.Receives (s.emitAll events).files path (s.bytesOf events) ∧ (s.emitAll events).LogsAt path := by
  induction events generalizing s with
  | nil => exact ⟨.nothing _ _, hlogs⟩
  | cons e rest ih =>
    obtain ⟨hfirst, hlogs'⟩ := receives_emit hlogs e
    obtain ⟨hrest, hlogs''⟩ := ih hlogs'
    rw [bytesOf_emit] at hrest
    rw [bytesOf_cons]
    exact ⟨hfirst.trans hrest, hlogs''⟩

/-- Of the files that are there, what a step logs is put at the end of the one that the path of the log leads to. -/
theorem content_takeStep (hlogs : s.LogsAt path) {next : SessionStep} (hnext : next.LogsOrMoves) {content : List UInt8}
    (hcontent : s.files.content? i = some content) :
    (s.takeStep next).1.files.content? i =
        some (content ++ if s.files.find path = .ok i then s.bytesOf (next.events s) else []) ∧
      (s.takeStep next).1.LogsAt path := by
  rcases takeStep_cases s hnext with ⟨working, h, hevents⟩ | ⟨record, h⟩
  · rw [h, hevents]
    refine ⟨?_, hlogs.opened, hlogs.sink⟩
    rw [bytesOf_nil, ite_self, List.append_nil, ← hcontent]
    rfl
  · obtain ⟨hreceives, hlogs'⟩ := receives_emitAll hlogs (next.events s)
    rw [h]
    exact ⟨hreceives.content hcontent, hlogs'.opened, hlogs'.sink⟩

/-- A file that is there gets what a history logs while the path of the log leads to it, in order, and nothing else. -/
theorem content_takeSteps (hlogs : s.LogsAt path) {steps : List SessionStep} (hsteps : ∀ next ∈ steps, next.LogsOrMoves)
    {content : List UInt8} (hcontent : s.files.content? i = some content) :
    (s.takeSteps steps).1.files.content? i = some (content ++ s.writtenTo path i steps) := by
  induction steps generalizing s content with
  | nil => rw [writtenTo, List.append_nil]; exact hcontent
  | cons next rest ih =>
    rw [List.forall_mem_cons] at hsteps
    obtain ⟨hfirst, hlogs'⟩ := content_takeStep hlogs hsteps.1 hcontent
    rw [writtenTo, ← List.append_assoc]
    exact ih hlogs' hsteps.2 hfirst

theorem length_writtenTo_le (s : Session) (path : Path) (i : Nat) (steps : List SessionStep) :
    (s.writtenTo path i steps).length ≤ (s.written steps).length := by
  induction steps generalizing s with
  | nil => exact Nat.le_refl _
  | cons next rest ih =>
    have hrest := ih (s.takeStep next).1
    rw [writtenTo, written, List.length_append, List.length_append]
    split
    · omega
    · rw [List.length_nil]
      omega

/-- Where a file gets all that a history writes, the path of the log leads to it whenever something is written. -/
theorem writesWhere_of_written {steps : List SessionStep} (h : s.written steps = s.writtenTo path i steps) :
    s.WritesWhere (fun t => t.files.find path = .ok i) steps := by
  induction steps generalizing s with
  | nil => exact writesWhere_nil _
  | cons next rest ih =>
    rw [written, writtenTo] at h
    rw [writesWhere_cons]
    by_cases hfind : s.files.find path = .ok i
    · rw [if_pos hfind] at h
      exact ⟨fun _ => hfind, ih (List.append_cancel_left h)⟩
    · -- What goes elsewhere is missing at the end, as nothing makes up for it.
      rw [if_neg hfind, List.nil_append] at h
      have hle := length_writtenTo_le (s.takeStep next).1 path i rest
      rw [← h, List.length_append] at hle
      have hnil : s.bytesOf (next.events s) = [] := List.eq_nil_of_length_eq_zero (by omega)
      rw [hnil, List.nil_append] at h
      exact ⟨fun hne => absurd hnil hne, ih h⟩

/-! ## A log that is set up with a file -/

/-- A log that is set up with a file is open for the path of the file, which leads to it. -/
theorem logsAt_of_setUp {options : LogOptions} {b : Bool} (h : s.setUp options = (s', .ok b)) (hfile : options.file = some path) :
    s'.LogsAt path ∧
      ∃ i, s'.files.find path = .ok i ∧ s'.subscriber.map Subscriber.sink = some (.file ⟨path, i, FileSystem.idOf i⟩) := by
  have htry := setsUp s options
  rw [h] at htry
  obtain ⟨made, -, r, hopen⟩ := (htry.succeeds.mp ⟨b, rfl⟩).2.1 path hfile
  obtain ⟨filter, sink, -, -, hsink, hset⟩ := htry.installed b rfl
  obtain ⟨i, rfl, hfind⟩ := hsink path hfile
  have hsink := congrArg (Option.map Subscriber.sink) (congrArg Session.subscriber hset)
  exact ⟨⟨⟨made, r, hopen⟩, i, hsink⟩, i, hfind, hsink⟩

/-- A log stays in the file that it was set up with, whatever directories the program enters and leaves, exactly where its path
leads to a file then and leads to the same one whenever something is written. It does so if the path is absolute, or if everything
is written from the directory in which the log was set up. In any case a file that is there gets what is written while the path
leads to it, in order, and nothing else. -/
theorem staysInFile_iff_of_setUp {options : LogOptions} {b : Bool} (h : s.setUp options = (s', .ok b))
    (hfile : options.file = some path) {steps : List SessionStep} (hsteps : ∀ next ∈ steps, next.LogsOrMoves) :
    (s'.StaysInFile path steps ↔
      s'.files.isFile path = true ∧ s'.WritesWhere (fun t => t.files.find path = s'.files.find path) steps) ∧
    (s'.files.isFile path = true →
      path.isAbsolute = true ∨ s'.WritesWhere (fun t => t.files.working = s'.files.working) steps → s'.StaysInFile path steps) ∧
    ∀ i content, s'.files.content? i = some content →
      (s'.takeSteps steps).1.files.content? i = some (content ++ s'.writtenTo path i steps) := by
  obtain ⟨hat, i, hfind, hsink⟩ := logsAt_of_setUp h hfile
  have hlogs : s'.files.isFile path = true → s'.LogsTo path i := fun hisFile =>
    ⟨(FileSystem.isFile_of_find hfind).symm.trans hisFile, hsink⟩
  have hstays : s'.files.isFile path = true → s'.WritesWhere (fun t => t.files.find path = .ok i) steps →
      s'.StaysInFile path steps := by
    intro hisFile hplace
    obtain ⟨content, hcontent⟩ := Option.isSome_iff_exists.mp (hlogs hisFile).file
    exact ⟨i, content, hfind, hcontent, grows_takeSteps (hlogs hisFile) hsteps hplace content hcontent⟩
  refine ⟨⟨?_, fun ⟨hisFile, hplace⟩ => hstays hisFile (by rwa [hfind] at hplace)⟩, fun hisFile hplace => ?_,
    fun _ _ hcontent => content_takeSteps hat hsteps hcontent⟩
  · rintro ⟨j, content, hj, hcontent, hinodes⟩
    obtain rfl : i = j := Except.ok.inj (hfind.symm.trans hj)
    have hgrows : s'.files.Grows (s'.takeSteps steps).1.files i (s'.written steps) := by
      intro content' hcontent'
      rw [Option.some.inj (hcontent'.symm.trans hcontent), hinodes]
    have hall := (hgrows.content hcontent).symm.trans (content_takeSteps hat hsteps hcontent)
    rw [FileSystem.isFile_of_find hfind, hcontent, hfind]
    exact ⟨rfl, writesWhere_of_written (List.append_cancel_left (Option.some.inj hall))⟩
  · exact hstays hisFile (writesWhere_find (hlogs hisFile) hfind hsteps hplace)

/-- An event that a log with the limit `info` lets pass. -/
def hello : Event := ⟨.info, "resume", "hello", []⟩

/-- Settings for a log file. -/
def loggingTo (path : Path) : LogOptions := ⟨"info", none, some path⟩

/-- A program in the root, which has the directory `d` in it, before its log is set up with the file `c` there. -/
def besideDirectory : Session :=
  Session.start ⟨[.directory ⟨0, [([100], 1)], false⟩, .directory ⟨0, [], false⟩], 0⟩ ""

/-- The same program with its log set up by a path of the file. -/
def loggingBeside (path : Path) : Session :=
  ⟨⟨[.directory ⟨0, [([100], 1), ([99], 2)], false⟩, .directory ⟨0, [], false⟩, .file []], 0⟩,
    some ⟨.ofLimits (.upTo .info) (.upTo .info), .file ⟨path, 2, FileSystem.idOf 2⟩⟩, 1, [], [], ""⟩

/-- The program writes after it has come back from `d`; with the path from the root it writes in `d` as well. -/
theorem staysInFile_iff_of_setUp_besideDirectory :
    besideDirectory.setUp (loggingTo ⟨[99]⟩) = (loggingBeside ⟨[99]⟩, .ok false) ∧
      (loggingBeside ⟨[99]⟩).StaysInFile ⟨[99]⟩ [.log hello, .enter ⟨[100]⟩, .leave ⟨⟨[47]⟩⟩, .log hello] ∧
    besideDirectory.setUp (loggingTo ⟨[47, 99]⟩) = (loggingBeside ⟨[47, 99]⟩, .ok false) ∧
      (loggingBeside ⟨[47, 99]⟩).StaysInFile ⟨[47, 99]⟩ [.enter ⟨[100]⟩, .log hello, .leave ⟨⟨[47]⟩⟩, .log hello] := by
  have hrelative : besideDirectory.setUp (loggingTo ⟨[99]⟩) = (loggingBeside ⟨[99]⟩, .ok false) := by decide +kernel
  have habsolute : besideDirectory.setUp (loggingTo ⟨[47, 99]⟩) = (loggingBeside ⟨[47, 99]⟩, .ok false) := by decide +kernel
  have hback : (loggingBeside ⟨[99]⟩).WritesWhere (fun t => t.files.working = (loggingBeside ⟨[99]⟩).files.working)
      [.log hello, .enter ⟨[100]⟩, .leave ⟨⟨[47]⟩⟩, .log hello] := by
    refine writesWhere_cons.mpr ⟨fun _ => rfl, writesWhere_cons.mpr ⟨fun hne => absurd rfl hne, ?_⟩⟩
    refine writesWhere_cons.mpr ⟨fun hne => absurd ?_ hne, writesWhere_cons.mpr ⟨fun _ => ?_, writesWhere_nil _⟩⟩
    · decide +kernel
    · decide +kernel
  refine ⟨hrelative, ?_, habsolute, ?_⟩
  · exact (staysInFile_iff_of_setUp hrelative rfl (by simp [SessionStep.LogsOrMoves])).2.1 rfl (.inr hback)
  · exact (staysInFile_iff_of_setUp habsolute rfl (by simp [SessionStep.LogsOrMoves])).2.1 rfl (.inl rfl)

/-- A log does not stay in its file in general: from another directory a path that is not absolute leads to another file, which is
made there. -/
theorem not_staysInFile :
    besideDirectory.setUp (loggingTo ⟨[99]⟩) = (loggingBeside ⟨[99]⟩, .ok false) ∧
      ¬(loggingBeside ⟨[99]⟩).StaysInFile ⟨[99]⟩ [.enter ⟨[100]⟩, .log hello] ∧
      ((loggingBeside ⟨[99]⟩).takeSteps [.enter ⟨[100]⟩, .log hello]).1.files.read ⟨[47, 99]⟩ = .ok [] ∧
      ((loggingBeside ⟨[99]⟩).takeSteps [.enter ⟨[100]⟩, .log hello]).1.files.read ⟨[47, 100, 47, 99]⟩ =
        .ok ((loggingBeside ⟨[99]⟩).written [.enter ⟨[100]⟩, .log hello]) := by
  refine ⟨by decide +kernel, ?_, by decide +kernel, by decide +kernel⟩
  rintro ⟨i, content, -, -, hinodes⟩
  have hlength : ((loggingBeside ⟨[99]⟩).takeSteps [.enter ⟨[100]⟩, .log hello]).1.files.inodes.length = 4 := by decide +kernel
  rw [hinodes, List.length_set] at hlength
  nomatch hlength

end Session

end ClusterConfig
