import ClusterConfig.Proofs.Aging
import ClusterConfig.Session.Scope

/-!
# Scoped changes of the working directory are undone

A part of a program that leaves its guards newest first ends in the directory that it began in, however it ends and whatever it
and the parts within it remove, as long as that directory is still there and its path can be followed. The invariant is `Anchored`:
the outermost guard that is held has the path of the start. Guards that are left in any other order go where their own paths lead.
-/

namespace ClusterConfig

open FileSystem (Ages)

/-! ## No step renames anything -/

namespace FileChange

/-- A change that moves nothing writes, makes directories or removes. -/
theorem apply_inPlace {fs : FileSystem} {p : FileSystem → Prop} (same : p fs)
    (write : ∀ path content fs', fs.write path content = .ok fs' → p fs')
    (make : ∀ path fs', fs.makeDirectory path = .ok fs' → p fs') (makeAll : ∀ path, p (fs.makeDirectories path).1)
    (removes : ∀ fs', fs.Removes fs' → p fs') {c : FileChange} (h : c.InPlace) : p (c.apply fs) := by
  cases c with
  | rename source destination => exact False.elim h
  | removeFile path => exact toOption_getD_of_ok same fun _ h => removes _ (FileSystem.removes_of_removeFile h)
  | put path content => exact toOption_getD_of_ok same (write path content)
  | makeDirectory path => exact toOption_getD_of_ok same (make path)
  | makeDirectories path => exact makeAll path
  | removeDirectory path => exact toOption_getD_of_ok same fun _ h => removes _ (FileSystem.removes_of_removeDirectory h)
  | removeTree path => exact toOption_getD_of_ok same fun _ h => removes _ (FileSystem.removes_of_removeTree h)

theorem ages {fs : FileSystem} (hfs : fs.WellFormed) {c : FileChange} (h : c.InPlace) : fs.Ages (c.apply fs) := by
  refine apply_inPlace (.refl hfs) ?_ ?_ ?_ ?_ h
  · exact fun path content fs' hwrite => .write hfs hwrite
  · exact fun path fs' hmake => .makeDirectory hfs hmake
  · exact fun path => .makeDirectories hfs path
  · exact fun fs' hremoves => .removes hfs hremoves

theorem working_apply {fs : FileSystem} {c : FileChange} (h : c.InPlace) : (c.apply fs).working = fs.working := by
  refine apply_inPlace (p := fun fs' => fs'.working = fs.working) rfl ?_ ?_ ?_ ?_ h
  · exact fun path content fs' hwrite => (FileSystem.extends_write hwrite).working
  · exact fun path fs' hmake => (FileSystem.extends_makeDirectory hmake).working
  · exact fun path => (FileSystem.extends_makeDirectories fs path).working
  · exact fun fs' hremoves => FileSystem.working_removes hremoves

end FileChange

/-- The step moves nothing to another name. -/
def SessionStep.InPlace : SessionStep → Prop
  | .change c => c.InPlace
  | _ => True

namespace Session

variable {s s' start : Session}

theorem ages_emit (hfs : s.files.WellFormed) (e : Event) : s.files.Ages (s.emit e).files := by
  rcases emit_cases s e with ⟨console, record, h⟩ | ⟨subscriber, w, files, w', -, -, -, hwrite, h⟩
  · rw [h]
    exact .refl hfs
  · rw [h]
    obtain ⟨opened, hopened, rfl⟩ := WatchedFile.write_eq_ok hwrite
    have hages : s.files.Ages opened := by
      rcases hopened with rfl | hopened
      · exact .refl hfs
      · exact .openToWrite hfs hopened
    exact hages.trans (.append hages.wellFormed _ _)

theorem ages_emitAll (hfs : s.files.WellFormed) (events : List Event) : s.files.Ages (s.emitAll events).files := by
  induction events generalizing s with
  | nil => exact .refl hfs
  | cons e rest ih =>
    have hfirst := ages_emit hfs e
    exact hfirst.trans (ih hfirst.wellFormed)

theorem ages_panic (hfs : s.files.WellFormed) (payload : Option String) (location : String) :
    s.files.Ages (s.panic payload location).files :=
  ages_emitAll hfs (List.replicate s.panicLoggers (panicEvent payload location))

theorem ages_enter (hfs : s.files.WellFormed) (p : Path) : s.files.Ages (s.enter p).1.files := by
  rcases enter_cases s p with ⟨home, i, -, -, hi, h⟩ | ⟨-, fault, h⟩
  · rw [h]
    exact .of_directory hfs rfl (fun _ => rfl) hi
  · rw [h]
    exact .refl hfs

theorem ages_leave (hfs : s.files.WellFormed) (guard : DirectoryGuard) : s.files.Ages (s.leave guard).files := by
  unfold leave
  split
  · rename_i files henter
    exact .enter hfs henter
  · exact ages_emit hfs _

theorem ages_leaveAll (hfs : s.files.WellFormed) (guards : List DirectoryGuard) : s.files.Ages (s.leaveAll guards).files := by
  induction guards generalizing s with
  | nil => exact .refl hfs
  | cons guard rest ih =>
    have hfirst := ages_leave hfs guard
    exact hfirst.trans (ih hfirst.wellFormed)

/-! ## The way back -/

/-- The path that the working directory had at the start, if it had one, leads to it still. -/
def LeadsBack (start s : Session) : Prop :=
  ∀ home, start.files.workingPath = .ok home → s.files.find home = .ok start.files.working

/-- A path that leads back has led back all the time. -/
theorem LeadsBack.before (hstart : start.files.WellFormed) (h : start.files.Ages s.files) (h' : s.files.Ages s'.files)
    (hback : LeadsBack start s') : LeadsBack start s := by
  intro home hhome
  obtain ⟨names, rfl, hnames, -⟩ := FileSystem.exists_names_of_workingPath hstart hhome
  obtain ⟨hlength, hdescend⟩ := (FileSystem.find_absolute hnames h'.wellFormed.root).mp (hback _ hhome)
  obtain ⟨d, hd⟩ := Option.isSome_iff_exists.mp (h.isSome hstart.working)
  refine (FileSystem.find_absolute hnames h.wellFormed.root).mpr ⟨hlength, ?_⟩
  exact h'.descend_before h.wellFormed hdescend (FileSystem.lt_length_of_directory hd)

/-- The path of a directory that has not been removed leads back to it, unless it is too long to be followed. -/
theorem LeadsBack.of_stands (hstart : start.files.WellFormed) (h : start.files.Ages s.files)
    (hlength : ∀ home, start.files.workingPath = .ok home → home.bytes.length ≤ FileSystem.maxPathLength)
    (hstands : s.files.Stands start.files.working) : LeadsBack start s := by
  intro home hhome
  have hlength := hlength home hhome
  obtain ⟨names, rfl, hnames, hdescend⟩ := FileSystem.exists_names_of_workingPath hstart hhome
  exact (FileSystem.find_absolute hnames h.wellFormed.root).mpr ⟨hlength, h.kept hstart.working hdescend hstands⟩

/-- Between the start of a part of a program and its end: as long as the path of the start leads back there, the part is at the
start where it holds no guard, and the outermost guard that it holds has that path. -/
structure Anchored (start : Session) (held : List DirectoryGuard) (s : Session) : Prop where
  ages : start.files.Ages s.files
  home : LeadsBack start s → held = [] → s.files.working = start.files.working
  outermost : LeadsBack start s → ∀ guard, held.getLast? = some guard → start.files.workingPath = .ok guard.previous

namespace Anchored

variable {held : List DirectoryGuard} {guard : DirectoryGuard}

theorem refl (hstart : start.files.WellFormed) : Anchored start [] start :=
  ⟨.refl hstart, fun _ _ => rfl, fun _ _ h => nomatch h⟩

/-- What does not touch the guards and, where there is none, stays in the directory. -/
theorem step (hstart : start.files.WellFormed) (h : Anchored start held s) (hages : s.files.Ages s'.files)
    (hworking : held = [] → s'.files.working = s.files.working) : Anchored start held s' := by
  have hbefore : LeadsBack start s' → LeadsBack start s := .before hstart h.ages hages
  exact ⟨h.ages.trans hages, fun hback hheld => (hworking hheld).trans (h.home (hbefore hback) hheld),
    fun hback => h.outermost (hbefore hback)⟩

theorem enter (hstart : start.files.WellFormed) (h : Anchored start held s) {p : Path} (henter : s.enter p = (s', .ok guard)) :
    Anchored start (guard :: held) s' := by
  have hages := ages_enter h.ages.wellFormed p
  rw [henter] at hages
  refine ⟨h.ages.trans hages, fun _ hnil => (nomatch hnil), fun hback outer houter => ?_⟩
  have hback := LeadsBack.before hstart h.ages hages hback
  cases held with
  | nil =>
    -- The first guard has the path that the directory of the start has now; it had the same one then.
    rcases enter_cases s p with ⟨home, i, hhome, -, -, henter'⟩ | ⟨-, fault, henter'⟩
    · rw [henter] at henter'
      obtain ⟨-, hguard⟩ := Prod.mk.inj henter'
      obtain rfl : guard = outer := by simpa using houter
      rw [Except.ok.inj hguard]
      obtain ⟨names, hspelled, rfl⟩ := (FileSystem.workingPath_eq_ok h.ages.wellFormed).mp hhome
      rw [h.home hback rfl] at hspelled
      exact (FileSystem.workingPath_eq_ok hstart).mpr ⟨names, h.ages.spelled_before hstart hspelled hstart.working, rfl⟩
    · rw [henter] at henter'
      nomatch henter'
  | cons next rest =>
    rw [List.getLast?_cons_cons] at houter
    exact h.outermost hback outer houter

theorem leave (hstart : start.files.WellFormed) (h : Anchored start (guard :: held) s) : Anchored start held (s.leave guard) := by
  have hages := ages_leave h.ages.wellFormed guard
  refine ⟨h.ages.trans hages, fun hback hnil => ?_, fun hback outer houter => ?_⟩
  · have hback := LeadsBack.before hstart h.ages hages hback
    rw [hnil] at h
    have hfind := hback _ (h.outermost hback guard rfl)
    rw [leave_of_find hfind (h.ages.isSome hstart.working)]
  · have hback := LeadsBack.before hstart h.ages hages hback
    cases held with
    | nil => nomatch houter
    | cons next rest => exact h.outermost hback outer (by rw [List.getLast?_cons_cons]; exact houter)

theorem leaveAll (hstart : start.files.WellFormed) (h : Anchored start held s) : Anchored start [] (s.leaveAll held) := by
  induction held generalizing s with
  | nil => exact h
  | cons guard rest ih => exact ih (h.leave hstart)

end Anchored

end Session

/-! ## Programs -/

namespace Scoped

open Session

variable {s start : Session}

theorem ages_run (program : Scoped) (held : List DirectoryGuard) (hfs : s.files.WellFormed) :
    s.files.Ages (program.run held s).1.files := by
  induction program generalizing held s with
  | finish how => exact ages_leaveAll hfs held
  | panic payload location =>
    have hpanic := ages_panic hfs payload location
    exact hpanic.trans (ages_leaveAll hpanic.wellFormed held)
  | change c inPlace next ih =>
    have hchange := FileChange.ages hfs inPlace
    exact hchange.trans (ih (s := { s with files := c.apply s.files }) held hchange.wellFormed)
  | log e next ih =>
    have hlog := ages_emit hfs e
    exact hlog.trans (ih held hlog.wellFormed)
  | enter p next ih =>
    have henter := ages_enter hfs p
    rw [run]
    split
    · rename_i s' guard h
      rw [h] at henter
      exact henter.trans (ih none (guard :: held) henter.wellFormed)
    · rename_i s' fault h
      rw [h] at henter
      exact henter.trans (ih (some fault) held henter.wellFormed)
  | drop next ih =>
    cases held with
    | nil => exact ih [] hfs
    | cons guard rest =>
      have hleave := ages_leave hfs guard
      exact hleave.trans (ih rest hleave.wellFormed)
  | within p body next ihbody ihnext =>
    rw [run]
    rcases within_cases s p (body.run []) with ⟨s', guard, h, hwithin⟩ | ⟨fault, hwithin⟩
    · have henter := ages_enter hfs p
      rw [h] at henter
      have hbody := ihbody [] henter.wellFormed
      have hleave := ages_leave hbody.wellFormed guard
      rw [hwithin]
      exact (henter.trans (hbody.trans hleave)).trans (ihnext _ held hleave.wellFormed)
    · rw [hwithin]
      exact ihnext _ held hfs

/-- A part of a program has left all its guards at its end, the outermost one last. -/
theorem anchored_run (hstart : start.files.WellFormed) (program : Scoped) {held : List DirectoryGuard}
    (h : Anchored start held s) : Anchored start [] (program.run held s).1 := by
  induction program generalizing held s with
  | finish how => exact h.leaveAll hstart
  | panic payload location =>
    have hpanic := ages_panic h.ages.wellFormed payload location
    exact (h.step hstart hpanic fun _ => working_panic s payload location).leaveAll hstart
  | change c inPlace next ih =>
    exact ih (h.step hstart (FileChange.ages h.ages.wellFormed inPlace) fun _ => FileChange.working_apply inPlace)
  | log e next ih => exact ih (h.step hstart (ages_emit h.ages.wellFormed e) fun _ => working_emit s e)
  | enter p next ih =>
    rw [run]
    split
    · rename_i s' guard henter
      exact ih none (h.enter hstart henter)
    · rename_i s' fault henter
      rcases enter_cases s p with ⟨home, i, -, -, -, henter'⟩ | ⟨-, fault', henter'⟩
      · rw [henter] at henter'
        nomatch henter'
      · rw [henter] at henter'
        rw [(Prod.mk.inj henter').1]
        exact ih (some fault) h
  | drop next ih =>
    cases held with
    | nil => exact ih h
    | cons guard rest => exact ih (h.leave hstart)
  | within p body next ihbody ihnext =>
    rw [run]
    rcases within_cases s p (body.run []) with ⟨s', guard, henter, hwithin⟩ | ⟨fault, hwithin⟩
    · rw [hwithin]
      have hinside := h.enter hstart henter
      -- The body has guards of its own and leaves this one alone.
      have hbody := ages_run body [] hinside.ages.wellFormed
      exact ihnext _ ((hinside.step hstart hbody fun hnil => nomatch hnil).leave hstart)
    · rw [hwithin]
      exact ihnext _ h

end Scoped

/-! ## Histories -/

namespace Session

variable {s start : Session}

theorem ages_makeLogDirectory {fs : FileSystem} (hfs : fs.WellFormed) (file : Path) : fs.Ages (makeLogDirectory fs file).1 := by
  unfold makeLogDirectory
  split
  · exact .refl hfs
  · rename_i above _
    have hmade := Ages.makeDirectories hfs above
    split
    · exact .refl hfs
    · split
      · rename_i made h
        rwa [h] at hmade
      · rename_i made fault h
        rwa [h] at hmade

theorem ages_openSink {fs : FileSystem} (hfs : fs.WellFormed) (options : LogOptions) : fs.Ages (openSink fs options).1 := by
  unfold openSink openLog
  cases options.file with
  | none => exact .refl hfs
  | some file =>
    have hmade := ages_makeLogDirectory hfs file
    rcases hmake : makeLogDirectory fs file with ⟨made, e | ⟨⟩⟩
    · rw [hmake] at hmade
      simpa only [hmake] using hmade
    · rw [hmake] at hmade
      cases hopen : WatchedFile.openAt FileSystem.idOf made file with
      | error fault => simpa only [hmake, hopen] using hmade
      | ok r =>
        obtain ⟨⟨opened, i⟩, hfile, hr⟩ := bind_eq_ok.mp hopen
        obtain rfl := pure_eq_ok.mp hr
        simpa only [hmake, hopen] using hmade.trans (.openToWrite hmade.wellFormed hfile)

theorem ages_setUp (hfs : s.files.WellFormed) (options : LogOptions) : s.files.Ages (s.setUp options).1.files := by
  have hopen := ages_openSink hfs options
  unfold setUp
  split
  · exact .refl hfs
  · split
    · rename_i h
      rwa [h] at hopen
    · rename_i h
      rw [h] at hopen
      split
      · exact hopen
      · exact hopen

theorem ages_takeStep (hfs : s.files.WellFormed) {next : SessionStep} (h : next.InPlace) :
    s.files.Ages (s.takeStep next).1.files := by
  cases next with
  | setUp options => exact ages_setUp hfs options
  | close => exact .refl hfs
  | log e => exact ages_emit hfs e
  | panic payload location => exact ages_panic hfs payload location
  | enter p => exact ages_enter hfs p
  | leave guard => exact ages_leave hfs guard
  | change c => exact FileChange.ages hfs h

theorem ages_takeSteps (hfs : s.files.WellFormed) {steps : List SessionStep} (h : ∀ next ∈ steps, next.InPlace) :
    s.files.Ages (s.takeSteps steps).1.files := by
  induction steps generalizing s with
  | nil => exact .refl hfs
  | cons next rest ih =>
    rw [List.forall_mem_cons] at h
    have hfirst := ages_takeStep hfs h.1
    exact hfirst.trans (ih hfirst.wellFormed h.2)

/-- What entering a directory does: where it fails, nothing changes and there is no guard; where it does not, only the working
directory changes, to the one entered, and the guard has the path of the one before. -/
def Enters (s : Session) (p : Path) : Prop :=
  (∃ fault, s.enter p = (s, .error fault) ∧
      ¬∃ home i, s.files.workingPath = .ok home ∧ s.files.find p = .ok i ∧ (s.files.directory? i).isSome = true) ∨
    ∃ home i, s.files.workingPath = .ok home ∧ s.files.find p = .ok i ∧ (s.files.directory? i).isSome = true ∧
      s.enter p = ({ s with files := { s.files with working := i } }, .ok ⟨home⟩)

/-- The working directory is the one of the start: wherever the path of that leads back to it, and wherever it has not been
removed and its path, if it had one, is not too long to be followed. -/
structure Restored (start s : Session) : Prop where
  leadsBack : LeadsBack start s → s.files.working = start.files.working
  stands : s.files.Stands start.files.working →
    (∀ home, start.files.workingPath = .ok home → home.bytes.length ≤ FileSystem.maxPathLength) →
    s.files.working = start.files.working

/-- What leaving by a guard does that was got in a directory: it goes to the directory at the path that was noted, which is that
directory as long as it has not been removed, and stays where there is none. -/
structure GoesBack (start : Session) (guard : DirectoryGuard) (s s' : Session) : Prop where
  noted : start.files.workingPath = .ok guard.previous
  goes : ∀ i, s.files.find guard.previous = .ok i → (s.files.directory? i).isSome = true →
    s' = { s with files := { s.files with working := i } }
  stays : (¬∃ i, s.files.find guard.previous = .ok i ∧ (s.files.directory? i).isSome = true) →
    s'.files.working = s.files.working
  stands : s.files.Stands start.files.working → guard.previous.bytes.length ≤ FileSystem.maxPathLength →
    s'.files.working = start.files.working

/-- Changes of the working directory are undone. Entering a directory either fails and leaves everything as it is, or gives a
guard. A part of a program that leaves its guards newest first ends where it began, whether it returns or panics and whatever has
failed or been removed on the way, as long as that directory is there and its path is not too long to be followed. A guard that is
left at any other time goes to the directory that its path leads to then and stays where the path leads to none; the path leads to
the directory that the guard was got in as long as that is there and the path is not too long. -/
theorem restored_of_scopes (start : Session) (hstart : start.files.WellFormed) :
    (∀ p, start.Enters p) ∧
    (∀ program : Scoped, ∃ s how, program.run [] start = (s, how) ∧ Restored start s) ∧
    ∀ p entered guard steps, start.enter p = (entered, .ok guard) → (∀ next ∈ steps, SessionStep.InPlace next) →
      ∃ s answers, entered.takeSteps steps = (s, answers) ∧ GoesBack start guard s (s.leave guard) := by
  refine ⟨fun p => ?_, fun program => ?_, fun p entered guard steps henter hsteps => ?_⟩
  · rcases enter_cases start p with ⟨home, i, hhome, hfind, hi, h⟩ | ⟨hnone, fault, h⟩
    · exact .inr ⟨home, i, hhome, hfind, hi, h⟩
    · exact .inl ⟨fault, h, hnone⟩
  · have hend := program.anchored_run hstart (.refl hstart)
    refine ⟨_, _, rfl, fun hback => hend.home hback rfl, fun hstands hlength => ?_⟩
    exact hend.home (.of_stands hstart hend.ages hlength hstands) rfl
  · have hages := ages_enter hstart p
    rw [henter] at hages
    have hages := hages.trans (ages_takeSteps hages.wellFormed hsteps)
    have hnoted : start.files.workingPath = .ok guard.previous := by
      rcases enter_cases start p with ⟨home, i, hhome, -, -, h⟩ | ⟨-, fault, h⟩
      · rw [henter] at h
        rw [hhome, Except.ok.inj (Prod.mk.inj h).2]
      · rw [henter] at h
        nomatch h
    refine ⟨_, _, rfl, hnoted, fun i hfind hi => leave_of_find hfind hi, working_leave_of_lost, fun hstands hlength => ?_⟩
    have hback : LeadsBack start (entered.takeSteps steps).1 := .of_stands hstart hages
      (fun home hhome => by rw [← Except.ok.inj (hnoted.symm.trans hhome)]; exact hlength) hstands
    rw [leave_of_find (hback _ hnoted) (hages.isSome hstart.working)]

/-- A program in the directory `a`, which has the directory `b` in it. -/
def inNested : Session := Session.start ⟨[.directory ⟨0, [([97], 1)], false⟩, .directory ⟨0, [([98], 2)], false⟩,
  .directory ⟨1, [], false⟩], 1⟩ ""

/-- Work in `b` that goes on to the root, removes `b` and panics. -/
def workInNested : Scoped :=
  .within ⟨[98]⟩ (.enter ⟨[47]⟩ fun _ => .change (.removeTree ⟨[97, 47, 98]⟩) trivial (.panic none "")) fun _ =>
    .finish .returned

theorem wellFormed_inNested : inNested.files.WellFormed := .of_numbers id rfl rfl (by decide)

theorem restored_of_scopes_inNested :
    inNested.files.WellFormed ∧ (workInNested.run [] inNested).1.files.working = 1 ∧
      ∃ entered guard, inNested.enter ⟨[98]⟩ = (entered, .ok guard) ∧
        ((entered.takeSteps [.change (.removeTree ⟨[47, 97, 47, 98]⟩)]).1.leave guard).files.working = 1 := by
  obtain ⟨-, hprograms, hguards⟩ := restored_of_scopes inNested wellFormed_inNested
  refine ⟨wellFormed_inNested, ?_, _, _, rfl, ?_⟩
  · obtain ⟨s, how, hrun, hrestored⟩ := hprograms workInNested
    rw [hrun]
    have hs : (workInNested.run [] inNested).1 = s := by rw [hrun]
    exact hrestored.stands (hs ▸ ⟨_, rfl, rfl⟩) (fun home hhome => by cases hhome; decide)
  · obtain ⟨s, answers, hsteps, hback⟩ := hguards ⟨[98]⟩ _ _ [.change (.removeTree ⟨[47, 97, 47, 98]⟩)] rfl
      (List.forall_mem_singleton.mpr trivial)
    rw [hsteps]
    have hs : (inNested.enter ⟨[98]⟩).1.takeSteps [.change (.removeTree ⟨[47, 97, 47, 98]⟩)] = (s, answers) := hsteps
    exact hback.stands (by cases hs; exact ⟨_, rfl, rfl⟩) (by decide)

/-- A program in the innermost of sixteen directories, each in the one before it under a name of 255 bytes; the path of the last one
has 4096 bytes. -/
def inDeep : Session :=
  Session.start ⟨(List.range 17).map fun i => .directory ⟨i - 1,
    if i < 16 then [(List.replicate FileSystem.maxNameLength 97, i + 1)] else [], false⟩, 16⟩ ""

/-- A program that goes to the root and back. -/
def visitRoot : Scoped := .within ⟨[47]⟩ (.finish .returned) fun _ => .finish .returned

/-- Changes of the working directory are not undone in general. A program does not come back to a directory whose path is too long,
although the directory is there. A guard goes to a directory that has taken the place of the one it was got in, although that one
has been removed. -/
theorem not_restored_of_scopes :
    (inDeep.files.WellFormed ∧ ∃ s how, visitRoot.run [] inDeep = (s, how) ∧ s.files.Stands inDeep.files.working ∧
      s.files.working ≠ inDeep.files.working) ∧
    inNested.files.WellFormed ∧ ∃ inside outer above inner s answers, inNested.enter ⟨[98]⟩ = (inside, .ok outer) ∧
      inside.enter ⟨[46, 46]⟩ = (above, .ok inner) ∧
      above.takeSteps [.change (.removeTree ⟨[98]⟩), .change (.makeDirectory ⟨[98]⟩), .leave outer] = (s, answers) ∧
      ¬s.files.Stands inside.files.working ∧ (s.leave inner).files.working ≠ s.files.working := by
  refine ⟨⟨.of_numbers id rfl rfl (by decide +kernel), _, _, rfl, ⟨⟨15, [], false⟩, ?_, rfl⟩, ?_⟩,
    wellFormed_inNested, _, _, _, _, _, _, rfl, rfl, rfl, ?_, ?_⟩
  · decide +kernel
  · decide +kernel
  · rintro ⟨d, hd, hremoved⟩
    cases hd
    nomatch hremoved
  · decide

end Session

end ClusterConfig
