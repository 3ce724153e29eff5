import ClusterConfig.Command.Shell.Running
import ClusterConfig.FileSystem.Standard
import ClusterConfig.Proofs.LossyText
import ClusterConfig.Proofs.Outcome
import ClusterConfig.Session.Command

/-!
# Where the output of a command goes

A command that is only started shows its output. A command that is run shows none: what it writes is collected, whether the caller
asks for it or not. So a run loses no output where the caller asks for it or there is none, and all of it everywhere else. What
becomes of a command by itself is `Command.run_of_starts` and `Command.spawn_of_starts`; in a session with its log it is
`Session.run_losesNothing_iff`.
-/

namespace ClusterConfig

namespace Command

variable {launch : Launcher} {files : FileSystem} {line : String} {shell : Bool} {c : Command} {o : Outcome}

/-! ## Lines that start a program -/

/-- The command line starts a program, by its words or by a shell, and this is what the program does. -/
inductive Starts (launch : Launcher) (files : FileSystem) (line : String) : Bool → Outcome → Prop where
  | words {name : String} {arguments : List String} {o : Outcome} (hsplit : CommandLine.split? line = some (name :: arguments))
    (hlaunch : launch files (name :: arguments) = .ok o) : Starts launch files line false o
  | shell {o : Outcome} (hlaunch : launch files ["sh", "-c", line] = .ok o) : Starts launch files line true o

theorem ofLine_eq_ok : ofLine line shell = .ok c ↔
    (shell = true ∧ c = ⟨["sh", "-c", line], none⟩) ∨
      (shell = false ∧ ∃ name arguments, CommandLine.split? line = some (name :: arguments) ∧ c = ⟨name :: arguments, none⟩) := by
  cases shell with
  | true => simp [ofLine, eq_comm]
  | false =>
    rw [ofLine, if_neg Bool.false_ne_true]
    split
    · simp [*]
    · simp [*]
    · rename_i words hne hsplit
      obtain ⟨name, arguments, rfl⟩ := List.exists_cons_of_ne_nil hne
      simp [hsplit, eq_comm]

/-- A line starts a program exactly where it has a command whose words do. -/
theorem starts_iff : Starts launch files line shell o ↔ ∃ c, ofLine line shell = .ok c ∧ launch files c.words = .ok o := by
  constructor
  · rintro (⟨hsplit, hlaunch⟩ | ⟨hlaunch⟩)
    · exact ⟨_, ofLine_eq_ok.mpr (.inr ⟨rfl, _, _, hsplit, rfl⟩), hlaunch⟩
    · exact ⟨_, ofLine_eq_ok.mpr (.inl ⟨rfl, rfl⟩), hlaunch⟩
  · rintro ⟨c, hline, hlaunch⟩
    rcases ofLine_eq_ok.mp hline with ⟨rfl, rfl⟩ | ⟨rfl, name, arguments, hsplit, rfl⟩
    · exact .shell hlaunch
    · exact .words hsplit hlaunch

/-- The command of a line says nothing about where its output goes. -/
theorem route_of_ofLine (h : ofLine line shell = .ok c) : c.route = none := by
  rcases ofLine_eq_ok.mp h with ⟨-, rfl⟩ | ⟨-, _, _, -, rfl⟩
  · rfl
  · rfl

/-- A run collects the output of the command of a line, whether the caller asks for it or not. -/
theorem runToEnd_of_ofLine (h : ofLine line shell = .ok c) (capture : Bool) :
    (if capture = true then { c with route := some .collected } else c).runToEnd launch files = c.start launch files .collected := by
  split
  · rfl
  · rw [runToEnd, route_of_ofLine h, Option.getD_none]

theorem begin_of_ofLine (h : ofLine line shell = .ok c) : c.begin launch files = c.start launch files .inherited := by
  rw [begin, route_of_ofLine h, Option.getD_none]

/-! ## What a line that starts does -/

/-- What the caller of a run is told. -/
def answer (line : String) (options : RunOptions) (o : Outcome) : Except Error Completed :=
  if options.check && !o.status.success then .error (.commandFailed line o.status)
  else .ok ⟨o.status, if options.capture then some (Text.Utf8.lossy o.output) else none⟩

theorem output_of_answer {options : RunOptions} {completed : Completed} (h : answer line options o = .ok completed) :
    completed.output = if options.capture then some (Text.Utf8.lossy o.output) else none := by
  rw [answer] at h
  split at h
  · nomatch h
  · rw [← Except.ok.inj h]

/-- A run shows nothing of what the command writes. -/
theorem run_of_starts {options : RunOptions} (h : Starts launch files line options.shell o) :
    run launch files line options = .ok (⟨o.files, [], o.output, o.status, options.wait⟩, answer line options o) := by
  obtain ⟨c, hline, hlaunch⟩ := starts_iff.mp h
  have hstart : c.start launch files .collected = .ok ⟨o.files, [], o.output, o.status, 0⟩ := by rw [start, hlaunch]; rfl
  simp only [run, hline, bind, Except.bind]
  rw [runToEnd_of_ofLine hline, hstart, answer]
  dsimp only
  split <;> rfl

/-- A command that is only started shows all that it writes. -/
theorem spawn_of_starts {options : SpawnOptions} (h : Starts launch files line options.shell o) :
    spawn launch files line options = .ok ⟨o.files, o.output, [], o.status, 0⟩ := by
  obtain ⟨c, hline, hlaunch⟩ := starts_iff.mp h
  have hstart : c.start launch files .inherited = .ok ⟨o.files, o.output, [], o.status, 0⟩ := by rw [start, hlaunch]; rfl
  simp only [spawn, hline, bind, Except.bind]
  rw [begin_of_ofLine hline, hstart]
  rfl

end Command

namespace Session

variable {s : Session} {launch : Launcher} {line : String} {o : Outcome}

theorem run_of_starts {options : RunOptions}
    (h : Command.Starts launch (s.announce options.quiet "run" line).files line options.shell o) :
    s.run launch line options = ({ s.announce options.quiet "run" line with files := o.files }, Command.answer line options o) := by
  rw [run]
  simp only [Command.run_of_starts h, absorb, List.append_nil]

theorem spawn_of_starts {options : SpawnOptions}
    (h : Command.Starts launch (s.announce options.quiet "spawn" line).files line options.shell o) :
    s.spawn launch line options = ({ s.announce options.quiet "spawn" line with
      files := o.files, console := (s.announce options.quiet "spawn" line).console ++ o.output }, .ok o.status) := by
  rw [spawn]
  simp only [Command.spawn_of_starts h, absorb]

/-- A run of a command that writes the bytes loses none of them. Where the caller does not ask for them they are shown after the
announcement, as if the command had only been started, and the answer has no output. Where the caller does, none are shown, and
an answer that is no error has them as text. -/
structure LosesNothing (s : Session) (launch : Launcher) (line : String) (options : RunOptions) (bytes : List UInt8) : Prop where
  shown : options.capture = false →
    (s.run launch line options).1.console = (s.announce options.quiet "run" line).console ++ bytes
  asStarted : options.capture = false → (s.run launch line options).1.console =
    ((s.announce options.quiet "run" line).spawn launch line ⟨true, options.shell⟩).1.console
  absent : options.capture = false → ∀ completed, (s.run launch line options).2 = .ok completed → completed.output = none
  hidden : options.capture = true →
    (s.run launch line options).1.console = (s.announce options.quiet "run" line).console
  collected : options.capture = true → ∀ completed, (s.run launch line options).2 = .ok completed →
    completed.output = some (Text.Utf8.lossy bytes)

/-- Where the caller does not ask for it, only a run without output loses nothing. -/
theorem LosesNothing.output_eq_nil {options : RunOptions} {bytes : List UInt8} (h : s.LosesNothing launch line options bytes)
    (hstarts : Command.Starts launch (s.announce options.quiet "run" line).files line options.shell o)
    (hcapture : options.capture = false) : bytes = [] := by
  have hshown := h.shown hcapture
  rw [run_of_starts hstarts] at hshown
  exact List.self_eq_append_right.mp hshown

/-- A run loses nothing where the caller asks for the output or there is none. -/
theorem losesNothing_of_starts {options : RunOptions}
    (h : Command.Starts launch (s.announce options.quiet "run" line).files line options.shell o)
    (hkept : options.capture = true ∨ o.output = []) : s.LosesNothing launch line options o.output := by
  have hempty : options.capture = false → o.output = [] := by
    intro hcapture
    rw [hcapture] at hkept
    exact hkept.resolve_left Bool.false_ne_true
  have hanswer : ∀ completed, (s.run launch line options).2 = .ok completed →
      completed.output = if options.capture then some (Text.Utf8.lossy o.output) else none := by
    intro completed hcompleted
    rw [run_of_starts h] at hcompleted
    exact Command.output_of_answer hcompleted
  have hspawn : ((s.announce options.quiet "run" line).spawn launch line ⟨true, options.shell⟩).1.console =
      (s.announce options.quiet "run" line).console ++ o.output := by
    rw [spawn_of_starts h]
    rfl
  exact
  { shown := fun hcapture => by rw [run_of_starts h, hempty hcapture, List.append_nil]
    asStarted := fun hcapture => by rw [run_of_starts h, hspawn, hempty hcapture, List.append_nil]
    absent := fun hcapture completed hcompleted => by rw [hanswer completed hcompleted, hcapture]; rfl
    hidden := fun _ => by rw [run_of_starts h]
    collected := fun hcapture completed hcompleted => by rw [hanswer completed hcompleted, hcapture]; rfl }

/-- A run of a line that starts a program shows nothing but the announcement. The caller is told the status and, where it asks, what
the program wrote as text; this text has the very bytes where they are those of a text. The same command when it is only started
shows all that the program writes. So a run loses nothing exactly where the caller asks for the output or there is none. -/
theorem run_losesNothing_iff {options : RunOptions}
    (h : Command.Starts launch (s.announce options.quiet "run" line).files line options.shell o) :
    (s.LosesNothing launch line options o.output ↔ options.capture = true ∨ o.output = []) ∧
      s.run launch line options =
        ({ s.announce options.quiet "run" line with files := o.files }, Command.answer line options o) ∧
      (s.announce options.quiet "run" line).spawn launch line ⟨true, options.shell⟩ =
        ({ s.announce options.quiet "run" line with
          files := o.files, console := (s.announce options.quiet "run" line).console ++ o.output }, .ok o.status) ∧
      (Text.Utf8.encode (Text.Utf8.lossy o.output) = o.output ↔ ∃ text, Text.Utf8.decode? o.output = some text) := by
  refine ⟨⟨fun hkept => ?_, losesNothing_of_starts h⟩, run_of_starts h, spawn_of_starts h, Text.Utf8.encode_lossy_iff⟩
  cases hcapture : options.capture with
  | true => exact .inl rfl
  | false => exact .inr (hkept.output_eq_nil h hcapture)

/-- Output that is no text, asked for by the caller. -/
theorem run_losesNothing_iff_printf :
    Command.Starts Shell.launch FileSystem.machine "printf 'a\\377'" false ⟨FileSystem.machine, [97, 255], [], .code 0⟩ ∧
      (start FileSystem.machine "").LosesNothing Shell.launch "printf 'a\\377'" ⟨5, false, true, false, true⟩ [97, 255] ∧
      (start FileSystem.machine "").run Shell.launch "printf 'a\\377'" ⟨5, false, true, false, true⟩ =
        (start FileSystem.machine "", .ok ⟨.code 0, some "a\uFFFD"⟩) := by
  have hsplit : CommandLine.split? "printf 'a\\377'" = some ["printf", "a\\377"] := by decide
  have hstarts : Command.Starts Shell.launch FileSystem.machine "printf 'a\\377'" false
      ⟨FileSystem.machine, [97, 255], [], .code 0⟩ := .words hsplit rfl
  have htext : Text.Utf8.lossy [97, 255] = "a\uFFFD" := by decide
  obtain ⟨hkept, hrun, -, -⟩ := @run_losesNothing_iff (start FileSystem.machine "") _ _ _ ⟨5, false, true, false, true⟩ hstarts
  refine ⟨hstarts, hkept.mpr (.inl rfl), hrun.trans ?_⟩
  rw [Command.answer, htext]
  rfl

/-- Not every run loses nothing: what `echo` writes is not shown where the caller does not ask for it. -/
theorem not_losesNothing :
    ¬∀ (s : Session) (launch : Launcher) (line : String) (options : RunOptions) (o : Outcome),
      Command.Starts launch (s.announce options.quiet "run" line).files line options.shell o →
        s.LosesNothing launch line options o.output := by
  intro hall
  have hsplit : CommandLine.split? "echo hello" = some ["echo", "hello"] := by decide
  have hstarts : Command.Starts Shell.launch FileSystem.machine "echo hello" false
      (.printed FileSystem.machine (Text.Utf8.encode "hello\n")) := .words hsplit rfl
  have hkept := hall (start FileSystem.machine "") _ _ ⟨0, false, false, false, false⟩ _ hstarts
  exact absurd (hkept.output_eq_nil hstarts rfl) (by decide)

end Session

end ClusterConfig
