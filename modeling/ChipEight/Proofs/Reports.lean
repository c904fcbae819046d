import ChipEight.Console.Report
import ChipEight.Proofs.Sessions

/-!
# What a command leaves behind

A command can go wrong in several places, and each of them keeps back what would have come after it. A
wrong command line reads no file. Of a run, the program is read first, then the configuration, and then
the program has to fit; the first of these that does not work out is what stands in the way
(`Obstacle`), and it is all that is reported. Once a session has begun, its display is shown in any case,
also where the program broke the stack (`Report.Concludes`).

A session logs nothing that is an error (`course_run`), so the only error of a run is the one that ends
it. `execute_reports` puts these together.
-/

namespace ChipEight

/-! ### Reading a report -/

/-- The entry that an output writes into the log, if it writes one. -/
def Output.entry? : Output → Option Entry
  | .logged notice => some notice.entry
  | .printed _ => none

/-- The text that an output prints, if it prints any. -/
def Output.text? : Output → Option String
  | .logged _ => none
  | .printed text => some text

/-- The rows of a display as lines: `#` where a pixel is lit, `.` where it is dark. -/
def Display.lines (d : Display) : List String :=
  (List.range 32).map fun y =>
    String.ofList ((List.range 64).map fun x => if d.get x y then '#' else '.')

theorem Display.text_eq (d : Display) : d.text = String.join (d.lines.map (· ++ "\n")) := by
  simp [text, lines, rowText, row, width, height, List.map_map, Function.comp_def]

/-- The lines of a display on which nothing is lit. -/
theorem Display.lines_of_dark {d : Display} (h : d.cells.toList.all (!·) = true) :
    d.lines = List.replicate 32 (String.ofList (List.replicate 64 '.')) := by
  have dark (x y : Nat) : d.get x y = false := by
    have mem : d.get x y ∈ d.cells.toList := by simp [get]
    simpa using List.all_eq_true.1 h _ mem
  simp [lines, dark]

namespace Report

variable (r : Report)

/-- The log, in order. -/
def log : List Entry := r.output.filterMap Output.entry?

/-- The entries of the log that are errors. -/
def errors : List Entry := r.log.filter fun e => e.level = .error

/-- All that is printed besides the log. -/
def printed : String := String.join (r.output.filterMap Output.text?)

/-- The command failed and says why. It says nothing else that is an error, and prints nothing. -/
structure Fails (notice : Notice) : Prop where
  /-- The status of a failure. -/
  status : r.status = 1
  /-- The one error is the cause. -/
  errors : r.errors = [notice.entry]
  /-- Nothing but the log is shown. -/
  printed : r.printed = ""

/-- A session came to its end, and the report says how. -/
structure Concludes (result : Session.Result) : Prop where
  /-- The rows of the display are printed, and then an empty line. -/
  printed : r.printed =
    String.join ((result.session.machine.display.lines ++ [""]).map (· ++ "\n"))
  /-- The last entry of a session that went well counts its instructions. -/
  done : result.answer = .ok () →
    r.status = 0 ∧ r.errors = [] ∧
      r.log.getLast? =
        some ⟨.info, "executed " ++ toString result.session.executed ++ " instructions"⟩
  /-- The one error of a program that broke the stack is its fault, and nothing is counted. -/
  failed : ∀ fault, result.answer = .error fault →
    r.status = 1 ∧ r.errors = [⟨.error, fault.message⟩] ∧ ∀ n, .logged (.executed n) ∉ r.output

theorem Concludes.status {r : Report} {result : Session.Result} (h : r.Concludes result) :
    r.status = 0 ∨ r.status = 1 := by
  cases answer : result.answer with
  | ok => exact Or.inl (h.done answer).1
  | error fault => exact Or.inr (h.failed fault answer).1

end Report

/-! ### What a session logs -/

/-- A notice of the course of a session. -/
def Notice.isCourse : Notice → Bool
  | machine _ | buzzer _ | stepLimit | interrupted _ | halted _ | keyMissing _ => true
  | _ => false

/-- A machine notes no errors. -/
theorem Record.level_entry (record : Record) : record.entry.level ≠ .error := by
  cases record <;> exact Level.noConfusion

/-- The course of a session has no errors. -/
theorem Notice.level_of_course {notice : Notice} (h : notice.isCourse = true) :
    notice.entry.level ≠ .error := by
  cases notice with
  | machine record => exact record.level_entry
  | _ => first | exact Level.noConfusion | cases h

namespace Session

theorem course_soundBuzzer (s : Session) : ∀ notice ∈ s.soundBuzzer.2, notice.isCourse = true := by
  rw [soundBuzzer]
  split
  · simp
  · simp [Notice.isCourse]

theorem course_executeNext (s : Session) :
    ∀ notice ∈ s.executeNext.notices, notice.isCourse = true := by
  have records (l : List Record) : ∀ notice ∈ l.map Notice.machine, notice.isCourse = true := by
    simp [Notice.isCourse]
  rw [executeNext_eq]
  rcases s.machine.run 1 with ⟨after, noted, fault | stop⟩
  · exact records noted
  · cases stop with
    | done => exact records noted
    | _ =>
      intro notice h
      rcases List.mem_append.1 h with h | h
      · exact records noted notice h
      · rw [List.mem_singleton.1 h]
        rfl

/-- A turn logs nothing that is out of its course. -/
theorem course_turn (s : Session) (now : Instant) :
    ∀ notice ∈ (s.turn now).notices, notice.isCourse = true := by
  rw [turn]
  split
  · simp [Notice.isCourse]
  · have sounded := (s.tickTimers now).course_soundBuzzer
    generalize (s.tickTimers now).soundBuzzer = buzzing at sounded ⊢
    obtain ⟨t, notices⟩ := buzzing
    dsimp only at sounded ⊢
    obtain ⟨due, clock⟩ := t.instructionClock.tick now
    cases due with
    | true =>
      intro notice h
      exact (List.mem_append.1 h).elim (sounded notice) (course_executeNext _ notice)
    | false => exact sounded

/-- **The course of a session has no errors**, and nothing in it counts instructions. -/
theorem course_run (timeline : Nat → Instant) {turns k : Nat} {s : Session} {result : Result}
    (h : runFrom timeline turns k s [] = some result) :
    ∀ notice ∈ result.notices, notice.isCourse = true := by
  induction turns generalizing k s result with
  | zero => cases h
  | succ turns ih =>
    have first := s.course_turn (timeline k)
    rw [runFrom_succ] at h
    generalize s.turn (timeline k) = t at first h
    obtain ⟨t, notices, _ | answer⟩ := t
    · obtain ⟨rest, hrest, rfl⟩ := Option.map_eq_some_iff.1 h
      intro notice hn
      exact (List.mem_append.1 hn).elim (first notice) (ih hrest notice)
    · cases h
      exact first

end Session

namespace Console

/-! ### What stands in the way of a run -/

/-- There is no configuration to be had from a file, and what is said about it: it cannot be read, or it
does not hold text, or the text is no configuration. -/
inductive Unconfigured (read : Reader) (path : String) : Notice → Prop
  /-- The file cannot be read. -/
  | unreadable {e : StorageError} (h : read path = .error e) :
    Unconfigured read path (.failed (.storage e.message))
  /-- The file does not hold text. -/
  | noText {bytes : List UInt8} {e : StorageError} (h : read path = .ok bytes)
    (text : decodeText bytes = .error e) : Unconfigured read path (.failed (.storage e.message))
  /-- The text is no configuration. -/
  | invalid {bytes : List UInt8} {text : String} {e : Config.DocumentError}
    (h : read path = .ok bytes) (decoded : decodeText bytes = .ok text)
    (config : Config.read text = .error e) : Unconfigured read path (.badConfig path e)

/-- The configuration of a run. The frequency among the options comes before that in the file. -/
inductive Configured (read : Reader) (options : RunOptions) : Config → Prop
  /-- No file is named. -/
  | default (h : options.config = none) :
    Configured read options { Config.default with clockFrequency := options.clockFrequency }
  /-- A file is named, and it holds a configuration. -/
  | file {path : String} {bytes : List UInt8} {text : String} {config : Config}
    (named : options.config = some path) (h : read path = .ok bytes)
    (decoded : decodeText bytes = .ok text) (ok : Config.read text = .ok config) :
    Configured read options
      { config with clockFrequency := options.clockFrequency.or config.clockFrequency }

/-- What stands in the way of a run, and what is said about it. Each obstacle is one only if those before
it are not there. -/
inductive Obstacle (read : Reader) (file : String) (options : RunOptions) : Notice → Prop
  /-- The program cannot be read. -/
  | program {e : StorageError} (h : read file = .error e) :
    Obstacle read file options (.failed (.storage e.message))
  /-- There is no configuration in the file that is named for it. -/
  | config {program : List UInt8} {path : String} {notice : Notice} (h : read file = .ok program)
    (named : options.config = some path) (bad : Unconfigured read path notice) :
    Obstacle read file options notice
  /-- The program does not fit into memory. -/
  | size {program : List UInt8} {config : Config} (h : read file = .ok program)
    (configured : Configured read options config) (big : 3584 < program.length) :
    Obstacle read file options (.failed (.oversize ⟨program.length⟩))

variable {read : Reader} {options : RunOptions} {file : String}

theorem Unconfigured.configure {path : String} {notice : Notice} (h : Unconfigured read path notice)
    (named : options.config = some path) : configure read options = .error notice := by
  cases h with
  | unreadable h => simp [Console.configure, named, readConfig, h, Except.bind]
  | noText h text => simp [Console.configure, named, readConfig, h, Except.bind, text]
  | invalid h text config => simp [Console.configure, named, readConfig, h, Except.bind, text, config]

theorem Configured.configure {config : Config} (h : Configured read options config) :
    configure read options = .ok config := by
  cases h with
  | default none => simp [Console.configure, none]
  | file named h text ok => simp [Console.configure, named, readConfig, h, Except.bind, text, ok]

/-- There is a configuration, or it is said why there is none. -/
theorem configured_or_not (read : Reader) (options : RunOptions) :
    (∃ config, Configured read options config) ∨
      ∃ path notice, options.config = some path ∧ Unconfigured read path notice := by
  cases named : options.config with
  | none => exact Or.inl ⟨_, .default named⟩
  | some path =>
    cases h : read path with
    | error e => exact Or.inr ⟨path, _, rfl, .unreadable h⟩
    | ok bytes =>
      cases decoded : decodeText bytes with
      | error e => exact Or.inr ⟨path, _, rfl, .noText h decoded⟩
      | ok text =>
        cases ok : Config.read text with
        | error e => exact Or.inr ⟨path, _, rfl, .invalid h decoded ok⟩
        | ok config => exact Or.inl ⟨_, .file named h decoded ok⟩

/-- There is a program and a configuration for it and the program fits, or something stands in the way. -/
theorem clear_or_obstacle (read : Reader) (file : String) (options : RunOptions) :
    (∃ program config, read file = .ok program ∧ Configured read options config ∧
      program.length ≤ 3584) ∨ ∃ notice, Obstacle read file options notice := by
  cases h : read file with
  | error e => exact Or.inr ⟨_, .program h⟩
  | ok program =>
    rcases configured_or_not read options with ⟨config, configured⟩ | ⟨path, notice, named, bad⟩
    · by_cases fits : program.length ≤ 3584
      · exact Or.inl ⟨program, config, rfl, configured, fits⟩
      · exact Or.inr ⟨_, .size h configured (by omega)⟩
    · exact Or.inr ⟨notice, .config h named bad⟩

end Console

/-! ### Reports and what comes before them -/

/-- An output that neither prints anything, nor is an error, nor counts instructions. -/
def Output.IsQuiet (o : Output) : Prop :=
  ∃ notice, o = .logged notice ∧ notice.entry.level ≠ .error ∧ ∀ n, notice ≠ .executed n

theorem Output.isQuiet_of_course {notice : Notice} (h : notice.isCourse = true) :
    (Output.logged notice).IsQuiet :=
  ⟨notice, rfl, notice.level_of_course h, fun n executed => by rw [executed] at h; cases h⟩

namespace Report

variable {status : Nat} {shown rest : List Output}

theorem printed_quiet_append (quiet : ∀ o ∈ shown, o.IsQuiet) :
    (Report.mk status (shown ++ rest)).printed = (Report.mk status rest).printed := by
  have none : shown.filterMap Output.text? = [] := by
    refine List.filterMap_eq_nil_iff.2 fun o ho => ?_
    obtain ⟨notice, rfl, -⟩ := quiet o ho
    rfl
  simp [printed, none]

theorem errors_quiet_append (quiet : ∀ o ∈ shown, o.IsQuiet) :
    (Report.mk status (shown ++ rest)).errors = (Report.mk status rest).errors := by
  have none : (shown.filterMap Output.entry?).filter (fun e => e.level = .error) = [] := by
    refine List.filter_eq_nil_iff.2 fun e he => ?_
    obtain ⟨o, ho, entry⟩ := List.mem_filterMap.1 he
    obtain ⟨notice, rfl, level, -⟩ := quiet o ho
    cases entry
    simpa using level
  simp [errors, log, none]

theorem executed_not_mem (quiet : ∀ o ∈ shown, o.IsQuiet) (n : Nat) :
    .logged (.executed n) ∉ shown := by
  intro h
  obtain ⟨notice, same, -, none⟩ := quiet _ h
  cases same
  exact none n rfl

/-- A failure after quiet output says why the command failed, and nothing else. -/
theorem fails_failure (quiet : ∀ o ∈ shown, o.IsQuiet) {notice : Notice}
    (level : notice.entry.level = .error) : (Console.failure shown notice).Fails notice where
  status := rfl
  errors := by
    rw [Console.failure, errors_quiet_append quiet]
    simp [errors, log, Output.entry?, level]
  printed := by
    rw [Console.failure, printed_quiet_append quiet]
    rfl

/-- The end of a session after quiet output. -/
theorem concludes_conclude (quiet : ∀ o ∈ shown, o.IsQuiet) (result : Session.Result) :
    (Report.mk (Console.conclude result.session result.answer).status
      (shown ++ (Console.conclude result.session result.answer).output)).Concludes result := by
  obtain ⟨session, notices, fault | ⟨⟩⟩ := result
  · refine ⟨?_, nofun, ?_⟩
    · rw [printed_quiet_append quiet]
      simp only [printed, Console.conclude, Console.failure, Machine.dumpDisplay, Display.text_eq,
        List.map_append]
      simp [String.join, Output.text?, List.filterMap_cons]
    · rintro _ ⟨⟩
      refine ⟨rfl, ?_, fun n => ?_⟩
      · rw [errors_quiet_append quiet]
        rfl
      · have others := executed_not_mem quiet n
        simpa [Console.conclude, Console.failure] using others
  · refine ⟨?_, fun _ => ⟨rfl, ?_, ?_⟩, nofun⟩
    · rw [printed_quiet_append quiet]
      simp only [printed, Console.conclude, Machine.dumpDisplay, Display.text_eq, List.map_append]
      simp [String.join, Output.text?, List.filterMap_cons]
    · rw [errors_quiet_append quiet]
      rfl
    · simp [log, Console.conclude, Output.entry?, Notice.entry]

end Report

namespace Console

variable {read : Reader} {options : RunOptions} {file : String}

/-! ### Preparing a run -/

/-- **A run that something stands in the way of fails with it.** -/
theorem prepareRun_of_obstacle {notice : Notice} (h : Obstacle read file options notice)
    (chance : StreamKey) (now : Instant) :
    ∃ report, prepareRun read file options chance now = .finished report ∧ report.Fails notice := by
  have nothing : ∀ o ∈ ([] : List Output), o.IsQuiet := nofun
  cases h with
  | program h => exact ⟨_, by simp only [prepareRun, h], Report.fails_failure nothing rfl⟩
  | config h named bad =>
    refine ⟨_, by simp only [prepareRun, h, bad.configure named], Report.fails_failure nothing ?_⟩
    cases bad <;> rfl
  | @size program config h configured big =>
    have refused : (Machine.create config chance).load program =
        ⟨Machine.create config chance, [], .error ⟨program.length⟩⟩ := if_pos big
    let start := Notice.running (Path.fileName file) program.length config.instructionFrequency
    refine ⟨failure [.logged start] (.failed (.oversize ⟨program.length⟩)),
      by simp only [prepareRun, h, configured.configure, refused, start],
      Report.fails_failure (fun o ho => ?_) rfl⟩
    rw [List.mem_singleton.1 ho]
    exact ⟨start, rfl, Level.noConfusion, nofun⟩

/-- The session of a program that is run. -/
def sessionOf (program : List UInt8) (config : Config) (options : RunOptions) (chance : StreamKey)
    (now : Instant) : Session :=
  .start ((Machine.create config chance).load program).machine
    (options.stepLimit.map UInt64.toNat) now

/-- A run that nothing stands in the way of comes to its session. -/
theorem prepareRun_of_clear {program : List UInt8} {config : Config} (h : read file = .ok program)
    (configured : Configured read options config) (fits : program.length ≤ 3584) (chance : StreamKey)
    (now : Instant) :
    ∃ shown, (∀ o ∈ shown, Output.IsQuiet o) ∧
      prepareRun read file options chance now =
        .running shown (sessionOf program config options chance now) := by
  have loaded := (Machine.create config chance).load_of_fits fits
  refine ⟨[.logged (.running (Path.fileName file) program.length config.instructionFrequency),
    .logged (.machine (.loaded program.length))], ?_,
    by simp only [prepareRun, h, configured.configure, sessionOf, loaded]; rfl⟩
  simp only [List.mem_cons, List.not_mem_nil, or_false]
  rintro o (rfl | rfl)
  · exact ⟨_, rfl, Level.noConfusion, nofun⟩
  · exact Output.isQuiet_of_course rfl

/-! ### Carrying out commands -/

variable {arguments : List String} (chance : StreamKey) (timeline : Nat → Instant) (turns : Nat)

/-- A wrong command line looks at no file, and shows how commands are written. -/
theorem execute_of_refused {e : UsageError} (h : Command.parse arguments = .error e) :
    ∃ report, (∀ read, execute read arguments chance timeline turns = some report) ∧
      report.status = 64 ∧ report.printed = "Chip8 v0.4.0\n" ++ usage ++ "\n" := by
  refine ⟨refusal e, fun read => by simp only [execute, prepare, h], rfl, ?_⟩
  cases e <;> simp [refusal, UsageError.message?, Report.printed, Output.text?, List.filterMap_cons,
    String.join, version, String.append_assoc]

theorem execute_of_obstacle (h : Command.parse arguments = .ok (.run file options)) {notice : Notice}
    (obstacle : Obstacle read file options notice) :
    ∃ report, execute read arguments chance timeline turns = some report ∧ report.Fails notice := by
  obtain ⟨report, prepared, fails⟩ := prepareRun_of_obstacle obstacle chance (timeline 0)
  exact ⟨report, by simp only [execute, prepare, h, prepared], fails⟩

/-- A run that nothing stands in the way of is over when its session is, and reports how that came to its
end. -/
theorem execute_of_clear (h : Command.parse arguments = .ok (.run file options))
    {program : List UInt8} {config : Config} (readable : read file = .ok program)
    (configured : Configured read options config) (fits : program.length ≤ 3584) :
    Option.Rel Report.Concludes (execute read arguments chance timeline turns)
      ((sessionOf program config options chance (timeline 0)).run timeline turns) := by
  obtain ⟨shown, quiet, prepared⟩ :=
    prepareRun_of_clear readable configured fits chance (timeline 0)
  simp only [execute, prepare, h, prepared]
  cases ended : (sessionOf program config options chance (timeline 0)).run timeline turns with
  | none => exact .none
  | some result =>
    refine .some (Report.concludes_conclude (fun o ho => ?_) result)
    rcases List.mem_append.1 ho with ho | ho
    · exact quiet o ho
    · obtain ⟨notice, hn, rfl⟩ := List.mem_map.1 ho
      exact Output.isQuiet_of_course (Session.course_run timeline ended notice hn)

/-- Without a pace, a session with a limit comes to an end. -/
theorem run_sessionOf_isSome {config : Config} (instructions : period config.instructionFrequency = 0)
    (timers : period config.timerFrequency = 0) (program : List UInt8) {n : UInt64}
    (limit : options.stepLimit = some n) (enough : n.toNat < turns) :
    ((sessionOf program config options chance (timeline 0)).run timeline turns).isSome := by
  have kept : ((Machine.create config chance).load program).machine.config = config := by
    rw [Machine.load]
    split <;> rfl
  let session := sessionOf program config options chance (timeline 0)
  have unthrottled : session.Unthrottled := by
    constructor
    · simp [session, sessionOf, Session.start, kept, Clock.ofHz, instructions]
    · simp [session, sessionOf, Session.start, kept, Clock.ofHz, timers]
  have room : session.limit = some (session.executed + n.toNat) := by
    simp [session, sessionOf, Session.start, limit]
  obtain ⟨result, ended, -⟩ :=
    Session.runFrom_unthrottled timeline n.toNat (k := 0) unthrottled room enough
  exact Option.isSome_iff_exists.2 ⟨result, ended⟩

theorem execute_of_disassemble (h : Command.parse arguments = .ok (.disassemble file)) :
    execute read arguments chance timeline turns = some (disassemble read file) := by
  simp only [execute, prepare, h]

/-- A listing is printed of whatever can be read. -/
theorem disassemble_of_readable {program : List UInt8} (h : read file = .ok program) :
    (disassemble read file).status = 0 ∧ (disassemble read file).errors = [] ∧
      (disassemble read file).printed = Listing.text program := by
  simp only [disassemble, h]
  refine ⟨trivial, rfl, ?_⟩
  simp [Report.printed, Output.text?, List.filterMap_cons, String.join]

theorem disassemble_of_unreadable {e : StorageError} (h : read file = .error e) :
    (disassemble read file).Fails (.failed (.storage e.message)) := by
  simp only [disassemble, h]
  exact Report.fails_failure (fun _ h => absurd h List.not_mem_nil) rfl

/-- **What every command line leads to.** The status is 64 just if the command line is wrong; then no file
is looked at, and the version and the usage are all that is printed. A run that something stands in the
way of fails with that, whatever else would stand in its way. Without an obstacle there are a program and
a configuration for it, and the report says how their session came to its end; a session with a limit and
without a pace does. A listing is printed of every file that can be read. -/
theorem execute_reports (read : Reader) (arguments : List String) (chance : StreamKey)
    (timeline : Nat → Instant) (turns : Nat) :
    (∀ report, execute read arguments chance timeline turns = some report →
      (report.status = 64 ↔ ∃ e, Command.parse arguments = .error e)) ∧
    (∀ e, Command.parse arguments = .error e →
      ∃ report, (∀ read, execute read arguments chance timeline turns = some report) ∧
        report.status = 64 ∧ report.printed = "Chip8 v0.4.0\n" ++ usage ++ "\n") ∧
    (∀ file options, Command.parse arguments = .ok (.run file options) →
      (∀ notice, Obstacle read file options notice →
        ∃ report, execute read arguments chance timeline turns = some report ∧ report.Fails notice) ∧
      ((∀ notice, ¬ Obstacle read file options notice) →
        ∃ program config, read file = .ok program ∧ Configured read options config ∧
          program.length ≤ 3584 ∧
          let session := sessionOf program config options chance (timeline 0)
          Option.Rel Report.Concludes (execute read arguments chance timeline turns)
              (session.run timeline turns) ∧
            (period config.instructionFrequency = 0 → period config.timerFrequency = 0 →
              ∀ n, options.stepLimit = some n → n.toNat < turns →
                (session.run timeline turns).isSome))) ∧
    (∀ file, Command.parse arguments = .ok (.disassemble file) →
      ∃ report, execute read arguments chance timeline turns = some report ∧
        (∀ program, read file = .ok program →
          report.status = 0 ∧ report.errors = [] ∧ report.printed = Listing.text program) ∧
        ∀ e, read file = .error e → report.Fails (.failed (.storage e.message))) := by
  refine ⟨fun report reported => ?status, fun e h => execute_of_refused chance timeline turns h,
    fun file options h =>
      ⟨fun notice obstacle => execute_of_obstacle chance timeline turns h obstacle, fun clear => ?clear⟩,
    fun file h => ⟨disassemble read file, execute_of_disassemble chance timeline turns h,
      fun program readable => disassemble_of_readable readable,
      fun e unreadable => disassemble_of_unreadable unreadable⟩⟩
  case clear =>
    rcases clear_or_obstacle read file options with
      ⟨program, config, readable, configured, fits⟩ | ⟨notice, obstacle⟩
    · exact ⟨program, config, readable, configured, fits,
        execute_of_clear chance timeline turns h readable configured fits,
        fun instructions timers n limit enough =>
          run_sessionOf_isSome chance timeline turns instructions timers program limit enough⟩
    · exact absurd obstacle (clear notice)
  case status =>
    cases h : Command.parse arguments with
    | error e =>
      obtain ⟨refused, same, status, -⟩ := execute_of_refused chance timeline turns h
      cases (same read).symm.trans reported
      exact ⟨fun _ => ⟨e, rfl⟩, fun _ => status⟩
    | ok command =>
      -- a command that is carried out has the status zero or one
      suffices report.status = 0 ∨ report.status = 1 from
        ⟨fun same => by omega, fun ⟨_, wrong⟩ => nomatch wrong⟩
      cases command with
      | disassemble file =>
        cases (execute_of_disassemble chance timeline turns h).symm.trans reported
        cases readable : read file with
        | ok program => exact Or.inl (disassemble_of_readable readable).1
        | error e => exact Or.inr (disassemble_of_unreadable readable).status
      | run file options =>
        rcases clear_or_obstacle read file options with
          ⟨program, config, readable, configured, fits⟩ | ⟨notice, obstacle⟩
        · have concludes := execute_of_clear chance timeline turns h readable configured fits
          rw [reported] at concludes
          generalize (sessionOf _ _ _ _ _).run timeline turns = ended at concludes
          cases concludes with
          | some concludes => exact concludes.status
        · obtain ⟨failed, same, fails⟩ := execute_of_obstacle chance timeline turns h obstacle
          cases same.symm.trans reported
          exact Or.inr fails.status

/-- A storage with one file, which calls itself without end. -/
def onlyCalls : Reader := fun path =>
  if path = "calls.rom" then .ok [0x22, 0x00] else .error .notFound

/-- Its seventeenth call finds the stack full, which is reported below a dark display. If another file is
to be run with it as a configuration, the report is about that file. -/
theorem execute_reports_onlyCalls :
    let calls := ["run", "--hz", "0", "calls.rom", "--steps", "20"]
    let main := ["run", "main.rom", "--config", "calls.rom"]
    let dark := String.ofList (List.replicate 64 '.')
    (∃ report, execute onlyCalls calls 0 id 21 = some report ∧ report.status = 1 ∧
      report.errors = [⟨.error, "call stack overflow at 0x200: more than 16 nested calls"⟩] ∧
      report.printed = String.join ((List.replicate 32 dark ++ [""]).map (· ++ "\n"))) ∧
    ∃ report, execute onlyCalls main 0 id 0 = some report ∧ report.status = 1 ∧
      report.errors = [⟨.error, "No such file or directory (os error 2)"⟩] ∧ report.printed = "" := by
  intro calls main dark
  constructor
  · let options : RunOptions := ⟨none, some 0, some 20⟩
    let session :=
      sessionOf [0x22, 0x00] { Config.default with clockFrequency := some 0 } options 0 0
    obtain ⟨-, -, run, -⟩ := execute_reports onlyCalls calls 0 id 21
    have clear (notice : Notice) : ¬ Obstacle onlyCalls "calls.rom" options notice := by
      rintro (h | ⟨-, named, -⟩ | ⟨h, -, big⟩)
      · cases h
      · cases named
      · cases h
        exact absurd big (by decide)
    obtain ⟨_, _, h, configured, -, ended, -⟩ :=
      (run "calls.rom" options (by decide +kernel)).2 clear
    cases h
    cases configured with
    | file named => cases named
    | default =>
      have overflow : (session.run id 21).map (fun r =>
          (r.answer, r.session.machine.display.cells.toList.all (!·))) =
          some (.error (.stackOverflow 0x200), true) := by decide +kernel
      obtain ⟨result, hr, same⟩ := Option.map_eq_some_iff.1 overflow
      obtain ⟨answer, unlit⟩ := Prod.mk.inj same
      change Option.Rel _ _ (session.run id 21) at ended
      rw [hr] at ended
      generalize execute onlyCalls calls 0 id 21 = reported at ended
      cases ended with
      | some concludes =>
        obtain ⟨status, errors, -⟩ := concludes.failed _ answer
        have message : (Fault.stackOverflow 0x200).message =
          "call stack overflow at 0x200: more than 16 nested calls" := by decide +kernel
        rw [message] at errors
        exact ⟨_, rfl, status, errors, by rw [concludes.printed, Display.lines_of_dark unlit]⟩
  · obtain ⟨-, -, run, -⟩ := execute_reports onlyCalls main 0 id 0
    obtain ⟨report, reported, fails⟩ :=
      (run "main.rom" ⟨some "calls.rom", none, none⟩ (by decide +kernel)).1
        (.failed (.storage StorageError.notFound.message)) (.program rfl)
    exact ⟨report, reported, fails.status, fails.errors, fails.printed⟩

end Console

end ChipEight
