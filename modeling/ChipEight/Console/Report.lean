import ChipEight.Console.Session
import ChipEight.Isa.Listing
import ChipEight.Machine.Dump

/-!
# Carrying out commands

A command reads its files, does its work, and leaves a report: what was logged and
printed, in order, and the exit status. Running a program needs time, so that the work is
divided: `prepare` does what comes before the first turn of the session, and `conclude`
what comes after the last. `execute` puts them together along a timeline.
-/

namespace ChipEight

/-- Something that a command shows. -/
inductive Output
  /-- An entry of the log. -/
  | logged (notice : Notice)
  /-- Text. -/
  | printed (text : String)
  deriving DecidableEq, Repr

/-- What a command leaves behind. -/
structure Report where
  /-- The exit status. -/
  status : Nat
  /-- What was shown, in order. -/
  output : List Output
  deriving DecidableEq, Repr

namespace Console

/-- The version of the library. -/
def version : String := "0.4.0"

/-- How commands are written. -/
def usage : String :=
  "
usage: chip8 CMD [OPTIONS] FILE

commands:
    run     Run the target ROM file headless, then print the display
    dis     Disassemble the target ROM into readable assembly

run options:
    --config FILE   YAML file with VM configuration
    --hz N          Instruction clock in hertz, 0 runs unthrottled
    --steps N       Stop after N instructions

examples:
    chip8 run breakout.rom
    chip8 run --hz 0 --steps 10000 maze.rom
    chip8 dis breakout.rom
"

/-- The exit status of a command line that is wrong. -/
def usageStatus : Nat := 64

/-- A failed command, after some output. -/
def failure (shown : List Output) (notice : Notice) : Report := ⟨1, shown ++ [.logged notice]⟩

/-- A wrong command line: what is wrong, the version, and the usage. -/
def refusal (e : UsageError) : Report :=
  let complaint := match e.message? with
    | some message => [Output.logged (.usage message)]
    | none => []
  ⟨usageStatus, complaint ++ [.printed ("Chip8 v" ++ version ++ "\n"), .printed (usage ++ "\n")]⟩

/-- The text that bytes hold. -/
def decodeText (bytes : List UInt8) : Except StorageError String :=
  match String.fromUTF8? bytes.toByteArray with
  | some text => .ok text
  | none => .error (.other "stream did not contain valid UTF-8")

/-- The configuration in a file. -/
def readConfig (read : Reader) (path : String) : Except Notice Config :=
  match (read path).bind decodeText with
  | .error e => .error (.failed (.storage e.message))
  | .ok text =>
    match Config.read text with
    | .error e => .error (.badConfig path e)
    | .ok config => .ok config

/-- The configuration of a run: that of the file, if one is named, with what the options say. -/
def configure (read : Reader) (options : RunOptions) : Except Notice Config :=
  match options.config with
  | none => .ok { Config.default with clockFrequency := options.clockFrequency }
  | some path =>
    match readConfig read path with
    | .error notice => .error notice
    | .ok config =>
      .ok { config with clockFrequency := options.clockFrequency.or config.clockFrequency }

/-- A command after its preparation. -/
inductive Stage
  /-- There is nothing more to do. -/
  | finished (report : Report)
  /-- There is a session to run, after some output. -/
  | running (shown : List Output) (session : Session)

/-- Prepare the run of a program: read it and its configuration, in this order, and load it. -/
def prepareRun (read : Reader) (file : String) (options : RunOptions) (chance : StreamKey)
    (now : Instant) : Stage :=
  match read file with
  | .error e => .finished (failure [] (.failed (.storage e.message)))
  | .ok program =>
    match configure read options with
    | .error notice => .finished (failure [] notice)
    | .ok config =>
      let start := [Output.logged (.running (Path.fileName file) program.length
        config.instructionFrequency)]
      let o := (Machine.create config chance).load program
      match o.answer with
      | .error e => .finished (failure start (.failed (.oversize e)))
      | .ok () =>
        .running (start ++ o.records.map fun r => .logged (.machine r))
          (.start o.machine (options.stepLimit.map UInt64.toNat) now)

/-- Show the listing of a program. -/
def disassemble (read : Reader) (file : String) : Report :=
  match read file with
  | .error e => failure [] (.failed (.storage e.message))
  | .ok program =>
    ⟨0, [.logged (.disassembling (Path.fileName file) program.length),
      .printed (Listing.text program)]⟩

/-- Do what a command line asks for, up to the first turn of a session. -/
def prepare (read : Reader) (arguments : List String) (chance : StreamKey) (now : Instant) : Stage :=
  match Command.parse arguments with
  | .error e => .finished (refusal e)
  | .ok (.run file options) => prepareRun read file options chance now
  | .ok (.disassemble file) => .finished (disassemble read file)

/-- What is shown after a session: the display, and how the session ended. An entry `INFO time taken: …ms`,
which is logged just before the display, is left out of reports: what it says is read off a clock. -/
def conclude (s : Session) (answer : Except Fault Unit) : Report :=
  let display := Output.printed (s.machine.dumpDisplay ++ "\n")
  match answer with
  | .ok () => ⟨0, [display, .logged (.executed s.executed)]⟩
  | .error fault => failure [display] (.failed (.fault fault))

/-- Carry out a command line along a timeline; nothing if `turns` turns are not enough. -/
def execute (read : Reader) (arguments : List String) (chance : StreamKey) (timeline : Nat → Instant)
    (turns : Nat) : Option Report :=
  match prepare read arguments chance (timeline 0) with
  | .finished report => some report
  | .running shown session =>
    (session.run timeline turns).map fun result =>
      let report := conclude result.session result.answer
      ⟨report.status, shown ++ result.notices.map Output.logged ++ report.output⟩

end Console

end ChipEight
