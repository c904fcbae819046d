import ChipEight.Text.Numeral
import ChipEight.Text.Quoted

/-!
# Command lines

There are two commands. `run FILE` takes options in any order and anywhere among its
arguments, each a flag with the argument after it, whatever that is; of several uses of
a flag the last one counts. `dis FILE` takes no options and does not look at what
follows. `Command.parse` reads the arguments from the left to the right and stops at the
first one that is wrong.
-/

namespace ChipEight

/-- An option of the command `run`. -/
inductive Flag
  /-- A file with a configuration. -/
  | config
  /-- The frequency of the instruction clock. -/
  | hz
  /-- How many instructions to execute at most. -/
  | steps
  deriving DecidableEq, Repr

/-- A flag as it is written. -/
def Flag.text : Flag → String
  | config => "--config"
  | hz => "--hz"
  | steps => "--steps"

/-- The flag that an argument is. -/
def Flag.ofText? (s : String) : Option Flag := [config, hz, steps].find? fun f => f.text == s

/-- The options of the command `run`. -/
structure RunOptions where
  /-- The file with the configuration. -/
  config : Option String := none
  /-- The frequency of the instruction clock, before that of the configuration. -/
  clockFrequency : Option UInt64 := none
  /-- How many instructions to execute at most. -/
  stepLimit : Option UInt64 := none
  deriving DecidableEq, Repr

/-- What a command line asks for. -/
inductive Command
  /-- Run a program and show the display it leaves. -/
  | run (file : String) (options : RunOptions)
  /-- Show the listing of a program. -/
  | disassemble (file : String)
  deriving DecidableEq, Repr

/-- What is wrong with a command line. -/
inductive UsageError
  /-- It has no command. -/
  | noCommand
  /-- It names no file. -/
  | noFile
  /-- The command is not known. -/
  | unknownCommand (name : String)
  /-- A flag has no value. -/
  | missingValue (flag : Flag)
  /-- A flag that takes a number has something else. -/
  | notANumber (flag : Flag) (value : String)
  /-- A second file is named. -/
  | unexpectedArgument (argument : String)
  deriving DecidableEq, Repr

/-- What is said about a wrong command line. Where something is missing altogether, the usage says
enough. -/
def UsageError.message? : UsageError → Option String
  | noCommand => none
  | noFile => none
  | unknownCommand name => some ("unknown command: " ++ name)
  | missingValue flag => some ("missing value for " ++ flag.text)
  | notANumber flag value =>
    some (flag.text ++ " expects a number, got " ++ Quoted.text value)
  | unexpectedArgument argument => some ("unexpected argument: " ++ argument)

/-- The options with a flag set to a value. -/
def RunOptions.set (o : RunOptions) (flag : Flag) (value : String) : Except UsageError RunOptions :=
  match flag with
  | .config => .ok { o with config := some value }
  | .hz =>
    match Numeral.decimal64? value with
    | some n => .ok { o with clockFrequency := some n }
    | none => .error (.notANumber .hz value)
  | .steps =>
    match Numeral.decimal64? value with
    | some n => .ok { o with stepLimit := some n }
    | none => .error (.notANumber .steps value)

namespace Command

/-- Read the arguments of `run`, after the options and the file found so far. -/
def parseRun (options : RunOptions) (file : Option String) :
    List String → Except UsageError Command
  | [] =>
    match file with
    | some f => .ok (.run f options)
    | none => .error .noFile
  | argument :: rest =>
    match Flag.ofText? argument, rest with
    | some flag, [] => .error (.missingValue flag)
    | some flag, value :: rest =>
      match options.set flag value with
      | .ok options => parseRun options file rest
      | .error e => .error e
    | none, rest =>
      match file with
      | none => parseRun options (some argument) rest
      | some _ => .error (.unexpectedArgument argument)

/-- Read a command line. -/
def parse : List String → Except UsageError Command
  | [] => .error .noCommand
  | name :: rest =>
    if name = "run" then parseRun {} none rest
    else if name = "dis" then
      match rest with
      | [] => .error .noFile
      | file :: _ => .ok (.disassemble file)
    else .error (.unknownCommand name)

end Command

end ChipEight
