import ChipEight.Console.Report

/-!
# The command line program

Reads the files and the clock of the system, and shows what the console says as soon as
it is said.
-/

namespace ChipEight

/-- The error of a storage that the system reports. Some of its functions turn the sign of the
code. -/
def StorageError.ofSystem : IO.Error → StorageError
  | .noFileOrDirectory .. => .notFound
  | .inappropriateType _ code detail =>
    if code = 20 || code = 0 - 20 then .notDirectory
    else if code = 21 || code = 0 - 21 then .isDirectory
    else .other detail
  | .invalidArgument _ code detail =>
    if code = 36 || code = 0 - 36 then .nameTooLong else .other detail
  | .resourceBusy code detail => .other (detail ++ " (os error " ++ toString code ++ ")")
  | e => .other (toString e)

/-- Read a file of the system. -/
def readFile (path : String) : IO (Except StorageError (List UInt8)) := do
  try
    let bytes ← IO.FS.readBinFile path
    return .ok bytes.toList
  catch e => return .error (.ofSystem e)

/-- The files that a command line names, each read once. -/
def readFiles (arguments : List String) : IO Reader := do
  let names := match Command.parse arguments with
    | .ok (.run file options) => file :: options.config.toList
    | .ok (.disassemble file) => [file]
    | .error _ => []
  let files ← names.mapM fun name => do return (name, ← readFile name)
  return fun path => (files.lookup path).getD (.error .notFound)

/-- Show something. -/
def Output.show : Output → IO Unit
  | .logged notice => IO.println notice.entry.text
  | .printed text => IO.print text

/-- The moment. -/
def now : IO Instant := IO.monoNanosNow

/-- A key that the system makes up. -/
def randomKey : IO StreamKey :=
  Vector.ofFnM fun _ => do
    let bytes ← IO.getRandomBytes 4
    return bytes.data.foldl (fun word b => word * 256 + b.toUInt32) 0

/-- Turn after turn, up to the end of a session. -/
partial def Session.drive (s : Session) : IO (Session × Except Fault Unit) := do
  let t := s.turn (← now)
  for notice in t.notices do (Output.logged notice).show
  match t.ended with
  | some answer => return (t.session, answer)
  | none => t.session.drive

end ChipEight

open ChipEight in
/-- Carry out the command line and give its exit status. -/
def main (arguments : List String) : IO UInt32 := do
  let read ← readFiles arguments
  match Console.prepare read arguments (← randomKey) (← now) with
  | .finished report =>
    for output in report.output do output.show
    return UInt32.ofNat report.status
  | .running shown session =>
    for output in shown do output.show
    let (session, answer) ← session.drive
    let report := Console.conclude session answer
    for output in report.output do output.show
    return UInt32.ofNat report.status
