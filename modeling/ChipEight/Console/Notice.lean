import ChipEight.Config.Document
import ChipEight.Console.Command
import ChipEight.Console.Storage
import ChipEight.Failure
import ChipEight.Machine.Record

/-!
# What the console logs

The console passes on what the machine notes, and adds what happens around it.
-/

namespace ChipEight

/-- Something that the console logs. -/
inductive Notice
  /-- The machine noted something. -/
  | machine (record : Record)
  /-- A program is about to run, at a frequency. -/
  | running (name : String) (size : Nat) (hz : UInt64)
  /-- A program is about to be listed. -/
  | disassembling (name : String) (size : Nat)
  /-- The buzzer went on or off. -/
  | buzzer (on : Bool)
  /-- As many instructions were executed as were allowed. -/
  | stepLimit
  /-- The run was stopped before the instruction at an address. -/
  | interrupted (address : Address)
  /-- The program ended at an address. -/
  | halted (address : Address)
  /-- The instruction at an address waits for a key that nobody can press. -/
  | keyMissing (address : Address)
  /-- The run is over after some instructions. -/
  | executed (count : Nat)
  /-- The command line is wrong. -/
  | usage (message : String)
  /-- The configuration in a file cannot be used. -/
  | badConfig (path : String) (cause : Config.DocumentError)
  /-- The command failed. -/
  | failed (cause : Failure)
  deriving DecidableEq, Repr

/-- An address in a message. -/
def Notice.addressText (a : Address) : String := "0x" ++ Hex.numeral 3 a

/-- A program in a message: its name and its length. -/
def Notice.programText (name : String) (size : Nat) : String :=
  name ++ " (" ++ toString size ++ " bytes)"

/-- How a notice is logged. -/
def Notice.entry : Notice → Entry
  | machine r => r.entry
  | running name size hz =>
    ⟨.info, "running " ++ programText name size ++ " at " ++ toString hz.toNat ++ "Hz"⟩
  | disassembling name size => ⟨.info, "disassembling " ++ programText name size⟩
  | buzzer on => ⟨.debug, if on then "buzzer on" else "buzzer off"⟩
  | stepLimit => ⟨.info, "step limit reached"⟩
  | interrupted a => ⟨.info, "interrupted at " ++ addressText a⟩
  | halted a => ⟨.info, "program halted at " ++ addressText a⟩
  | keyMissing a =>
    ⟨.warn, "program waits for key input at " ++ addressText a ++ ", but no keyboard is attached"⟩
  | executed count => ⟨.info, "executed " ++ toString count ++ " instructions"⟩
  | usage message => ⟨.error, message⟩
  | badConfig path cause =>
    ⟨.error, (Failure.config (path ++ ": " ++ cause.message)).message⟩
  | failed cause => ⟨.error, cause.message⟩

end ChipEight
