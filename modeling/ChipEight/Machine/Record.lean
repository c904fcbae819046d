import ChipEight.Isa.Word
import ChipEight.Keypad
import ChipEight.Log
import ChipEight.Address
import ChipEight.Text.Hex

/-!
# What a machine notes

While it works, a machine notes a few events that are not visible in its state.
-/

namespace ChipEight

/-- An event that a machine notes. -/
inductive Record
  /-- A program of some length was loaded. -/
  | loaded (size : Nat)
  /-- The instruction at an address began to wait for a key. -/
  | waiting (address : Address)
  /-- A key ended the wait. -/
  | resumed (key : Key)
  /-- A word outside the instruction set was passed over. -/
  | unknown (word : Word) (address : Address)
  /-- An interrupt was dropped because the next step was asked for. -/
  | interruptDropped
  deriving DecidableEq, Repr

/-- How an event is logged. -/
def Record.entry : Record → Entry
  | loaded size => ⟨.debug, "loaded program of " ++ toString size ++ " bytes"⟩
  | waiting a => ⟨.debug, "waiting for key press at 0x" ++ Hex.numeral 3 a⟩
  | resumed k => ⟨.debug, "key " ++ k.text ++ " pressed, resuming"⟩
  | unknown w a =>
    ⟨.warn, "unknown opcode 0x" ++ String.ofList (Hex.digits 4 w.toNat) ++ " at 0x" ++
      Hex.numeral 3 a ++ ", skipping"⟩
  | interruptDropped => ⟨.debug, "pending interrupt discarded by explicit step"⟩

end ChipEight
