import ChipEight.Address
import ChipEight.Text.Hex

/-!
# Failures

Why an operation did not do what it was asked to, each cause with the words in which it
is reported.
-/

namespace ChipEight

/-- How deep calls may nest. -/
def stackLimit : Nat := 16

/-- A call or a return that the stack does not allow, with the address of the instruction. -/
inductive Fault
  /-- A call when the stack is full. -/
  | stackOverflow (address : Address)
  /-- A return when no call is open. -/
  | stackUnderflow (address : Address)
  deriving DecidableEq, Repr

/-- What is said about a fault. -/
def Fault.message : Fault → String
  | stackOverflow a =>
    "call stack overflow at 0x" ++ Hex.numeral 3 a ++ ": more than " ++ toString stackLimit ++
      " nested calls"
  | stackUnderflow a =>
    "call stack underflow at 0x" ++ Hex.numeral 3 a ++ ": return without call"

/-- A program that does not fit into memory. -/
structure Oversize where
  /-- Its length in bytes. -/
  size : Nat
  deriving DecidableEq, Repr

/-- What is said about a program that does not fit. -/
def Oversize.message (e : Oversize) : String :=
  "program too large for VM memory: " ++ toString e.size ++ " bytes, maximum is " ++
    toString programLimit

/-- Everything that can go wrong with a machine and around it. -/
inductive Failure
  /-- The program does not fit. -/
  | oversize (cause : Oversize)
  /-- The program broke the stack. -/
  | fault (cause : Fault)
  /-- The configuration cannot be read. -/
  | config (detail : String)
  /-- Storage does not give what it was asked for. -/
  | storage (detail : String)
  /-- A value cannot be written as text. -/
  | format
  deriving DecidableEq, Repr

namespace Failure

/-- What is said about a failure. -/
def message : Failure → String
  | oversize e => e.message
  | fault e => e.message
  | config detail => "configuration error: " ++ detail
  | storage detail => detail
  | format => "an error occurred when formatting an argument"

/-- A program cannot go on after a fault; all else leaves the machine in order. -/
def isFatal : Failure → Bool
  | fault _ => true
  | _ => false

/-- What lies behind a failure, where it comes from outside. -/
def source? : Failure → Option String
  | storage detail => some detail
  | _ => none

end Failure

end ChipEight
