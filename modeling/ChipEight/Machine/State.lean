import ChipEight.Config
import ChipEight.Display
import ChipEight.Failure
import ChipEight.Generator
import ChipEight.Keypad
import ChipEight.Memory
import ChipEight.Registers
import ChipEight.Timers
import ChipEight.Machine.Record

/-!
# The state of a machine

All that a machine consists of, and what reaches it from outside: programs, keys, ticks
of the timer clock, and requests to stop. An operation gives an `Outcome`: the machine
after it, the events noted meanwhile, and an answer.
-/

namespace ChipEight

/-- A machine. -/
structure Machine where
  /-- What it was set up with. -/
  config : Config
  /-- Where its random bytes come from. -/
  generator : Generator
  /-- Its memory. -/
  memory : Memory
  /-- Its registers. -/
  registers : Registers
  /-- The address register `I`. -/
  index : Address
  /-- The address of the next instruction. -/
  pc : Address
  /-- The addresses to return to, the last call first. -/
  stack : List Address
  /-- Its timers. -/
  timers : Timers
  /-- Its display. -/
  display : Display
  /-- Its keypad. -/
  keypad : Keypad
  /-- The instruction at `pc` waits for a key to go down. -/
  waiting : Bool
  /-- It was asked to stop before the next instruction. -/
  interrupted : Bool
  deriving DecidableEq

/-- What an operation leaves behind. -/
structure Outcome (α : Type) where
  /-- The machine after the operation. -/
  machine : Machine
  /-- The events noted during the operation, in order. -/
  records : List Record
  /-- The answer. -/
  answer : α

/-- The key of the random words of a configuration: that of its seed, and `chance` if it has none. -/
def Config.streamKey (c : Config) (chance : StreamKey) : StreamKey :=
  match c.seed with
  | some seed => Generator.keyOfSeed seed
  | none => chance

namespace Machine

/-- A machine of a configuration, switched on. Where the configuration has no seed, the random words
are those of the key `chance`. -/
def create (config : Config) (chance : StreamKey) : Machine where
  config := config
  generator := Generator.ofKey (config.streamKey chance)
  memory := Memory.blank
  registers := Registers.zero
  index := 0
  pc := programStart
  stack := []
  timers := {}
  display := Display.dark
  keypad := {}
  waiting := false
  interrupted := false

/-- The machine with a program in memory and all else as after switching on, but for the keys, which
are still held, and for the random words, which go on. -/
def restart (m : Machine) (program : List UInt8) : Machine where
  config := m.config
  generator := m.generator
  memory := Memory.ofProgram program
  registers := Registers.zero
  index := 0
  pc := programStart
  stack := []
  timers := {}
  display := Display.dark
  keypad := m.keypad.forget
  waiting := false
  interrupted := false

/-- Load a program and start anew. A program that does not fit changes nothing. -/
def load (m : Machine) (program : List UInt8) : Outcome (Except Oversize Unit) :=
  if programLimit < program.length then ⟨m, [], .error ⟨program.length⟩⟩
  else ⟨m.restart program, [.loaded program.length], .ok ()⟩

/-- A program that fits is taken. -/
theorem load_of_fits (m : Machine) {program : List UInt8} (fits : program.length ≤ programLimit) :
    m.load program = ⟨m.restart program, [.loaded program.length], .ok ()⟩ :=
  if_neg (Nat.not_lt.2 fits)

/-- A tick of the timer clock. -/
def tick (m : Machine) : Machine := { m with timers := m.timers.tick }

/-- A key goes down or up. -/
def setKey (m : Machine) (k : Key) (down : Bool) : Machine :=
  { m with keypad := m.keypad.set k down }

/-- All keys go up. -/
def clearKeys (m : Machine) : Machine := { m with keypad := Keypad.clear }

/-- Ask the machine to stop before its next instruction. -/
def interrupt (m : Machine) : Machine := { m with interrupted := true }

/-- The machine with no request to stop. -/
def resume (m : Machine) : Machine := { m with interrupted := false }

/-- Take a request to stop: whether there was one, and the machine without it. -/
def takeInterrupt (m : Machine) : Outcome Bool := ⟨m.resume, [], m.interrupted⟩

/-- The buzzer is on. -/
def isSounding (m : Machine) : Bool := m.timers.isSounding

end Machine

end ChipEight
