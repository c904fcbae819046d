/-!
# Configuration

What a machine is set up with: how fast its two clocks go, and where its random words
come from.
-/

namespace ChipEight

/-- The frequency of the timer clock unless another is configured. -/
def defaultTimerFrequency : UInt64 := 60

/-- The frequency of the instruction clock unless one is configured. -/
def defaultInstructionFrequency : UInt64 := 700

/-- The configuration of a machine. Frequencies are in hertz, and zero means as fast as can be. -/
structure Config where
  /-- The frequency of the instruction clock; none leaves it to the driver. -/
  clockFrequency : Option UInt64 := none
  /-- The frequency of the timer clock. -/
  timerFrequency : UInt64 := defaultTimerFrequency
  /-- The seed of the random words; none leaves them to chance. -/
  seed : Option UInt64 := none
  deriving DecidableEq, Repr

namespace Config

/-- The configuration where nothing is configured. -/
def default : Config := {}

/-- The frequency of the instruction clock. -/
def instructionFrequency (c : Config) : UInt64 :=
  c.clockFrequency.getD defaultInstructionFrequency

end Config

end ChipEight
