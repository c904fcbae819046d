/-!
# Clocks

A clock comes due once a period. Instants are counted in nanoseconds from a moment that
does not matter. A clock that is read late catches up period by period; one that has
fallen four periods behind starts anew from the present.
-/

namespace ChipEight

/-- A moment, in nanoseconds. -/
abbrev Instant := Nat

/-- How many nanoseconds a second has. -/
def nanosPerSecond : Nat := 1000000000

/-- The period of a frequency in hertz, in nanoseconds. The frequency zero means no wait at all. -/
def period (hz : UInt64) : Nat := if hz = 0 then 0 else nanosPerSecond / hz.toNat

/-- A clock. -/
structure Clock where
  /-- Its period in nanoseconds. -/
  interval : Nat
  /-- When its current period began. -/
  last : Instant
  deriving DecidableEq, Repr

namespace Clock

/-- How many periods a clock may fall behind before it stops catching up. -/
def maxLag : Nat := 4

/-- A clock of a frequency that starts now. -/
def ofHz (hz : UInt64) (now : Instant) : Clock := ⟨period hz, now⟩

/-- The clock with a period that begins now. -/
def reset (c : Clock) (now : Instant) : Clock := { c with last := now }

/-- A period has passed. -/
def isDue (c : Clock) (now : Instant) : Bool := c.interval ≤ now - c.last

/-- Read the clock: whether it is due, and the clock from then on. -/
def tick (c : Clock) (now : Instant) : Bool × Clock :=
  if c.isDue now then
    if c.interval * maxLag ≤ now - c.last then (true, c.reset now)
    else (true, { c with last := c.last + c.interval })
  else (false, c)

/-- A clock without a period is due whenever it is read. -/
theorem tick_of_interval_eq_zero {c : Clock} (h : c.interval = 0) (now : Instant) :
    c.tick now = (true, c.reset now) := by
  simp [tick, isDue, h]

/-- Reading a clock leaves its period alone. -/
theorem interval_tick (c : Clock) (now : Instant) : (c.tick now).2.interval = c.interval := by
  rw [tick]
  split
  · split <;> rfl
  · rfl

end Clock

end ChipEight
