/-!
# Timers

Two counters that fall by one at every tick and rest at zero. They count ticks only:
no instruction makes time pass.
-/

namespace ChipEight

/-- The two timers. -/
structure Timers where
  /-- The timer that programs read. -/
  delay : UInt8 := 0
  /-- The timer that keeps the buzzer on. -/
  sound : UInt8 := 0
  deriving DecidableEq, Repr

namespace Timers

/-- One less, but not below zero. -/
def countdown (t : UInt8) : UInt8 := if t = 0 then 0 else t - 1

/-- A tick of the timer clock. -/
def tick (t : Timers) : Timers := ⟨countdown t.delay, countdown t.sound⟩

/-- The buzzer is on as long as the sound timer runs. -/
def isSounding (t : Timers) : Bool := t.sound ≠ 0

/-- Counting down is subtraction on the natural numbers. -/
@[simp] theorem toNat_countdown (t : UInt8) : (countdown t).toNat = t.toNat - 1 := by
  unfold countdown
  split
  · simp [*]
  · next h =>
    have pos : 0 < t.toNat := Nat.pos_of_ne_zero fun h0 => h (UInt8.toNat_inj.1 (by simpa using h0))
    have le : (1 : UInt8) ≤ t := UInt8.le_iff_toNat_le.2 pos
    rw [UInt8.toNat_sub_of_le _ _ le]
    rfl

end Timers

end ChipEight
