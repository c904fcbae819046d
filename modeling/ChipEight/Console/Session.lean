import ChipEight.Clock
import ChipEight.Console.Notice
import ChipEight.Machine.Cycle

/-!
# Sessions

A session drives a machine by two clocks: one for its instructions and one for its
timers. Neither waits for the other. The session goes round in turns; in a turn the
timers tick if their clock is due, then the buzzer is compared with the sound timer, and
then an instruction is executed if the other clock is due. It ends when the program
ends, fails or waits for a key, when the machine is asked to stop, or when enough
instructions were executed.
-/

namespace ChipEight

/-- A machine with its clocks. -/
structure Session where
  /-- The machine. -/
  machine : Machine
  /-- The clock of the instructions. -/
  instructionClock : Clock
  /-- The clock of the timers. -/
  timerClock : Clock
  /-- The buzzer is on. -/
  buzzer : Bool
  /-- How many instructions were executed. -/
  executed : Nat
  /-- How many instructions may be executed; none means any number. -/
  limit : Option Nat
  deriving DecidableEq

/-- What a turn leaves behind. -/
structure Turn where
  /-- The session after the turn. -/
  session : Session
  /-- What is logged, in order. -/
  notices : List Notice
  /-- How the session ended, if it did. -/
  ended : Option (Except Fault Unit)

namespace Session

/-- A session that begins now. -/
def start (m : Machine) (limit : Option Nat) (now : Instant) : Session where
  machine := m
  instructionClock := Clock.ofHz m.config.instructionFrequency now
  timerClock := Clock.ofHz m.config.timerFrequency now
  buzzer := false
  executed := 0
  limit := limit

variable (s : Session)

/-- No more instructions may be executed. -/
def isSpent : Bool := s.limit.any fun limit => decide (limit ≤ s.executed)

/-- Let the timers tick if their clock is due. -/
def tickTimers (now : Instant) : Session :=
  let (due, clock) := s.timerClock.tick now
  { s with
    machine := if due then s.machine.tick else s.machine
    timerClock := clock }

/-- Bring the buzzer in line with the sound timer; a change is logged. -/
def soundBuzzer : Session × List Notice :=
  if s.machine.isSounding = s.buzzer then (s, [])
  else ({ s with buzzer := s.machine.isSounding }, [.buzzer s.machine.isSounding])

/-- Execute an instruction, unless the machine was asked to stop. -/
def executeNext : Turn :=
  if s.machine.interrupted then
    ⟨{ s with machine := s.machine.resume }, [.interrupted s.machine.pc], some (.ok ())⟩
  else
    let o := s.machine.step
    let after := { s with machine := o.machine }
    let noted := o.records.map Notice.machine
    match o.answer with
    | .error fault => ⟨after, noted, some (.error fault)⟩
    | .ok none => ⟨after, noted ++ [.halted o.machine.pc], some (.ok ())⟩
    | .ok (some i) =>
      if o.machine.waiting then ⟨after, noted ++ [.keyMissing i.address], some (.ok ())⟩
      else ⟨{ after with executed := s.executed + 1 }, noted, none⟩

/-- A turn at a moment. -/
def turn (now : Instant) : Turn :=
  if s.isSpent then ⟨s, [.stepLimit], some (.ok ())⟩
  else
    let (s, sounded) := (s.tickTimers now).soundBuzzer
    let (due, clock) := s.instructionClock.tick now
    let s := { s with instructionClock := clock }
    if due then
      let t := s.executeNext
      { t with notices := sounded ++ t.notices }
    else ⟨s, sounded, none⟩

end Session

/-- How a session came to its end. -/
structure Session.Result where
  /-- The session at its end. -/
  session : Session
  /-- What was logged, in order. -/
  notices : List Notice
  /-- Whether the program broke the stack. -/
  answer : Except Fault Unit

namespace Session

/-- At most `turns` turns, the one with number `k` at the moment `timeline k`, beginning with number
`k` and after the notices in `noted`, which has the last one first. -/
def runFrom (timeline : Nat → Instant) : (turns k : Nat) → Session → List Notice → Option Result
  | 0, _, _, _ => none
  | turns + 1, k, s, noted =>
    match s.turn (timeline k) with
    | ⟨s, notices, some answer⟩ => some ⟨s, (notices.reverse ++ noted).reverse, answer⟩
    | ⟨s, notices, none⟩ => runFrom timeline turns (k + 1) s (notices.reverse ++ noted)

/-- Go on until the session ends; nothing if `turns` turns are not enough. -/
def run (timeline : Nat → Instant) (turns : Nat) (s : Session) : Option Result :=
  runFrom timeline turns 0 s []

/-- Notices given before stay in front of those of the turns that follow. -/
theorem runFrom_eq (timeline : Nat → Instant) (turns k : Nat) (s : Session) (noted : List Notice) :
    runFrom timeline turns k s noted =
      (runFrom timeline turns k s []).map fun r =>
        { r with notices := noted.reverse ++ r.notices } := by
  induction turns generalizing k s noted with
  | zero => rfl
  | succ turns ih =>
    unfold runFrom
    split
    · simp
    · rw [ih, ih (k + 1) _ (_ ++ [])]
      simp [Function.comp_def]

/-- A session is a turn and, if that did not end it, the turns after it. -/
theorem runFrom_succ (timeline : Nat → Instant) (turns k : Nat) (s : Session) :
    runFrom timeline (turns + 1) k s [] =
      match s.turn (timeline k) with
      | ⟨s, notices, some answer⟩ => some ⟨s, notices, answer⟩
      | ⟨s, notices, none⟩ =>
        (runFrom timeline turns (k + 1) s []).map fun r =>
          { r with notices := notices ++ r.notices } := by
  rw [runFrom]
  split
  · simp
  · rw [runFrom_eq]
    simp

end Session

end ChipEight
