import ChipEight.Console.Session
import ChipEight.Proofs.Execution

/-!
# Rounds of a session

A session takes turns until one of them ends it. Here each turn is noted with the session that it finds: a
`Round`. Whatever is said about "every turn of a session" is said about its rounds.

Nothing is lost: a session comes to what its last round leaves, and logs what its rounds log
(`runFrom_eq_rounds`). What holds before the first round and is kept by each of them holds before every
round (`roundsFrom_induction`).
-/

namespace ChipEight

/-- The buzzer is brought in line with the sound timer, and only a change is logged. -/
theorem Session.soundBuzzer_eq (s : Session) :
    s.soundBuzzer =
      ({ s with buzzer := s.machine.isSounding },
        if s.machine.isSounding = s.buzzer then [] else [.buzzer s.machine.isSounding]) := by
  rw [soundBuzzer]
  split
  · next same => rw [same]
  · rfl

/-- A session, and the moment at which it takes a turn. -/
structure Round where
  /-- The session that the turn finds. -/
  before : Session
  /-- When the turn is taken. -/
  now : Instant

namespace Round

variable (t : Round)

/-- What the turn leaves behind. -/
def turn : Turn := t.before.turn t.now

/-- The session after the turn. -/
def after : Session := t.turn.session

/-- The session in the middle of the turn: the clocks were looked at, the timers have ticked if their
clock was due, and the buzzer is in line with them. -/
def midway : Session :=
  { t.before.tickTimers t.now with
    instructionClock := (t.before.instructionClock.tick t.now).2
    buzzer := (t.before.tickTimers t.now).machine.isSounding }

/-- What the turn logs about the buzzer. -/
def sounded : List Notice :=
  if t.midway.buzzer = t.before.buzzer then [] else [.buzzer t.midway.buzzer]

/-- The turn comes to an instruction: it is not cut off by the limit, the clock is due, and the machine was
not asked to stop. -/
def executes : Bool :=
  !t.before.isSpent && (t.before.instructionClock.tick t.now).1 && !t.midway.machine.interrupted

/-- A turn with room for an instruction goes through its middle. -/
theorem turn_of_room {t : Round} (room : t.before.isSpent = false) :
    t.turn =
      if (t.before.instructionClock.tick t.now).1 then
        { t.midway.executeNext with notices := t.sounded ++ t.midway.executeNext.notices }
      else ⟨t.midway, t.sounded, none⟩ := by
  rw [turn, Session.turn, room, Session.soundBuzzer_eq]
  rfl

/-- A turn without room for an instruction ends the session. -/
theorem turn_of_spent {t : Round} (spent : t.before.isSpent = true) :
    t.turn = ⟨t.before, [.stepLimit], some (.ok ())⟩ := by
  rw [turn, Session.turn, if_pos spent]

theorem room_of_ended_none {t : Round} (goesOn : t.turn.ended = none) : t.before.isSpent = false := by
  cases spent : t.before.isSpent with
  | false => rfl
  | true =>
    rw [turn_of_spent spent] at goesOn
    cases goesOn

end Round

namespace Session

/-- Executing an instruction touches the machine and the count only. -/
theorem executeNext_session (s : Session) :
    ∃ executed, s.executeNext.session =
      { s with
        machine := if s.machine.interrupted then s.machine.resume else s.machine.cycle.machine
        executed := executed } := by
  rw [executeNext]
  cases asked : s.machine.interrupted with
  | true => exact ⟨_, rfl⟩
  | false =>
    rw [Machine.step_of_running asked]
    rcases s.machine.cycle with ⟨after, records, fault | _ | i⟩
    · exact ⟨_, rfl⟩
    · exact ⟨_, rfl⟩
    · cases waits : after.waiting
      · exact ⟨s.executed + 1, by simp [waits]⟩
      · exact ⟨s.executed, by simp [waits]⟩

/-- At most `turns` rounds, the one with number `k` at the moment `timeline k`, beginning with number `k`.
A round that ends the session is the last one. -/
def roundsFrom (timeline : Nat → Instant) : (turns k : Nat) → Session → List Round
  | 0, _, _ => []
  | turns + 1, k, s =>
    let t : Round := ⟨s, timeline k⟩
    t :: if t.turn.ended.isSome then [] else roundsFrom timeline turns (k + 1) t.after

/-- The rounds of a session. -/
def rounds (timeline : Nat → Instant) (turns : Nat) (s : Session) : List Round :=
  roundsFrom timeline turns 0 s

/-- What rounds log, in order. -/
def logged (rounds : List Round) : List Notice := rounds.flatMap fun t => t.turn.notices

theorem logged_concat (past : List Round) (t : Round) :
    logged (past ++ [t]) = logged past ++ t.turn.notices := by
  simp [logged]

variable {timeline : Nat → Instant} {turns k : Nat} {s : Session} {past future : List Round} {t : Round}

/-- **A session is its rounds**: it comes to an end if one of them ends it, and then it leaves what the last
one leaves, and logs what they all log. -/
theorem runFrom_eq_rounds (timeline : Nat → Instant) (turns k : Nat) (s : Session) :
    runFrom timeline turns k s [] =
      (roundsFrom timeline turns k s).getLast?.bind fun t =>
        t.turn.ended.map fun answer => ⟨t.after, logged (roundsFrom timeline turns k s), answer⟩ := by
  induction turns generalizing k s with
  | zero => rfl
  | succ turns ih =>
    rw [runFrom_succ, roundsFrom]
    rcases ht : s.turn (timeline k) with ⟨after, notices, _ | answer⟩
    · have first : Round.turn ⟨s, timeline k⟩ = ⟨after, notices, none⟩ := ht
      simp only [first, Round.after, Option.isSome_none, Bool.false_eq_true, if_false, ih (k + 1) after]
      cases roundsFrom timeline turns (k + 1) after with
      | nil => simp [first]
      | cons u others =>
        simp only [logged, List.getLast?_cons_cons, List.flatMap_cons, first]
        cases (u :: others).getLast? <;> simp [Function.comp_def]
    · have first : Round.turn ⟨s, timeline k⟩ = ⟨after, notices, some answer⟩ := ht
      simp [first, Round.after, logged]

/-- The first round finds the session. If others follow, it does not end the session, and they are the rounds
of what it leaves. -/
theorem roundsFrom_eq_cons (split : roundsFrom timeline turns k s = t :: future) :
    t.before = s ∧
      (future ≠ [] → t.turn.ended = none ∧ ∃ turns k, roundsFrom timeline turns k t.after = future) := by
  cases turns with
  | zero => cases split
  | succ turns =>
    obtain ⟨rfl, rest⟩ := List.cons.inj split
    refine ⟨rfl, fun more => ?_⟩
    split at rest
    · exact absurd rest.symm more
    · next goesOn => exact ⟨by simpa using goesOn, turns, k + 1, rest⟩

/-- The rounds after some round are those of the session that it leaves. -/
theorem exists_of_roundsFrom_eq (split : roundsFrom timeline turns k s = past ++ t :: future)
    (more : future ≠ []) : ∃ turns k, roundsFrom timeline turns k t.after = future := by
  induction past generalizing turns k s with
  | nil => exact ((roundsFrom_eq_cons split).2 more).2
  | cons b past ih =>
    obtain ⟨-, turns, k, others⟩ := (roundsFrom_eq_cons split).2 (by simp)
    exact ih others

/-- **What holds before the first round, and is kept by every round, holds before every round.** -/
theorem roundsFrom_induction {P : Session → List Round → Prop} (start : P s [])
    (kept : ∀ past t, P t.before past → P t.after (past ++ [t]))
    (split : roundsFrom timeline turns k s = past ++ t :: future) : P t.before past := by
  induction past generalizing turns k s P with
  | nil => rwa [(roundsFrom_eq_cons split).1]
  | cons b past ih =>
    obtain ⟨rfl, more⟩ := roundsFrom_eq_cons split
    obtain ⟨-, turns, k, others⟩ := more (by simp)
    -- the first round joins the past of the others
    exact ih (P := fun n past => P n (b :: past)) (kept [] b start) (fun past t => kept (b :: past) t) others

end Session

end ChipEight
