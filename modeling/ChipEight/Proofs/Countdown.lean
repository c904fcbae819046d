import ChipEight.Proofs.Moments
import Mathlib.Data.List.Induction

/-!
# Timers count ticks

A timer is set by one instruction, `Fx15` or `Fx18`, and from then on it falls by one at every tick until it
rests at zero. Nothing else changes it, but for a load, which sets it to zero: no other instruction, no wait,
no end of the program, no fault and no request to stop (`reading_after`). So what it shows can be told from the
past alone: the byte that was stored last, less the ticks since then (`reading_perform`).
-/

namespace ChipEight

/-- One of the two timers. -/
inductive Timer
  /-- The timer that programs read. -/
  | delay
  /-- The timer that keeps the buzzer on. -/
  | sound
  deriving DecidableEq, Repr

namespace Timer

/-- What the timer shows. -/
def reading : Timer → Timers → UInt8
  | delay, t => t.delay
  | sound, t => t.sound

/-- The instruction that sets the timer to what is in a register. -/
def setter : Timer → Register → Op
  | delay, x => .setDelay x
  | sound, x => .setSound x

/-- The last two digits of its words. -/
def digits : Timer → UInt8
  | delay => 0x15
  | sound => 0x18

/-- The byte that a move stores in the timer: what is in `Vx` when it executes the word `Fx15` or `Fx18`. -/
def stored? (k : Timer) (t : Moment) : Option UInt8 :=
  (t.register? k.digits).map t.before.registers.get

/-- The last value that was stored in the timer since the last load, and zero if none was. -/
def lastStored (k : Timer) (past : List Moment) : Nat :=
  ((Moment.sinceLoad past).filterMap k.stored?).getLast?.elim 0 UInt8.toNat

/-- How many ticks there were since the last load and after the last value was stored. -/
def ticks (k : Timer) (past : List Moment) : Nat :=
  ((Moment.sinceLoad past).rtakeWhile fun t => (k.stored? t).isNone).countP fun t => t.move = .tick

/-! ### One more moment -/

variable (k : Timer)

/-- A value that is stored becomes the last one, and a load leaves none. -/
theorem lastStored_concat (past : List Moment) (t : Moment) :
    k.lastStored (past ++ [t]) =
      if t.move.reloads then 0 else (k.stored? t).elim (k.lastStored past) UInt8.toNat := by
  rw [lastStored, Moment.sinceLoad_concat]
  split
  · rfl
  · cases hs : k.stored? t <;> simp [hs, lastStored]

/-- A tick counts one, and after a load or a new value counting begins anew. -/
theorem ticks_concat (past : List Moment) (t : Moment) :
    k.ticks (past ++ [t]) =
      if t.move.reloads ∨ (k.stored? t).isSome then 0
      else k.ticks past + if t.move = .tick then 1 else 0 := by
  rw [ticks, Moment.sinceLoad_concat]
  cases t.move.reloads with
  | true => rfl
  | false =>
    cases hs : k.stored? t with
    | some v => simp [hs]
    | none => simp [hs, ticks, List.countP_cons]

/-! ### What a move does to a timer -/

/-- The instruction of a timer sets it. -/
theorem reading_of_setter {m n : Machine} {a : Address} {x : Register} {records : List Record}
    (h : m.execute a (k.setter x) = ⟨n, records, .ok ()⟩) : k.reading n.timers = m.registers.get x := by
  cases k <;> cases h <;> rfl

/-- All other instructions leave it alone. -/
theorem reading_of_other {m n : Machine} {a : Address} {op : Op} {records : List Record}
    (other : ∀ x, op ≠ k.setter x) (h : m.execute a op = ⟨n, records, .ok ()⟩) :
    k.reading n.timers = k.reading m.timers := by
  cases k <;> cases op
  case delay.setDelay x | sound.setSound x => exact absurd rfl (other x)
  case delay.setSound x | sound.setDelay x =>
    cases h
    rfl
  all_goals exact congrArg (reading _) (Machine.execute_frame (p := .timers) h rfl)

theorem setter_listed (x : Register) :
    (k.setter x).Listed ∧ (k.setter x).pattern = 0xF000 + 0x100 * (x : Nat) + k.digits.toNat := by
  cases k <;> exact ⟨trivial, rfl⟩

/-- **What a move does to a timer**: a load makes it zero, its instruction sets it, a tick counts it down,
and all else leaves it alone. -/
theorem reading_after (t : Moment) :
    (k.reading t.after.timers).toNat =
      if t.move.reloads then 0
      else (k.stored? t).elim
        ((k.reading t.before.timers).toNat - if t.move = .tick then 1 else 0) UInt8.toNat := by
  cases hr : t.register? k.digits with
  | some x =>
    obtain ⟨listed, pattern⟩ := k.setter_listed x
    obtain ⟨cycle, records, executed⟩ := Moment.execute_of_register? listed pattern hr
    rw [k.reading_of_setter executed, stored?, hr, cycle]
    rfl
  | none =>
    have stored : k.stored? t = none := by rw [stored?, hr, Option.map_none]
    rw [stored]
    obtain ⟨m, move⟩ := t
    cases move with
    | cycle =>
      have same : k.reading (Moment.after ⟨m, .cycle⟩).timers = k.reading m.timers := by
        cases he : Moment.executed? ⟨m, .cycle⟩ with
        | none => rw [Moment.after_of_executed_none rfl he]
        | some i =>
          obtain ⟨-, -, -, records, executed⟩ := Moment.exists_of_executed he
          have other (x : Register) : i.op ≠ k.setter x := by
            intro set
            obtain ⟨listed, pattern⟩ := k.setter_listed x
            rw [(Moment.register?_eq_some_iff listed pattern).2 ⟨i, he, set⟩] at hr
            cases hr
          exact (k.reading_of_other other executed).trans rfl
      rw [same]
      rfl
    | tick => cases k <;> exact Timers.toNat_countdown _
    | load program =>
      cases hl : (Move.load program).reloads with
      | true =>
        obtain ⟨_, -, restarted⟩ := Machine.make_of_reloads (m := m) hl
        rw [Moment.after, restarted]
        cases k <;> rfl
      | false =>
        rw [Moment.after, Machine.make_load hl]
        rfl
    | _ => rfl

/-- **A timer shows the value that was stored last, less the ticks since**, if it was at zero when the
machine was switched on. -/
theorem reading_perform {m : Machine} (atZero : m.timers = {}) (moves : List Move) :
    (k.reading (m.perform moves).timers).toNat =
      k.lastStored (m.path moves) - k.ticks (m.path moves) := by
  induction moves using List.reverseRecOn with
  | nil =>
    rw [Machine.perform, atZero]
    cases k <;> rfl
  | append_singleton moves move ih =>
    rw [Machine.perform_concat, Machine.path_concat, reading_after, lastStored_concat, ticks_concat, ih]
    cases move.reloads with
    | true => rfl
    | false =>
      cases k.stored? ⟨m.perform moves, move⟩ with
      | some v => rfl
      | none => simp [Nat.sub_sub]

end Timer

namespace Machine

/-- The timers of a machine are what its past makes of them, and the buzzer is on as long as fewer ticks have
passed than the sound timer was set to. -/
structure OnTime (m : Machine) (past : List Moment) : Prop where
  delay : m.timers.delay.toNat = Timer.delay.lastStored past - Timer.delay.ticks past
  sound : m.timers.sound.toNat = Timer.sound.lastStored past - Timer.sound.ticks past
  buzzer : m.isSounding = true ↔ Timer.sound.ticks past < Timer.sound.lastStored past

/-- The buzzer is on just if the sound timer is not at zero. -/
theorem isSounding_iff (m : Machine) : m.isSounding = true ↔ 0 < m.timers.sound.toNat := by
  rw [isSounding, Timers.isSounding, decide_eq_true_eq, ne_eq, ← UInt8.toNat_inj]
  exact Nat.pos_iff_ne_zero.symm

/-- What is done to a machine whose timers are at zero leaves it with its timers on time. -/
theorem onTime_perform {m : Machine} (atZero : m.timers = {}) (moves : List Move) :
    (m.perform moves).OnTime (m.path moves) := by
  have delay := Timer.delay.reading_perform atZero moves
  have sound := Timer.sound.reading_perform atZero moves
  refine ⟨delay, sound, ?_⟩
  rw [isSounding_iff, show (m.perform moves).timers.sound.toNat = _ from sound]
  exact Nat.sub_pos_iff_lt

/-- What `Fx07` does: the register gets what the delay timer shows. -/
theorem execute_readDelay {m n : Machine} {a : Address} {x : Register} {records : List Record}
    (h : m.execute a (.readDelay x) = ⟨n, records, .ok ()⟩) : n.registers.get x = m.timers.delay := by
  cases h
  exact (Registers.get_set ..).trans (if_pos rfl)

/-- **Timers count ticks, never instructions.** Take any machine and any history of it. At every moment, and
at the end, the delay timer shows `v` less `k`, but not below zero: here `v` is the byte that the last `Fx15`
executed since the last load stored (zero if there was none), and `k` is the number of ticks since then. The
sound timer shows the same for `Fx18`, whatever becomes of the delay timer, and the buzzer is on just if `k`
is less than `v`. When `Fx07` is executed, what it puts into `Vx` is what this says of the delay timer at that
moment, however many instructions, waits, faults and requests to stop there were. -/
theorem timers_count_ticks (config : Config) (chance : StreamKey) (history : List Event) :
    let m := create config chance
    (∀ past t future, m.moments history = past ++ t :: future →
        t.before.OnTime past ∧
          ∀ x, t.register? 0x07 = some x →
            (t.after.registers.get x).toNat = Timer.delay.lastStored past - Timer.delay.ticks past) ∧
      (m.after history).OnTime (m.moments history) := by
  intro m
  refine ⟨fun past t future split => ?_, ?_⟩
  · obtain ⟨old, new, -, rfl, before, -⟩ := exists_of_path_eq split
    have onTime : t.before.OnTime (m.path old) := by
      rw [before]
      exact onTime_perform rfl old
    refine ⟨onTime, fun x reads => ?_⟩
    obtain ⟨-, records, executed⟩ :=
      Moment.execute_of_register? (show (Op.readDelay x).Listed from trivial) rfl reads
    rw [execute_readDelay executed]
    exact onTime.delay
  · rw [← perform_moves]
    exact onTime_perform rfl _

/-- A program that sets the delay timer to five and the sound timer to two, and then reads the delay timer. -/
def fiveAndTwo : List UInt8 := [0x61, 0x05, 0xF1, 0x15, 0x62, 0x02, 0xF2, 0x18, 0xF3, 0x07]

/-- Two ticks after the timers were set, with a load that is refused and a request to stop in between, three
is read and the buzzer is off. -/
theorem timers_count_ticks_fiveAndTwo :
    let m := create {} 0
    let history := [.tick, .load fiveAndTwo, .run 4, .tick, .interrupt, .run 9, .tick,
      .load (List.replicate 3585 0), .step]
    ∃ past t, m.moments history = past ++ t :: [] ∧
      t.register? 0x07 = some 3 ∧
      Timer.delay.lastStored past = 5 ∧ Timer.delay.ticks past = 2 ∧
      (t.after.registers.get 3).toNat = 5 - 2 ∧
      (m.after history).timers.sound.toNat = 0 ∧ (m.after history).isSounding ≠ true := by
  intro m history
  let old : List Move := [.tick, .load fiveAndTwo, .cycle, .cycle, .cycle, .cycle, .tick, .interrupt,
    .resume, .tick, .load (List.replicate 3585 0), .drop]
  have moved : m.moves history = old ++ [.cycle] := by decide +kernel
  have split : m.moments history = m.path old ++ ⟨m.perform old, .cycle⟩ :: [] := by
    rw [moments_of_moves moved, path]
  obtain ⟨reads, five, two⟩ : Moment.register? 0x07 ⟨m.perform old, .cycle⟩ = some 3 ∧
      Timer.delay.lastStored (m.path old) = 5 ∧ Timer.delay.ticks (m.path old) = 2 := by
    decide +kernel
  have ended : Timer.sound.lastStored (m.moments history) - Timer.sound.ticks (m.moments history) = 0 := by
    rw [split]
    decide +kernel
  obtain ⟨each, last⟩ := timers_count_ticks {} 0 history
  change (m.after history).OnTime (m.moments history) at last
  have silent : (m.after history).timers.sound.toNat = 0 := by rw [last.sound, ended]
  obtain ⟨-, read⟩ := each _ _ _ split
  have three := read _ reads
  rw [five, two] at three
  refine ⟨_, _, split, reads, five, two, three, silent, fun on => ?_⟩
  have running := last.buzzer.1 on
  omega

end Machine

end ChipEight
