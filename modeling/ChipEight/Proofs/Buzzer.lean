import ChipEight.Proofs.Countdown
import ChipEight.Proofs.Rounds
import Mathlib.Data.List.Chain

/-!
# The buzzer follows the sound timer

A session looks at the sound timer once in every turn, after the timers have ticked and before an instruction
is executed, and logs what has changed. So what it has logged about the buzzer takes turns, and the last of it
tells whether the sound timer was running in the middle of the last turn (`InTune`). This is so with any
clocks.

Where the timers tick in every turn, a value `v` that an instruction stores is down to `v - j` in the middle of
the `j`-th turn after it, because the tick comes first: the buzzer is on in `v - 1` turns, and not in `v`
(`buzzer_follows_timer`).
-/

namespace ChipEight

open List

/-! ### What a log says about the buzzer -/

/-- What an entry of the log says about the buzzer, if it is about it: that it went on, or off. -/
def Entry.buzzer? (e : Entry) : Option Bool :=
  if e = ⟨.debug, "buzzer on"⟩ then some true
  else if e = ⟨.debug, "buzzer off"⟩ then some false
  else none

/-- The notice is about the buzzer. -/
def Notice.isBuzzer : Notice → Bool
  | .buzzer _ => true
  | _ => false

@[simp] theorem Notice.buzzer?_entry_buzzer (on : Bool) : (buzzer on).entry.buzzer? = some on := by
  cases on <;> decide

/-- No other notice is logged as one about the buzzer. -/
theorem Notice.buzzer?_entry {n : Notice} (other : n.isBuzzer = false) : n.entry.buzzer? = none := by
  have differs (on : Bool) : n.entry ≠ (buzzer on).entry := by
    intro same
    -- the level or the first letter tells them apart
    have level := congrArg Entry.level same
    have letter := congrArg (fun e => e.message.toList.head?) same
    cases n with
    | machine r => cases r <;> cases on <;> simp [entry, Record.entry] at level letter
    | buzzer b => cases other
    | _ => cases on <;> simp [entry] at level
  exact (if_neg (differs true)).trans (if_neg (differs false))

/-- What a log says about the buzzer, in order. -/
def buzzerEntries (log : List Notice) : List Bool := (log.map Notice.entry).filterMap Entry.buzzer?

/-- The buzzer is on, as far as a log tells. -/
def buzzerOn (log : List Notice) : Bool := (buzzerEntries log).getLastD false

theorem buzzerEntries_append (log more : List Notice) :
    buzzerEntries (log ++ more) = buzzerEntries log ++ buzzerEntries more := by
  simp [buzzerEntries]

theorem buzzerEntries_of_other {log : List Notice} (other : ∀ n ∈ log, n.isBuzzer = false) :
    buzzerEntries log = [] := by
  simpa [buzzerEntries] using fun n hn => Notice.buzzer?_entry (other n hn)

/-! ### One more turn -/

/-- What a session has logged about the buzzer is right. -/
structure Session.InTune (s : Session) (log : List Notice) : Prop where
  /-- It took turns: on, off, and so on, from a buzzer that was off. -/
  alternates : (false :: buzzerEntries log).IsChain (· ≠ ·)
  /-- The last of it tells what the session takes the buzzer for. -/
  last : s.buzzer = buzzerOn log

/-- Executing an instruction says nothing about the buzzer. -/
theorem Session.isBuzzer_executeNext (s : Session) : ∀ n ∈ s.executeNext.notices, n.isBuzzer = false := by
  rw [executeNext]
  cases asked : s.machine.interrupted with
  | true => simp [Notice.isBuzzer]
  | false =>
    rcases s.machine.step with ⟨after, records, fault | _ | i⟩
    · simp [Notice.isBuzzer]
    · simp [Notice.isBuzzer, or_imp, forall_and]
    · cases waits : after.waiting <;> simp [waits, Notice.isBuzzer, or_imp, forall_and]

namespace Round

variable {t : Round}

theorem buzzerEntries_sounded (t : Round) :
    buzzerEntries t.sounded = if t.midway.buzzer = t.before.buzzer then [] else [t.midway.buzzer] := by
  rw [sounded]
  split
  · rfl
  · simp [buzzerEntries]

/-- After a turn with room for an instruction, the buzzer is as it was brought in line in the middle of it. -/
theorem buzzer_after (room : t.before.isSpent = false) : t.after.buzzer = t.midway.buzzer := by
  rw [after, turn_of_room room]
  split
  · obtain ⟨executed, same⟩ := t.midway.executeNext_session
    rw [same]
  · rfl

/-- **A turn logs a change of the buzzer, once, and nothing else about it.** -/
theorem buzzerEntries_turn (t : Round) :
    buzzerEntries t.turn.notices = if t.after.buzzer = t.before.buzzer then [] else [t.after.buzzer] := by
  cases room : t.before.isSpent with
  | true =>
    rw [after, turn_of_spent room, if_pos rfl]
    rfl
  | false =>
    rw [buzzer_after room, turn_of_room room, ← buzzerEntries_sounded]
    split
    · rw [buzzerEntries_append, buzzerEntries_of_other t.midway.isBuzzer_executeNext, append_nil]
    · rfl

end Round

/-- What was logged stays right if a change of the buzzer, and only a change, is added. -/
theorem Session.InTune.append {s n : Session} {log more : List Notice} (h : s.InTune log)
    (added : buzzerEntries more = if n.buzzer = s.buzzer then [] else [n.buzzer]) : n.InTune (log ++ more) := by
  have entries := buzzerEntries_append log more
  rw [added] at entries
  split at entries
  · next same =>
    rw [append_nil] at entries
    refine ⟨?_, ?_⟩
    · rw [entries]
      exact h.alternates
    · rw [buzzerOn, entries, same]
      exact h.last
  · next change =>
    refine ⟨?_, ?_⟩
    · rw [entries, ← cons_append, isChain_append]
      refine ⟨h.alternates, isChain_singleton _, ?_⟩
      simpa [getLast?_cons, h.last, buzzerOn, eq_comm] using change
    · rw [buzzerOn, entries, getLastD_concat]

/-! ### A value that runs down -/

namespace Round

variable {t : Round}

/-- The byte that the turn stores in the sound timer: what is in `Vx` when it executes `Fx18`. -/
def stored? (t : Round) : Option UInt8 :=
  if t.executes then Timer.sound.stored? ⟨t.midway.machine, .cycle⟩ else none

/-- After a turn the sound timer shows what the turn has stored, and what it showed in the middle of the
turn if nothing was stored. -/
theorem sound_after (room : t.before.isSpent = false) :
    t.after.machine.timers.sound.toNat =
      t.stored?.elim t.midway.machine.timers.sound.toNat UInt8.toNat := by
  rw [after, turn_of_room room, stored?, executes, room]
  cases (t.before.instructionClock.tick t.now).1 with
  | false => rfl
  | true =>
    obtain ⟨executed, same⟩ := t.midway.executeNext_session
    simp only [if_true, same]
    cases t.midway.machine.interrupted with
    | true => rfl
    | false => exact Timer.sound.reading_after ⟨t.midway.machine, .cycle⟩

/-- The period of the timer clock stays as it is. -/
theorem timerInterval_after (t : Round) : t.after.timerClock.interval = t.before.timerClock.interval := by
  have read : t.midway.timerClock.interval = t.before.timerClock.interval :=
    t.before.timerClock.interval_tick t.now
  cases room : t.before.isSpent with
  | true => rw [after, turn_of_spent room]
  | false =>
    rw [after, turn_of_room room, ← read]
    split
    · obtain ⟨executed, same⟩ := t.midway.executeNext_session
      rw [same]
    · rfl

/-- Timers without a period tick in every turn. -/
theorem machine_midway (timers : t.before.timerClock.interval = 0) :
    t.midway.machine = t.before.machine.tick := by
  change (if (t.before.timerClock.tick t.now).1 then _ else _) = _
  rw [Clock.tick_of_interval_eq_zero timers]
  rfl

theorem sound_midway (timers : t.before.timerClock.interval = 0) :
    t.midway.machine.timers.sound.toNat = t.before.machine.timers.sound.toNat - 1 := by
  rw [machine_midway timers]
  exact Timers.toNat_countdown _

theorem buzzer_midway_iff : t.midway.buzzer = true ↔ 0 < t.midway.machine.timers.sound.toNat :=
  t.midway.machine.isSounding_iff

/-- A turn that stores a value has room for an instruction. -/
theorem room_of_stored {v : UInt8} (stored : t.stored? = some v) : t.before.isSpent = false := by
  cases spent : t.before.isSpent with
  | false => rfl
  | true => simp [stored?, executes, spent] at stored

/-- A buzzer that is off stays off when the sound timer is at zero in the middle of the turn. -/
theorem buzzer_after_of_silent (off : t.before.buzzer = false)
    (zero : t.midway.machine.timers.sound.toNat = 0) : t.after.buzzer = false := by
  cases room : t.before.isSpent with
  | true => rwa [after, turn_of_spent room]
  | false =>
    rw [buzzer_after room, Bool.eq_false_iff, ne_eq, buzzer_midway_iff, zero]
    exact lt_irrefl 0

end Round

namespace Session

variable {timeline : Nat → Instant} {turns k : Nat} {s : Session} {past future : List Round} {t : Round}

/-- **As long as nothing is stored, the sound timer falls by one in every turn.** If it is at one already, or
at zero, a buzzer that is off stays off. -/
theorem sound_of_quiet (timers : s.timerClock.interval = 0)
    (split : roundsFrom timeline turns k s = past ++ t :: future) (quiet : ∀ b ∈ past, b.stored? = none) :
    t.before.machine.timers.sound.toNat = s.machine.timers.sound.toNat - past.length ∧
      (s.machine.timers.sound.toNat ≤ 1 → s.buzzer = false → t.before.buzzer = false) := by
  induction past generalizing turns k s with
  | nil =>
    rw [(roundsFrom_eq_cons split).1]
    exact ⟨rfl, fun _ off => off⟩
  | cons b past ih =>
    obtain ⟨rfl, more⟩ := roundsFrom_eq_cons split
    obtain ⟨goesOn, turns, k, others⟩ := more (by simp)
    have room := Round.room_of_ended_none goesOn
    obtain ⟨unstored, quiet⟩ := forall_mem_cons.1 quiet
    obtain ⟨falls, stays⟩ := ih (b.timerInterval_after.trans timers) others quiet
    have middle := Round.sound_midway timers
    have after : b.after.machine.timers.sound.toNat = b.before.machine.timers.sound.toNat - 1 := by
      rw [Round.sound_after room, unstored, Option.elim_none, middle]
    refine ⟨?_, fun low off => stays (by omega) ?_⟩
    · rw [falls, after, length_cons]
      omega
    · exact Round.buzzer_after_of_silent off (middle.trans (Nat.sub_eq_zero_of_le low))

/-- What a session has logged about the buzzer is right before every round. -/
theorem inTune_before (off : s.buzzer = false)
    (split : roundsFrom timeline turns k s = past ++ t :: future) : t.before.InTune (logged past) := by
  refine roundsFrom_induction (P := fun n past => n.InTune (logged past)) ?_ (fun past t h => ?_) split
  · exact ⟨isChain_singleton _, off⟩
  · rw [logged_concat]
    exact h.append t.buzzerEntries_turn

/-- What a session has logged about the buzzer is right after every round. -/
theorem inTune_after (off : s.buzzer = false)
    (split : roundsFrom timeline turns k s = past ++ t :: future) :
    t.after.InTune (logged (past ++ [t])) := by
  rw [logged_concat]
  exact (inTune_before off split).append t.buzzerEntries_turn

/-- After a turn with room for an instruction, the log says that the buzzer is on just if the sound timer was
running in the middle of the turn. -/
theorem buzzerOn_iff (off : s.buzzer = false)
    (split : roundsFrom timeline turns k s = past ++ t :: future) (room : t.before.isSpent = false) :
    buzzerOn (logged (past ++ [t])) = true ↔ 0 < t.midway.machine.timers.sound.toNat := by
  rw [← (inTune_after off split).last, Round.buzzer_after room, Round.buzzer_midway_iff]

/-- What the rounds of a session log about the buzzer takes turns. -/
theorem isChain_buzzerEntries (off : s.buzzer = false) (timeline : Nat → Instant) (turns k : Nat) :
    (false :: buzzerEntries (logged (roundsFrom timeline turns k s))).IsChain (· ≠ ·) := by
  rcases eq_nil_or_concat (roundsFrom timeline turns k s) with none | ⟨past, t, split⟩
  · rw [none]
    exact isChain_singleton _
  · rw [concat_eq_append] at split
    rw [split]
    exact (inTune_after off split).alternates

/-- The timer clock keeps its period. -/
theorem timerInterval_before (split : roundsFrom timeline turns k s = past ++ t :: future) :
    t.before.timerClock.interval = s.timerClock.interval :=
  roundsFrom_induction (P := fun n _ => n.timerClock.interval = s.timerClock.interval) rfl
    (fun _ t h => t.timerInterval_after.trans h) split

/-- **A stored value keeps the buzzer on for as many turns as it says, less one.** A one keeps a buzzer off. -/
theorem sound_of_stored {between : List Round} {u : Round} {v : UInt8} (timers : s.timerClock.interval = 0)
    (split : roundsFrom timeline turns k s = past ++ t :: (between ++ u :: future))
    (stored : t.stored? = some v) (quiet : ∀ b ∈ between, b.stored? = none) :
    u.midway.machine.timers.sound.toNat = v.toNat - (between.length + 1) ∧
      (v.toNat ≤ 1 → t.after.buzzer = false → u.before.buzzer = false) := by
  have room := Round.room_of_stored stored
  have unpaced := (timerInterval_before split).trans timers
  have shows : t.after.machine.timers.sound.toNat = v.toNat := by rw [Round.sound_after room, stored]; rfl
  obtain ⟨turns, k, others⟩ := exists_of_roundsFrom_eq split (by simp)
  have stays := t.timerInterval_after.trans unpaced
  obtain ⟨falls, off⟩ := sound_of_quiet stays others quiet
  rw [shows] at falls off
  refine ⟨?_, off⟩
  rw [Round.sound_midway ((timerInterval_before others).trans stays), falls]
  omega

/-- **The buzzer follows the sound timer.** Take any machine, any session of it, with or without a limit, and its
turns, all of them or only some of the first. If the session comes to an end with the last of them, be it at the
limit, at the end of the program, at a wait for a key, on request or by a fault, then its log is what they log. The
entries about the buzzer take turns, and the first one says that it went on. After every turn that the limit does not
cut off, the last of them so far says that the buzzer is on just if the sound timer was above zero in the middle of
this turn, when the timers had ticked; where there is none, the buzzer is off.

If the timers have no period, they tick in every turn. Let then a turn store `v` in the sound timer, and take the
`j`-th turn after it, with nothing stored in between. If the limit does not cut that turn off, the buzzer is on after it
just if `j` is less than `v`: it is on for `v - 1` turns. And if `v` is one and the buzzer was off, that turn logs
nothing about it. -/
theorem buzzer_follows_timer (m : Machine) (limit : Option Nat) (now : Instant) (timeline : Nat → Instant)
    (turns : Nat) :
    let s := start m limit now
    let rounds := s.rounds timeline turns
    (∀ r, s.run timeline turns = some r →
        r.notices = logged rounds ∧
          ∃ past t, rounds = past ++ [t] ∧ r.session = t.after ∧ t.turn.ended = some r.answer) ∧
      (false :: buzzerEntries (logged rounds)).IsChain (· ≠ ·) ∧
      (∀ past t future, rounds = past ++ t :: future → t.before.isSpent = false →
        (buzzerOn (logged (past ++ [t])) = true ↔ 0 < t.midway.machine.timers.sound.toNat)) ∧
      (period m.config.timerFrequency = 0 →
        (∀ t ∈ rounds, t.midway.machine = t.before.machine.tick) ∧
          ∀ past t between u future v, rounds = past ++ t :: (between ++ u :: future) →
            t.stored? = some v → (∀ b ∈ between, b.stored? = none) →
              (u.before.isSpent = false →
                (buzzerOn (logged (past ++ t :: (between ++ [u]))) = true ↔ between.length + 1 < v.toNat)) ∧
              (v = 1 → buzzerOn (logged (past ++ [t])) = false → buzzerEntries u.turn.notices = [])) := by
  intro s rounds
  have off : s.buzzer = false := rfl
  refine ⟨fun r hr => ?_, isChain_buzzerEntries off timeline turns 0,
    fun past t future split => buzzerOn_iff off split, fun timers => ⟨fun t ht => ?_, ?_⟩⟩
  · rw [run, runFrom_eq_rounds, Option.bind_eq_some_iff] at hr
    obtain ⟨t, last, ended⟩ := hr
    obtain ⟨past, split⟩ := getLast?_eq_some_iff.1 last
    obtain ⟨answer, ht, rfl⟩ := Option.map_eq_some_iff.1 ended
    exact ⟨rfl, past, t, split, rfl, ht⟩
  · obtain ⟨past, future, split⟩ := append_of_mem ht
    exact Round.machine_midway ((timerInterval_before split).trans timers)
  · intro past t between u future v split stored quiet
    have split' : rounds = (past ++ t :: between) ++ u :: future := by simpa using split
    obtain ⟨falls, stays⟩ := sound_of_stored timers split stored quiet
    refine ⟨fun room => ?_, fun one silent => ?_⟩
    · have on := buzzerOn_iff off split' room
      rw [falls] at on
      rw [show past ++ t :: (between ++ [u]) = past ++ t :: between ++ [u] by simp, on]
      omega
    · subst one
      have zero : u.midway.machine.timers.sound.toNat = 0 :=
        falls.trans (Nat.sub_eq_zero_of_le (Nat.le_add_left 1 between.length))
      have before : u.before.buzzer = false := stays le_rfl ((inTune_after off split).last.trans silent)
      rw [u.buzzerEntries_turn, if_pos ((Round.buzzer_after_of_silent before zero).trans before.symm)]

/-- A program that sets the sound timer to three and, when the buzzer has stopped, to one. -/
def chirp : List UInt8 :=
  [0x61, 0x03, 0xF1, 0x18, 0x62, 0x01, 0x70, 0x00, 0x70, 0x00, 0xF2, 0x18]

/-- Three keeps the buzzer on for two turns but not for a third one, and then one is not heard. -/
theorem buzzer_follows_timer_chirp :
    let m := (Machine.create { clockFrequency := some 0, timerFrequency := 0 } 0).after [.load chirp]
    let s := start m none 0
    let rounds := s.rounds id 7
    period m.config.timerFrequency = 0 ∧
      (∃ r, s.run id 7 = some r ∧ buzzerEntries r.notices = [true, false]) ∧
      (∀ j < 3, ∃ past t between u future, rounds = past ++ t :: (between ++ u :: future) ∧
        t.stored? = some 3 ∧ (∀ b ∈ between, b.stored? = none) ∧ u.before.isSpent = false ∧
        between.length = j ∧ (buzzerOn (logged (past ++ t :: (between ++ [u]))) = true ↔ j < 2)) ∧
      ∃ past t between u future, rounds = past ++ t :: (between ++ u :: future) ∧
        t.stored? = some 1 ∧ (∀ b ∈ between, b.stored? = none) ∧
        buzzerOn (logged (past ++ [t])) = false ∧ buzzerEntries u.turn.notices = [] := by
  intro m s rounds
  let round (i : ℕ) : Round := rounds.getD i ⟨s, 0⟩
  have timers : period m.config.timerFrequency = 0 := by decide +kernel
  obtain ⟨length, three, one, silent, ended, heard⟩ : rounds.length = 7 ∧
      (round 1).stored? = some 3 ∧ (round 5).stored? = some 1 ∧
      buzzerOn (logged (rounds.take 5 ++ [round 5])) = false ∧
      (s.run id 7).isSome = true ∧ buzzerEntries (logged rounds) = [true, false] := by decide +kernel
  have calm : ∀ j < 3, (∀ b ∈ (rounds.drop 2).take j, b.stored? = none) ∧
      (round (2 + j)).before.isSpent = false := by decide +kernel
  have found (n : ℕ) (h : n < rounds.length) : round n = rounds[n] := by simp [round, h]
  have cut (i j : ℕ) (inside : i + 1 + j < rounds.length) :
      rounds = rounds.take i ++ round i :: ((rounds.drop (i + 1)).take j ++
        round (i + 1 + j) :: rounds.drop (i + 1 + j + 1)) := by
    have later : rounds.drop (i + 1 + j) = (rounds.drop (i + 1)).drop j := by rw [drop_drop]
    rw [found i (by omega), found (i + 1 + j) inside, ← drop_eq_getElem_cons, later, take_append_drop,
      ← drop_eq_getElem_cons, take_append_drop]
  obtain ⟨ends, -, -, paced⟩ := buzzer_follows_timer m none 0 id 7
  obtain ⟨-, runsDown⟩ := paced timers
  obtain ⟨r, hr⟩ := Option.isSome_iff_exists.1 ended
  refine ⟨timers, ⟨r, hr, by rw [(ends r hr).1]; exact heard⟩, fun j few => ?_, ?_⟩
  · obtain ⟨quiet, room⟩ := calm j few
    have split := cut 1 j (by omega)
    have count : ((rounds.drop 2).take j).length = j := by
      rw [length_take, length_drop]
      omega
    have on := (runsDown _ _ _ _ _ 3 split three quiet).1 room
    rw [count] at on
    exact ⟨_, _, _, _, _, split, three, quiet, room, count, on.trans Nat.succ_lt_succ_iff⟩
  · have quiet : ∀ b ∈ (rounds.drop 6).take 0, b.stored? = none := by simp
    exact ⟨_, _, _, _, _, cut 5 0 (by omega), one, quiet, silent,
      (runsDown _ _ _ _ _ 1 (cut 5 0 (by omega)) one quiet).2 rfl silent⟩

end Session

end ChipEight
