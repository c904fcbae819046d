import ChipEight.Proofs.Untimed
import Mathlib.Data.List.Basic

/-!
# Laps

A lap is a tick of the timers and a run of a single cycle, and a row of laps goes on until one of them
does not go all the way (`laps`). It is what is left of a session whose clocks have no period.

A row of laps and a single long run differ in the ticks only. As long as no instruction reads the
delay timer they stop for the same reason, in machines that differ in nothing but the timers
(`laps_untimed`).
-/

namespace ChipEight

namespace Machine

/-- Up to `n` laps. A lap is a tick of the timers and a run of a single cycle, and the first one that
does not go all the way is the last one. The answer is how many of them went all the way, and how the
last run ended. -/
def laps : Nat → Machine → Outcome (Nat × Except Fault Stop)
  | 0, m => ⟨m, [], 0, .ok .done⟩
  | n + 1, m =>
    let lap := m.tick.run 1
    if lap.answer = .ok .done then
      let rest := laps n lap.machine
      ⟨rest.machine, lap.records ++ rest.records, rest.answer.1 + 1, rest.answer.2⟩
    else ⟨lap.machine, lap.records, 0, lap.answer⟩

/-- The events that up to `n` laps consist of. -/
def lapEvents : Nat → Machine → List Event
  | 0, _ => []
  | n + 1, m =>
    let lap := m.tick.run 1
    .tick :: .run 1 :: if lap.answer = .ok .done then lapEvents n lap.machine else []

/-- The events of the laps do what the laps do. -/
theorem replay_lapEvents (n : Nat) (m : Machine) :
    (m.replay (lapEvents n m)).machine = (laps n m).machine ∧
      (m.replay (lapEvents n m)).records = (laps n m).records := by
  induction n generalizing m with
  | zero => exact ⟨rfl, rfl⟩
  | succ n ih =>
    obtain ⟨sameMachine, sameRecords⟩ := ih (m.tick.run 1).machine
    simp only [lapEvents, laps, replay, apply, Outcome.map, List.nil_append]
    split
    · exact ⟨sameMachine, congrArg _ sameRecords⟩
    · exact ⟨rfl, List.append_nil _⟩

/-- All laps went all the way just if there are as many as were asked for, and there are no more. -/
theorem count_laps (n : Nat) (m : Machine) :
    (laps n m).answer.1 ≤ n ∧ ((laps n m).answer.2 = .ok .done ↔ (laps n m).answer.1 = n) := by
  induction n generalizing m with
  | zero => simp [laps]
  | succ n ih =>
    obtain ⟨few, all⟩ := ih (m.tick.run 1).machine
    simp only [laps]
    split
    · exact ⟨Nat.succ_le_succ few, all.trans Nat.succ_inj.symm⟩
    · next short => simp [short]

/-! ### Runs in single cycles -/

/-- A run of one cycle. -/
theorem run_one (m : Machine) :
    m.run 1 =
      if m.interrupted then ⟨m.resume, [], .ok .interrupted⟩
      else
        match m.cycle with
        | ⟨after, records, .error fault⟩ => ⟨after, records, .error fault⟩
        | ⟨after, records, .ok none⟩ => ⟨after, records, .ok .halted⟩
        | ⟨after, records, .ok (some _)⟩ =>
          ⟨after, records, .ok (if after.waiting then .waiting else .done)⟩ := by
  rw [run_succ]
  cases m.interrupted with
  | true => rfl
  | false =>
    rcases m.cycle with ⟨after, records, _ | _ | _⟩
    · rfl
    · rfl
    · cases hw : after.waiting <;> simp [hw]

/-- A run is a run of one cycle and, if that went all the way, a shorter run. -/
theorem run_succ_eq_run_one (n : Nat) (m : Machine) :
    m.run (n + 1) =
      if (m.run 1).answer = .ok .done then
        { (m.run 1).machine.run n with
          records := (m.run 1).records ++ ((m.run 1).machine.run n).records }
      else m.run 1 := by
  rw [run_succ, run_one]
  cases m.interrupted with
  | true => simp
  | false =>
    rcases m.cycle with ⟨after, records, _ | _ | _⟩
    · simp
    · simp
    · cases hw : after.waiting <;> simp [hw]

/-- The moves of a run are those of its first cycle, and then those of a shorter run. -/
theorem runMoves_succ (n : Nat) (m : Machine) :
    runMoves (n + 1) m =
      runMoves 1 m ++ if (m.run 1).answer = .ok .done then runMoves n (m.run 1).machine else [] := by
  rw [runMoves, runMoves, run_one]
  cases m.interrupted with
  | true => simp
  | false =>
    rcases m.cycle with ⟨after, records, _ | _ | _⟩
    · simp
    · simp
    · cases hw : after.waiting <;> simp [hw, runMoves]

/-! ### Laps and a long run -/

/-- An instruction that reads the delay timer is executed by the first cycle of a run. -/
theorem next?_ne_readDelay {m : Machine} (running : m.interrupted = false)
    (unread : ∀ s ∈ m.path (runMoves 1 m), s.readsDelay = false) (x : Register) :
    m.next? ≠ some (.readDelay x) := by
  intro hop
  have first : (⟨m, .cycle⟩ : Moment) ∈ m.path (runMoves 1 m) := by simp [runMoves, running, path]
  have executed := m.cycle_of_execute_ok hop rfl
  simpa [Moment.readsDelay, Moment.executed?, executed] using unread _ first

/-- A run of one cycle does not look at the timers, unless the cycle comes to `Fx07`. -/
theorem run_one_withTimers {m : Machine}
    (unread : m.interrupted = false → ∀ x, m.next? ≠ some (.readDelay x)) (t : Timers) :
    ∃ u, (m.withTimers t).run 1 = { m.run 1 with machine := (m.run 1).machine.withTimers u } := by
  have asked : (m.withTimers t).interrupted = m.interrupted := rfl
  rw [run_one, run_one, asked]
  cases hi : m.interrupted with
  | true => exact ⟨t, rfl⟩
  | false =>
    obtain ⟨u, hu⟩ := cycle_withTimers (unread hi) t
    refine ⟨u, ?_⟩
    rw [hu]
    rcases m.cycle with ⟨after, records, _ | _ | _⟩ <;> rfl

/-- The moments of the laps are those of the first lap, and then those of fewer laps. -/
theorem moments_lapEvents_succ (n : Nat) (m : Machine) :
    m.moments (lapEvents (n + 1) m) =
      ⟨m, .tick⟩ ::
        (m.tick.path (runMoves 1 m.tick) ++
          if (m.tick.run 1).answer = .ok .done then
            (m.tick.run 1).machine.moments (lapEvents n (m.tick.run 1).machine)
          else []) := by
  have cut (events : List Event) :
      m.moments (.tick :: .run 1 :: events) =
        ⟨m, .tick⟩ ::
          (m.tick.path (runMoves 1 m.tick) ++ (m.tick.run 1).machine.moments events) := by
    change _ :: m.tick.path (runMoves 1 m.tick ++ _) = _
    rw [path_append, perform_runMoves]
    rfl
  simp only [lapEvents, cut]
  split
  · rfl
  · rfl

/-- The moments of a run are those of its first cycle, and then those of a shorter run. -/
theorem path_runMoves_succ (n : Nat) (m : Machine) :
    m.path (runMoves (n + 1) m) =
      m.path (runMoves 1 m) ++
        if (m.run 1).answer = .ok .done then
          (m.run 1).machine.path (runMoves n (m.run 1).machine)
        else [] := by
  rw [runMoves_succ, path_append, perform_runMoves]
  split
  · rfl
  · rfl

/-- **Laps and a long run do the same**, in machines that differ in the timers, if one of the two reads
no delay timer: they note the same, end the same way, and leave machines that differ in the timers. -/
theorem laps_untimed (n : Nat) (m : Machine) (t : Timers)
    (unread : (∀ s ∈ (m.withTimers t).moments (lapEvents n (m.withTimers t)), s.readsDelay = false) ∨
      ∀ s ∈ m.path (runMoves n m), s.readsDelay = false) :
    (laps n (m.withTimers t)).answer.2 = (m.run n).answer ∧
      (laps n (m.withTimers t)).records = (m.run n).records ∧
      ∃ u, (laps n (m.withTimers t)).machine = (m.run n).machine.withTimers u := by
  -- the timers of the two drift apart from lap to lap, so the induction is about any timers
  induction n generalizing m t with
  | zero => exact ⟨rfl, rfl, t, rfl⟩
  | succ n ih =>
    rw [moments_lapEvents_succ, path_runMoves_succ n m, List.forall_mem_cons, List.forall_mem_append,
      List.forall_mem_append] at unread
    obtain ⟨u, hu⟩ : ∃ u, (m.withTimers t).tick.run 1 =
        { m.run 1 with machine := (m.run 1).machine.withTimers u } := by
      refine run_one_withTimers (m := m) (fun running => ?_) t.tick
      rcases unread with ⟨-, first, -⟩ | ⟨first, -⟩
      · exact next?_ne_readDelay (m := m.withTimers t.tick) running first
      · exact next?_ne_readDelay running first
    simp only [hu] at unread
    rw [run_succ_eq_run_one]
    simp only [laps, hu]
    split
    · next done =>
      simp only [if_pos done] at unread
      obtain ⟨sameAnswer, sameRecords, sameMachine⟩ :=
        ih (m.run 1).machine u (unread.imp (·.2.2) (·.2))
      exact ⟨sameAnswer, congrArg _ sameRecords, sameMachine⟩
    · exact ⟨rfl, rfl, u, rfl⟩

end Machine

end ChipEight
