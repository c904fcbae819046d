import ChipEight.Proofs.Moments
import Mathlib.Data.List.Induction

/-!
# Requests to stop

A request to stop is a single bit, which waits until somebody asks for it: a run with something to do, a
step, or whoever takes it back. A load that succeeds forgets it. `interrupted_apply` says what each event
does to the bit; so a request is pending just if it was made after the last event that settles such things
(`interrupted_after_iff`).

Nothing else depends on the bit. A request that is made where none is pending, and is taken at once, leaves
no trace (`apply_interrupt_of_takes`).
-/

namespace ChipEight

/-- No request to stop is pending after the event: a program is loaded that fits, a step is made, a run of
at least one cycle is made, or the request is taken back. -/
def Event.settles : Event → Bool
  | .load program => program.length ≤ programLimit
  | .step | .takeInterrupt => true
  | .run n => 0 < n
  | _ => false

/-- `Takes e reply`: if a request to stop is pending, then the event takes it and does nothing else, and
brings back this reply. -/
inductive Event.Takes : Event → Reply → Prop
  /-- A run finds the request before its first cycle. -/
  | run (n : Nat) : Takes (.run (n + 1)) (.ran (.ok .interrupted))
  /-- The request is taken back. -/
  | take : Takes .takeInterrupt (.interrupt true)

namespace Machine

/-! ### What becomes of a request -/

/-- A run finds a request before its first cycle, and no cycle makes one. -/
theorem interrupted_run (n : Nat) (m : Machine) :
    (m.run n).machine.interrupted = (m.interrupted && !decide (0 < n)) ∧
      ((m.run n).answer = .ok .interrupted ↔ m.interrupted = true ∧ 0 < n) := by
  induction n generalizing m with
  | zero => simp
  | succ n ih =>
    rw [run_succ]
    cases hi : m.interrupted with
    | true => simp [resume]
    | false =>
      have still : m.cycle.machine.interrupted = false := by rw [interrupted_cycle, hi]
      rcases hc : m.cycle with ⟨after, records, fault | _ | i⟩
      all_goals simp only [hc] at still
      · simpa using still
      · simpa using still
      · cases hw : after.waiting with
        | true => simpa [hw] using still
        | false => simpa [hw, still] using ih after

/-- **What an event does to the request**: it makes one, or settles it, or leaves it alone. -/
theorem interrupted_apply (m : Machine) (e : Event) :
    (m.apply e).machine.interrupted = true ↔
      e = .interrupt ∨ e.settles = false ∧ m.interrupted = true := by
  cases e with
  | load program =>
    by_cases fits : program.length ≤ programLimit
    · simp [apply, Outcome.map, m.load_of_fits fits, restart, Event.settles, fits]
    · simp [apply, Outcome.map, load, Nat.not_le.1 fits, Event.settles]
  | step =>
    have stepped : m.step.machine.interrupted = false := by
      rw [machine_step, interrupted_cycle]
      rfl
    simp [apply, Outcome.map, stepped, Event.settles]
  | run n => simp [apply, Outcome.map, (interrupted_run n m).1, Event.settles, and_comm]
  | interrupt => simp [apply, interrupt]
  | takeInterrupt => simp [apply, Outcome.map, takeInterrupt, resume, Event.settles]
  | _ => simp [apply, tick, setKey, clearKeys, Event.settles]

/-- **A request is pending** just if it was made since the last event that settles it. -/
theorem interrupted_after_iff {m : Machine} (running : m.interrupted = false) (past : List Event) :
    (m.after past).interrupted = true ↔
      Since (fun e => e = Event.interrupt) (fun e => e.settles = false) past := by
  induction past using List.reverseRecOn with
  | nil => simp [running, not_since_nil]
  | append_singleton past e ih =>
    rw [after_append, after_cons, after_nil, interrupted_apply, since_concat, ih]

/-! ### A request that is taken at once -/

/-- **A request that is taken leaves no trace.** -/
theorem apply_interrupt_of_takes {e : Event} {reply : Reply} (takes : e.Takes reply) {m : Machine}
    (running : m.interrupted = false) : m.interrupt.apply e = ⟨m, [], reply⟩ := by
  have same : m.interrupt.resume = m := resume_of_running running
  cases takes with
  | run n =>
    have asked : m.interrupt.interrupted = true := rfl
    simp [apply, Outcome.map, run_succ, asked, same]
  | take =>
    change (⟨m.interrupt.resume, [], .interrupt true⟩ : Outcome Reply) = _
    rw [same]

/-- A history goes on after such a request as it does without it. -/
theorem replay_interrupt_of_takes {e : Event} {reply : Reply} (takes : e.Takes reply) {m : Machine}
    (running : m.interrupted = false) (future : List Event) :
    m.replay (.interrupt :: e :: future) =
      { m.replay future with answer := .none :: reply :: (m.replay future).answer } := by
  have asked : m.apply .interrupt = ⟨m.interrupt, [], .none⟩ := rfl
  simp [replay, asked, apply_interrupt_of_takes takes running]

/-- **A request to stop is delivered once, and leaves no trace.** Take a machine with any history. A request
is pending just if it was made after the last of: switching on, loading a program that fits, a step, a run of
at least one cycle, taking the request back. If one is pending, a run of at least one cycle says so, notes
nothing and changes nothing but that; a run says so only then, and whoever takes the request back learns
whether there was one. A run of no cycles and a program that does not fit leave it pending. And where none
is pending, a request that is made and taken at once, by a run or by taking it back, makes no difference to
anything that follows. -/
theorem requests_delivered_once (config : Config) (chance : StreamKey) (past : List Event) :
    let start := create config chance
    let m := start.after past
    (m.interrupted = true ↔
      Since (fun e => e = Event.interrupt) (fun e => e.settles = false) past) ∧
      (m.interrupted = true →
        ∀ n, m.run (n + 1) = ⟨{ m with interrupted := false }, [], .ok .interrupted⟩) ∧
      (∀ n, (m.run n).answer = .ok .interrupted ↔ m.interrupted = true ∧ 0 < n) ∧
      m.takeInterrupt = ⟨{ m with interrupted := false }, [], m.interrupted⟩ ∧
      m.run 0 = ⟨m, [], .ok .done⟩ ∧
      (∀ program, 3584 < program.length → (m.load program).machine = m) ∧
      (m.interrupted = false → ∀ e reply, Event.Takes e reply → ∀ future,
        start.replay (past ++ .interrupt :: e :: future) =
          { start.replay (past ++ future) with
            answer := (start.replay past).answer ++ .none :: reply :: (m.replay future).answer }) := by
  intro start m
  refine ⟨interrupted_after_iff rfl past, fun pending n => ?_, fun n => (interrupted_run n m).2, rfl,
    rfl, fun program big => ?_, fun running e reply takes future => ?_⟩
  · rw [run_succ, if_pos pending]
    rfl
  · rw [load, if_pos (show programLimit < program.length from big)]
  · rw [replay_append, replay_append, replay_interrupt_of_takes takes running]

/-- In the middle of a wait that is over as soon as the program goes on, a request is made and a run of four
cycles takes it: the wait ends with the same key all the same. A second request outlasts a run of no cycles,
a program that does not fit and a tick, and the next run obeys it. -/
theorem requests_delivered_once_midWait :
    let start := create {} 0
    let past : List Event := [.load [0xF3, 0x0A, 0x00, 0xEE], .run 4, .key 6 true]
    let m := start.after past
    let future : List Event :=
      [.step, .interrupt, .run 0, .load (List.replicate 3585 0), .tick]
    let n := start.after (past ++ future)
    m.waiting = true ∧ m.keypad.latched = some 6 ∧ m.interrupted = false ∧
      start.after (past ++ .interrupt :: .run 4 :: future) = n ∧
      (start.replay (past ++ .interrupt :: .run 4 :: future)).records =
        (start.replay (past ++ future)).records ∧
      start.after (past ++ .interrupt :: .takeInterrupt :: future) = n ∧
      n.registers.get 3 = 6 ∧ n.interrupted = true ∧
      n.run 9 = ⟨{ n with interrupted := false }, [], .ok .interrupted⟩ := by
  intro start past m future n
  have running : m.interrupted = false := by decide +kernel
  obtain ⟨-, -, -, -, -, -, traceless⟩ := requests_delivered_once {} 0 past
  obtain ⟨pending, obeyed, -⟩ := requests_delivered_once {} 0 (past ++ future)
  have by_run : start.replay (past ++ .interrupt :: .run 4 :: future) =
      { start.replay (past ++ future) with
        answer := (start.replay past).answer ++
          .none :: .ran (.ok .interrupted) :: (m.replay future).answer } :=
    traceless running _ _ (.run 3) future
  have by_taking : start.replay (past ++ .interrupt :: .takeInterrupt :: future) =
      { start.replay (past ++ future) with
        answer := (start.replay past).answer ++ .none :: .interrupt true :: (m.replay future).answer } :=
    traceless running _ _ .take future
  have made : n.interrupted = true :=
    pending.2 ⟨past ++ [.step], .interrupt, [.run 0, .load (List.replicate 3585 0), .tick], rfl, rfl,
      by decide +kernel⟩
  refine ⟨by decide +kernel, by decide +kernel, running, ?_, ?_, ?_, by decide +kernel, made,
    obeyed made 8⟩
  · simp only [n, after, by_run]
  · simp only [by_run]
  · simp only [n, after, by_taking]

end Machine

end ChipEight
