import ChipEight.Proofs.Laps

/-!
# Steps and runs

A step is one cycle, and a run is up to `n` of them. The two treat a request to stop differently: a
step drops it, a run obeys it. Where there is none, a run is a row of steps, which ends with the first
step that fails, ends the program or leaves the machine waiting (`run_of_steps`, `run_of_ending`).

Whether there is a request or not, a run can be cut anywhere: `run_add` says that a run goes on where a
shorter one stopped, if that one went all the way.
-/

namespace ChipEight

/-- How a single cycle ends the run that it belongs to, if it ends it. -/
def Outcome.ending? (o : Outcome (Except Fault (Option Instruction))) : Option (Except Fault Stop) :=
  match o.answer with
  | .error fault => some (.error fault)
  | .ok none => some (.ok .halted)
  | .ok (some _) => if o.machine.waiting then some (.ok .waiting) else none

/-- The move is a cycle. -/
def Moment.isCycle (t : Moment) : Bool := t.move = .cycle

namespace Machine

/-- The history of `k` steps. -/
def steps (k : Nat) : List Event := List.replicate k .step

theorem steps_succ (k : Nat) : steps (k + 1) = .step :: steps k := rfl

/-- The machine after `k` steps, all that they noted, and an answer. -/
def stepped (m : Machine) (k : Nat) (answer : Except Fault Stop) : Outcome (Except Fault Stop) :=
  ⟨m.after (steps k), (m.replay (steps k)).records, answer⟩

/-- The cycles of `k` steps, each with the machine that it finds. -/
def cycles (m : Machine) (k : Nat) : List Moment := (m.moments (steps k)).filter Moment.isCycle

@[simp] theorem cycles_zero (m : Machine) : m.cycles 0 = [] := rfl

/-- The first of some steps, and then the others. -/
theorem stepped_succ (m : Machine) (k : Nat) (answer : Except Fault Stop) :
    m.stepped (k + 1) answer =
      { m.step.machine.stepped k answer with
        records := m.step.records ++ (m.step.machine.stepped k answer).records } := rfl

/-! ### The first step of a run -/

theorem interrupted_step {m : Machine} (running : m.interrupted = false) :
    m.step.machine.interrupted = false := by
  rw [step_of_running running, interrupted_cycle, running]

/-- The cycles of some steps are that of the first one, and those of the others. -/
theorem cycles_succ {m : Machine} (running : m.interrupted = false) (k : Nat) :
    m.cycles (k + 1) = ⟨m, .cycle⟩ :: m.step.machine.cycles k := by
  have first : m.moments (steps (k + 1)) =
      ⟨m, .drop⟩ :: ⟨m.resume, .cycle⟩ :: m.step.machine.moments (steps k) := by
    change _ :: _ :: m.resume.cycle.machine.path _ = _
    rw [← machine_step]
    rfl
  rw [cycles, first, resume_of_running running]
  rfl

/-- **A run is a step and, unless that ends it, a shorter run.** -/
theorem run_succ_eq_step {m : Machine} (running : m.interrupted = false) (n : Nat) :
    m.run (n + 1) =
      match m.step.ending? with
      | some ending => ⟨m.step.machine, m.step.records, ending⟩
      | none =>
        { m.step.machine.run n with
          records := m.step.records ++ (m.step.machine.run n).records } := by
  rw [run_succ, running, step_of_running running, Outcome.ending?]
  rcases m.cycle with ⟨after, records, fault | _ | i⟩
  · rfl
  · rfl
  · cases hw : after.waiting <;> simp [hw]

/-- The cycles of a run are that of its first step and, unless that ends it, those of a shorter run. -/
theorem moments_run_succ {m : Machine} (running : m.interrupted = false) (n : Nat) :
    m.moments [.run (n + 1)] =
      ⟨m, .cycle⟩ :: if m.step.ending? = none then m.step.machine.moments [.run n] else [] := by
  have alone (k : Nat) (l : Machine) : l.moments [.run k] = l.path (runMoves k l) := by
    simp [moments, moves, movesOf]
  rw [alone, alone, runMoves, running, step_of_running running, Outcome.ending?, if_neg (by decide),
    path, make]
  rcases m.cycle with ⟨after, records, fault | _ | i⟩
  · simp [path]
  · simp [path]
  · cases hw : after.waiting <;> simp [hw, path]

/-! ### All steps of a run -/

/-- Steps that do not end it make up a run that goes all the way. -/
theorem run_of_steps {m : Machine} (running : m.interrupted = false) {n : Nat}
    (going : ∀ i < n, (m.after (steps i)).step.ending? = none) :
    m.run n = m.stepped n (.ok .done) ∧ m.moments [.run n] = m.cycles n := by
  induction n generalizing m with
  | zero => exact ⟨rfl, rfl⟩
  | succ n ih =>
    have first : m.step.ending? = none := going 0 (Nat.succ_pos n)
    obtain ⟨same, cycles⟩ := ih (interrupted_step running) fun i hi => going (i + 1) (by omega)
    rw [run_succ_eq_step running, moments_run_succ running, cycles_succ running, stepped_succ, first,
      same, cycles]
    exact ⟨rfl, rfl⟩

/-- The first step that ends it is the last one of a run. -/
theorem run_of_ending {m : Machine} (running : m.interrupted = false) {n k : Nat} (short : k < n)
    {ending : Except Fault Stop} (going : ∀ i < k, (m.after (steps i)).step.ending? = none)
    (last : (m.after (steps k)).step.ending? = some ending) :
    m.run n = m.stepped (k + 1) ending ∧ m.moments [.run n] = m.cycles (k + 1) := by
  obtain ⟨n, rfl⟩ := Nat.exists_eq_succ_of_ne_zero (Nat.ne_zero_of_lt short)
  induction k generalizing m n with
  | zero =>
    have first : m.step.ending? = some ending := last
    rw [run_succ_eq_step running, moments_run_succ running, cycles_succ running, stepped_succ, first]
    simp [stepped, steps, replay]
  | succ k ih =>
    have first : m.step.ending? = none := going 0 (Nat.succ_pos k)
    obtain ⟨n, rfl⟩ := Nat.exists_eq_succ_of_ne_zero (show n ≠ 0 by omega)
    obtain ⟨same, cycles⟩ := ih (interrupted_step running) (fun i hi => going (i + 1) (by omega)) last
      n (by omega)
    rw [run_succ_eq_step running, moments_run_succ running, cycles_succ running, stepped_succ, first,
      same, cycles]
    exact ⟨rfl, rfl⟩

/-! ### Cutting a run -/

/-- **A longer run is a shorter one and, if that went all the way, the rest of it.** -/
theorem run_add (m : Machine) (a b : Nat) :
    m.run (a + b) =
      if (m.run a).answer = .ok .done then
        { (m.run a).machine.run b with
          records := (m.run a).records ++ ((m.run a).machine.run b).records }
      else m.run a := by
  induction a generalizing m with
  | zero => simp
  | succ a ih =>
    rw [Nat.succ_add, run_succ_eq_run_one, run_succ_eq_run_one a]
    split
    · next first =>
      rw [ih]
      split
      · simp
      · rfl
    · rfl

/-- **A run is steps one after the other, and it can be cut anywhere.** Take a machine that was not asked
to stop. Where none of its next `n` steps fails, ends the program or leaves it waiting, a run of `n` cycles
is these steps: the same cycles of the same machines, and the same notes in the same order. Where the step
with number `k` is the first to do so, a longer run is the steps up to that one, and it answers what that
one says: the fault, that the program has ended, or that it waits. And a run of `a + b` cycles is, whether
the machine was asked to stop or not, a run of `a` cycles, and then one of `b` cycles just if the first
went all the way. -/
theorem run_is_steps (m : Machine) :
    (m.interrupted = false → ∀ n,
      ((∀ i < n, (m.after (steps i)).step.ending? = none) →
        m.run n = m.stepped n (.ok .done) ∧ m.moments [.run n] = m.cycles n) ∧
      ∀ k < n, ∀ ending, (∀ i < k, (m.after (steps i)).step.ending? = none) →
        (m.after (steps k)).step.ending? = some ending →
          m.run n = m.stepped (k + 1) ending ∧ m.moments [.run n] = m.cycles (k + 1)) ∧
    ∀ a b, m.run (a + b) =
      if (m.run a).answer = .ok .done then
        { (m.run a).machine.run b with
          records := (m.run a).records ++ ((m.run a).machine.run b).records }
      else m.run a := by
  refine ⟨fun running n => ⟨fun going => run_of_steps running going, ?_⟩, m.run_add⟩
  intro k short ending going last
  exact run_of_ending running short going last

/-- A program that sets a register, and then waits for a key. -/
def shortWait : List UInt8 := [0x61, 0x05, 0xF2, 0x0A]

/-- A run of nine cycles of it is two steps, the second of which waits; one cycle of it goes all the way,
and the eight others wait at once. -/
theorem run_is_steps_shortWait :
    let m := (create {} 0).after [.load shortWait]
    m.interrupted = false ∧ (∀ i < 1, (m.after (steps i)).step.ending? = none) ∧
      (m.after (steps 1)).step.ending? = some (.ok .waiting) ∧ m.run 9 = m.stepped 2 (.ok .waiting) ∧
      m.moments [.run 9] = m.cycles 2 ∧ (m.cycles 2).length = 2 ∧
      m.run (1 + 8) =
        { (m.run 1).machine.run 8 with
          records := (m.run 1).records ++ ((m.run 1).machine.run 8).records } := by
  intro m
  have running : m.interrupted = false := rfl
  have going : ∀ i < 1, (m.after (steps i)).step.ending? = none := by decide +kernel
  have last : (m.after (steps 1)).step.ending? = some (.ok .waiting) := by decide +kernel
  have whole : (m.run 1).answer = .ok .done := by decide +kernel
  obtain ⟨batches, cut⟩ := run_is_steps m
  obtain ⟨same, cycles⟩ := (batches running 9).2 1 (by decide) _ going last
  exact ⟨running, going, last, same, cycles, by decide +kernel, (cut 1 8).trans (if_pos whole)⟩

end Machine

end ChipEight
