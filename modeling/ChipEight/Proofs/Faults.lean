import ChipEight.Proofs.Bounds
import Mathlib.Data.List.Basic

/-!
# When an operation fails

Only the stack makes a machine fail, and `Due` says when: at a return with no call open, and at a
call with sixteen of them open. In a machine that can be reached a step fails just then, and it
names the instruction that failed (`answer_cycle_eq_error_iff`).

A failure leaves no trace. The instruction that failed changed nothing, and the program counter is put
back to it, so that the machine afterwards is the machine before (`cycle_of_error`); and a run that fails
is a shorter run that went all the way, with nothing after it (`run_of_error`). A program that does not
fit into memory changes nothing at all. `fails_only_when_due` puts these together.
-/

namespace ChipEight.Machine

/-- A fault is due: the instruction that the machine has before it is a return, and no call is open,
or it is a call, and sixteen are open. The fault names the address of the instruction. -/
def Due (m : Machine) : Fault → Prop
  | .stackUnderflow a =>
    (m.memory.fetch m.pc).toNat = 0x00EE ∧ m.stack.length = 0 ∧ a = m.pc
  | .stackOverflow a =>
    (m.memory.fetch m.pc).toNat / 0x1000 = 2 ∧ m.stack.length = 16 ∧ a = m.pc

instance (m : Machine) (fault : Fault) : Decidable (m.Due fault) := by
  cases fault <;> exact inferInstanceAs (Decidable (_ ∧ _ ∧ _))

/-! ### The instructions that can fail -/

/-- The word of a return. -/
theorem next?_eq_ret_iff {m : Machine} :
    m.next? = some .ret ↔ (m.memory.fetch m.pc).toNat = 0x00EE := by
  rw [next?, Op.decode_eq_some_iff_pattern (show Op.Listed .ret from trivial)]
  exact eq_comm

/-- The words of calls. -/
theorem next?_eq_call_iff {m : Machine} :
    (∃ target, m.next? = some (.call target)) ↔ (m.memory.fetch m.pc).toNat / 0x1000 = 2 := by
  constructor
  · rintro ⟨target, h⟩
    rcases (Op.decode_eq_some_iff.1 h).2 with ⟨fits, hp⟩ | ⟨unlisted, -⟩
    · exact (Op.fields_of_address (c := 2) hp.symm fits).1
    · cases unlisted
  · intro h
    let target := (m.memory.fetch m.pc).toNat - 0x2000
    have fits : (Op.call target).Listed := by
      change (m.memory.fetch m.pc).toNat - 0x2000 < 0x1000
      omega
    refine ⟨target, (Op.decode_eq_some_iff_pattern fits).2 ?_⟩
    change 0x2000 + ((m.memory.fetch m.pc).toNat - 0x2000) = _
    omega

/-! ### Cycles that fail -/

/-- **A cycle fails when a fault is due, and with this fault.** -/
theorem answer_cycle_eq_error_iff {m : Machine} (depth : m.stack.length ≤ stackLimit) (fault : Fault) :
    m.cycle.answer = .error fault ↔ m.Due fault := by
  have failing : m.cycle.answer = .error fault ↔
      ∃ op, m.next? = some op ∧
        ((m.goto (Address.next m.pc)).execute m.pc op).answer = .error fault := by
    rcases m.cycle_cases with ⟨ended, hc⟩ | ⟨op, n, records, hop, he, hc⟩ | ⟨op, fault', hop, he, hc⟩
    · simp [hc, ended]
    · simp [hc, hop, he]
    · simp [hc, hop, he]
  rw [failing]
  simp only [answer_execute_eq_error_iff]
  change (∃ op, _ ∧ (_ ∧ m.stack = [] ∧ _ ∨ _ ∧ stackLimit ≤ m.stack.length ∧ _)) ↔ _
  constructor
  · rintro ⟨op, hop, ⟨rfl, empty, rfl⟩ | ⟨⟨target, rfl⟩, full, rfl⟩⟩
    · exact ⟨next?_eq_ret_iff.1 hop, List.length_eq_zero_iff.2 empty, rfl⟩
    · exact ⟨next?_eq_call_iff.1 ⟨target, hop⟩, Nat.le_antisymm depth full, rfl⟩
  · intro due
    cases fault with
    | stackUnderflow a =>
      obtain ⟨word, empty, rfl⟩ := due
      exact ⟨.ret, next?_eq_ret_iff.2 word, Or.inl ⟨rfl, List.length_eq_zero_iff.1 empty, rfl⟩⟩
    | stackOverflow a =>
      obtain ⟨word, full, rfl⟩ := due
      obtain ⟨target, hop⟩ := next?_eq_call_iff.2 word
      exact ⟨.call target, hop, Or.inr ⟨⟨target, rfl⟩, Nat.le_of_eq full.symm, rfl⟩⟩

/-- A cycle that fails changes nothing and notes nothing. -/
theorem cycle_of_error {m : Machine} {fault : Fault} (h : m.cycle.answer = .error fault) :
    m.cycle = ⟨m, [], .error fault⟩ := by
  rcases m.cycle_cases with ⟨-, hc⟩ | ⟨op, n, records, -, -, hc⟩ | ⟨op, fault', -, -, hc⟩
  · rw [hc] at h
    cases h
  · rw [hc] at h
    cases h
  · rw [hc] at h ⊢
    cases h
    rfl

/-- **A run that fails is a shorter run that goes all the way**, to a machine whose next cycle fails. -/
theorem run_of_error {m : Machine} {n : Nat} {fault : Fault} (h : (m.run n).answer = .error fault) :
    ∃ k < n, m.run k = ⟨(m.run n).machine, (m.run n).records, .ok .done⟩ ∧
      (m.run n).machine.cycle.answer = .error fault := by
  induction n generalizing m with
  | zero => cases h
  | succ n ih =>
    cases hi : m.interrupted with
    | true => simp [run_succ, hi] at h
    | false =>
      rcases hc : m.cycle with ⟨after, records, fault' | _ | i⟩
      · -- the first cycle fails, and the shorter run is the empty one
        have first := cycle_of_error (m := m) (by rw [hc])
        rw [hc] at first
        cases first
        have run : m.run (n + 1) = ⟨m, [], .error fault'⟩ := by simp [run_succ, hi, hc]
        rw [run] at h ⊢
        cases h
        exact ⟨0, Nat.succ_pos n, rfl, by rw [hc]⟩
      · simp [run_succ, hi, hc] at h
      · cases hw : after.waiting with
        | true => simp [run_succ, hi, hc, hw] at h
        | false =>
          have split (k : Nat) :
              m.run (k + 1) = { after.run k with records := records ++ (after.run k).records } := by
            simp [run_succ, hi, hc, hw]
          rw [split] at h ⊢
          obtain ⟨k, hk, shorter, failing⟩ := ih h
          exact ⟨k + 1, Nat.succ_lt_succ hk, by rw [split, shorter], failing⟩

/-! ### All that can fail -/

/-- **An operation fails only when it is due, and leaves no trace.** Take a machine that can be
reached. A step fails just with the fault that is due, and then only a request to stop is dropped. A
run that fails does what some shorter run does that goes all the way, and no more: it ends with the
same machine and the same notes, and the fault is due there. A program is refused just if it is
longer than 3584 bytes, and then nothing changes. -/
theorem fails_only_when_due (m : Machine) (reachable : m.Reachable) :
    (∀ fault, m.step.answer = .error fault ↔ m.Due fault) ∧
      (∀ fault, m.step.answer = .error fault → m.step.machine = { m with interrupted := false }) ∧
      (∀ n fault, (m.run n).answer = .error fault →
        ∃ k < n, (m.run k).answer = .ok .done ∧ (m.run k).machine = (m.run n).machine ∧
          (m.run k).records = (m.run n).records ∧ (m.run n).machine.Due fault) ∧
      ∀ program, ((∃ e, (m.load program).answer = .error e) ↔ 3584 < program.length) ∧
        ∀ e, (m.load program).answer = .error e →
          m.load program = ⟨m, [], .error ⟨program.length⟩⟩ := by
  refine ⟨fun fault => ?_, fun fault h => ?_, fun n fault h => ?_, fun program => ?_⟩
  · rw [answer_step, answer_cycle_eq_error_iff (m := m.resume) reachable.depth_le]
    cases fault <;> exact Iff.rfl
  · rw [answer_step] at h
    rw [machine_step, cycle_of_error h]
    rfl
  · obtain ⟨k, hk, shorter, failing⟩ := run_of_error h
    refine ⟨k, hk, by rw [shorter], by rw [shorter], by rw [shorter], ?_⟩
    have there : (m.run n).machine.Reachable := reachable.apply (.run n)
    exact (answer_cycle_eq_error_iff there.depth_le fault).1 failing
  · change (_ ↔ programLimit < _) ∧ _
    by_cases big : programLimit < program.length
    · simp [load, big]
    · simp [load, big]

/-- A routine that calls itself without end. -/
def endlessCalls : List UInt8 := [0x22, 0x00]

/-- With sixteen calls open a step fails, and a request to stop is all that it drops. With fifteen
open, a run of five cycles fails in the second one. -/
theorem fails_only_when_due_endlessCalls :
    let m := (create {} 0).after [.load endlessCalls, .run 16, .interrupt]
    let n := (create {} 0).after [.load endlessCalls, .run 15]
    m.interrupted = true ∧ m.step.answer = .error (.stackOverflow 0x200) ∧
      m.step.machine = { m with interrupted := false } ∧
      (n.run 5).answer = .error (.stackOverflow 0x200) ∧
      (∃ k < 5, (n.run k).answer = .ok .done ∧ (n.run k).machine = (n.run 5).machine) ∧
      (m.load (List.replicate 3585 0)).machine = m := by
  intro m n
  obtain ⟨exact_m, trace_m, -, load_m⟩ := fails_only_when_due m ⟨{}, 0, _, rfl⟩
  obtain ⟨-, -, runs_n, -⟩ := fails_only_when_due n ⟨{}, 0, _, rfl⟩
  have failed : m.step.answer = .error (.stackOverflow 0x200) := (exact_m _).2 (by decide +kernel)
  have failed_run : (n.run 5).answer = .error (.stackOverflow 0x200) := by decide +kernel
  obtain ⟨k, hk, shorter, same, -⟩ := runs_n 5 _ failed_run
  obtain ⟨refused, untouched⟩ := load_m (List.replicate 3585 0)
  obtain ⟨e, he⟩ := refused.2 (by rw [List.length_replicate]; decide)
  refine ⟨rfl, failed, trace_m _ failed, failed_run, ⟨k, hk, shorter, same⟩, ?_⟩
  rw [untouched e he]

end ChipEight.Machine
