import ChipEight.Proofs.Faults
import ChipEight.Proofs.KeyWait

/-!
# Dead ends

A program that has ended stays at its end, and an instruction that fails fails again. Neither the end of a
program nor a fault depends on anything that comes from outside, and neither changes what it depends on
(`cycle_of_frozen`), so that nothing but a load leads out of a dead end (`Stays.path`). What a machine
answers there is always the same, but for a request to stop, which a run obeys first.
-/

namespace ChipEight.Machine

/-- The machine is at a dead end: a step says that the program has ended, or it fails. The verdict is what
a run says then. -/
def DeadEnd (m : Machine) : Except Fault Stop → Prop
  | .ok .halted => m.step.answer = .ok none
  | .error fault => m.step.answer = .error fault
  | .ok _ => False

instance (m : Machine) : (verdict : Except Fault Stop) → Decidable (m.DeadEnd verdict)
  | .ok .halted => inferInstanceAs (Decidable (m.step.answer = .ok none))
  | .error fault => inferInstanceAs (Decidable (m.step.answer = .error fault))
  | .ok .done | .ok .interrupted | .ok .waiting => inferInstanceAs (Decidable False)

/-! ### The end of a program, and faults -/

/-- A cycle comes to the end of the program just if the next word is zero. -/
theorem answer_cycle_eq_none_iff {m : Machine} : m.cycle.answer = .ok none ↔ m.memory.fetch m.pc = 0 := by
  rw [← Op.decode_eq_none_iff]
  change _ ↔ m.next? = none
  rcases m.cycle_cases with ⟨ended, hc⟩ | ⟨op, n, records, hop, -, hc⟩ | ⟨op, fault, hop, -, hc⟩
  · simp [hc, ended]
  · simp [hc, hop]
  · simp [hc, hop]

/-- **At a dead end, every machine that is the same to the program has a cycle that changes nothing**, and
it gives the same answer. -/
theorem cycle_of_frozen {m n : Machine} (frozen : m.Frozen n)
    (idle : ∀ i, m.step.answer ≠ .ok (some i)) : n.cycle = ⟨n, [], m.step.answer⟩ := by
  rw [answer_step] at idle ⊢
  have fetched : n.next? = m.resume.next? := frozen.next?
  rcases m.resume.cycle_cases with ⟨ended, hc⟩ | ⟨op, k, records, -, -, hc⟩ | ⟨op, fault, hop, he, hc⟩
  · rw [cycle_of_next?_none (fetched.trans ended), hc]
  · exact absurd (congrArg Outcome.answer hc) (idle _)
  · rw [hc]
    refine cycle_of_execute_error (fetched.trans hop) ?_
    rw [answer_execute_eq_error_iff] at he ⊢
    change (_ ∧ n.stack = [] ∧ _) ∨ _ ∧ _ ≤ n.stack.length ∧ _
    rw [frozen.stack, frozen.pc]
    exact he

/-! ### Nothing leads out -/

/-- The program of a machine is where it was, and it waits if it waited. -/
def Stays (m n : Machine) : Prop := m.Frozen n ∧ n.waiting = m.waiting

/-- Whatever happens at a dead end, but for a load, leaves the program where it is. -/
theorem Stays.make {m n : Machine} (idle : ∀ i, m.step.answer ≠ .ok (some i)) (h : m.Stays n)
    {move : Move} (quiet : move.reloads = false) : m.Stays (n.make move) := by
  obtain ⟨frozen, waiting⟩ := h
  cases move with
  | load program =>
    rw [make_load quiet]
    exact ⟨frozen, waiting⟩
  | cycle =>
    rw [Machine.make, cycle_of_frozen frozen idle]
    exact ⟨frozen, waiting⟩
  | _ => exact ⟨frozen.trans ⟨rfl, rfl, rfl, rfl, rfl, rfl, rfl⟩, waiting⟩

/-- So do any moves without a load. -/
theorem Stays.path {m n : Machine} (idle : ∀ i, m.step.answer ≠ .ok (some i)) (h : m.Stays n)
    {moves : List Move} (quiet : ∀ t ∈ n.path moves, t.move.reloads = false) :
    (∀ t ∈ n.path moves, m.Stays t.after) ∧ m.Stays (n.perform moves) := by
  induction moves generalizing n with
  | nil => exact ⟨fun _ ht => absurd ht List.not_mem_nil, h⟩
  | cons move rest ih =>
    simp only [Machine.path, List.mem_cons, forall_eq_or_imp] at quiet ⊢
    have first : m.Stays (n.make move) := h.make idle quiet.1
    obtain ⟨later, last⟩ := ih first quiet.2
    exact ⟨⟨first, later⟩, last⟩

/-! ### What is answered -/

/-- A step brings back no instruction at a dead end. -/
theorem DeadEnd.idle {m : Machine} {verdict : Except Fault Stop} (dead : m.DeadEnd verdict)
    (i : Instruction) : m.step.answer ≠ .ok (some i) := by
  intro executed
  match verdict, dead with
  | .ok .halted, ended =>
    rw [DeadEnd, executed] at ended
    cases ended
  | .error fault, failing =>
    rw [DeadEnd, executed] at failing
    cases failing

/-- **What is answered at a dead end**, wherever the program stays. -/
theorem DeadEnd.answers {m n : Machine} {verdict : Except Fault Stop} (dead : m.DeadEnd verdict)
    (h : m.Frozen n) :
    n.step.answer = m.step.answer ∧
      ∀ k, n.run (k + 1) =
        if n.interrupted then ⟨n.resume, [], .ok .interrupted⟩ else ⟨n, [], verdict⟩ := by
  have resumed : m.Frozen n.resume := h.trans ⟨rfl, rfl, rfl, rfl, rfl, rfl, rfl⟩
  refine ⟨by rw [answer_step n, cycle_of_frozen resumed dead.idle], fun k => ?_⟩
  rw [run_succ, cycle_of_frozen h dead.idle]
  match verdict, dead with
  | .ok .halted, ended =>
    rw [DeadEnd] at ended
    rw [ended]
  | .error fault, failing =>
    rw [DeadEnd] at failing
    rw [failing]

/-- A machine that starts anew is at a dead end just if the first word of the program is zero or that of a
return. -/
theorem deadEnd_restart_iff (m : Machine) (program : List UInt8) :
    let fresh := m.restart program
    (fresh.DeadEnd (.ok .halted) ↔ (fresh.memory.fetch 0x200).toNat = 0x0000) ∧
      ∀ fault, fresh.DeadEnd (.error fault) ↔
        (fresh.memory.fetch 0x200).toNat = 0x00EE ∧ fault = .stackUnderflow 0x200 := by
  intro fresh
  have single : fresh.step.answer = fresh.cycle.answer := congrArg Outcome.answer (step_of_running rfl)
  constructor
  · change fresh.step.answer = _ ↔ _
    rw [single, answer_cycle_eq_none_iff]
    exact UInt16.toNat_inj.symm
  · intro fault
    change fresh.step.answer = _ ↔ _
    rw [single, answer_cycle_eq_error_iff (Nat.zero_le _)]
    -- no call is open in a machine that starts anew, so that none can be one too many
    cases fault with
    | stackUnderflow a =>
      change (fresh.memory.fetch 0x200).toNat = 0x00EE ∧ 0 = 0 ∧ a = 0x200 ↔ _
      simp
    | stackOverflow a =>
      change _ ∧ 0 = 16 ∧ _ ↔ _
      simp

/-- **Nothing but a load leads out of a dead end.** Take a machine whose program has ended, or whose next
instruction fails. Through every history in which no program is loaded its program stays where it is: the
program counter, the registers, the index, the stack, memory, the display, the random words and the wait
for a key are at all times what they were. A step gives the same answer as before, and a run of at least
one cycle changes nothing and notes nothing: it obeys a request to stop, or it says that the program has
ended or what failed. When a program is loaded at last, the machine is at a dead end again just if the
first word of this program is `0000`, its end, or `00EE`, a return from no call. -/
theorem dead_end_lasts (m : Machine) (verdict : Except Fault Stop) (dead : m.DeadEnd verdict)
    (history : List Event) (quiet : ∀ t ∈ m.moments history, t.move.reloads = false) :
    let n := m.after history
    (∀ t ∈ m.moments history, m.Frozen t.after ∧ t.after.waiting = m.waiting) ∧
      m.Frozen n ∧ n.waiting = m.waiting ∧ n.DeadEnd verdict ∧ n.step.answer = m.step.answer ∧
      (∀ k, n.run (k + 1) =
        if n.interrupted then ⟨{ n with interrupted := false }, [], .ok .interrupted⟩
        else ⟨n, [], verdict⟩) ∧
      ∀ program, program.length ≤ 3584 →
        let fresh := (n.load program).machine
        (fresh.DeadEnd (.ok .halted) ↔ (fresh.memory.fetch 0x200).toNat = 0x0000) ∧
          ∀ fault, fresh.DeadEnd (.error fault) ↔
            (fresh.memory.fetch 0x200).toNat = 0x00EE ∧ fault = .stackUnderflow 0x200 := by
  intro n
  obtain ⟨always, last⟩ := Stays.path dead.idle ⟨Frozen.refl m, rfl⟩ quiet
  rw [perform_moves] at last
  obtain ⟨frozen, waiting⟩ := last
  obtain ⟨same, runs⟩ := dead.answers frozen
  refine ⟨always, frozen, waiting, ?_, same, runs, fun program fits => ?_⟩
  · match verdict, dead with
    | .ok .halted, ended => exact same.trans ended
    | .error fault, failing => exact same.trans failing
  · intro fresh
    have restarted : fresh = n.restart program := congrArg Outcome.machine (n.load_of_fits fits)
    rw [restarted]
    exact n.deadEnd_restart_iff program

/-- With sixteen calls open the next one fails, whatever comes from outside, and after a load it is a
return that fails. -/
theorem dead_end_lasts_endlessCalls :
    let m := (create {} 0).after [.load endlessCalls, .run 16, .key 2 true]
    let history : List Event :=
      [.tick, .interrupt, .run 5, .key 2 false, .step, .load (List.replicate 3585 0), .run 3, .clearKeys,
        .interrupt]
    let n := m.after history
    m.DeadEnd (.error (.stackOverflow 0x200)) ∧ (∀ t ∈ m.moments history, t.move.reloads = false) ∧
      m.Frozen n ∧ n.step.answer = .error (.stackOverflow 0x200) ∧
      (∀ k, n.run (k + 1) = ⟨{ n with interrupted := false }, [], .ok .interrupted⟩) ∧
      (n.load [0x00, 0xEE]).machine.DeadEnd (.error (.stackUnderflow 0x200)) ∧
      ¬ (n.load [0x22, 0x00]).machine.DeadEnd (.ok .halted) := by
  intro m history n
  have dead : m.DeadEnd (.error (.stackOverflow 0x200)) := by decide +kernel
  have quiet : ∀ t ∈ m.moments history, t.move.reloads = false := by decide +kernel
  obtain ⟨-, frozen, -, still, -, runs, loads⟩ := dead_end_lasts m _ dead history quiet
  refine ⟨dead, quiet, frozen, still, fun k => (runs k).trans (if_pos rfl), ?_, fun ended => ?_⟩
  · exact ((loads [0x00, 0xEE] (by decide)).2 _).2 ⟨by decide +kernel, rfl⟩
  · exact absurd ((loads [0x22, 0x00] (by decide)).1.1 ended) (by decide +kernel)

end ChipEight.Machine
