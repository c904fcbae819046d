import ChipEight.Machine.Cycle

/-!
# What an instruction leaves alone

An instruction touches a few parts of the machine (`Op.touches`) and leaves all others as they
are (`execute_frame`). Only a call on a full stack and a return on an empty one fail
(`answer_execute_eq_error_iff`), and they change nothing then (`execute_of_error`), so that a cycle that
goes back to the instruction is at the machine from which it started. `cycle_cases` lists the three ways
in which a cycle can go: the program has ended, an instruction was executed, or it failed.
-/

namespace ChipEight

/-- A part of a machine. -/
inductive Part
  | config | generator | memory | registers | index | pc | stack | timers | display | keypad
  | waiting | interrupted
  deriving DecidableEq, Repr

/-- The parts of the machine that an instruction may change. -/
def Op.touches : Op → Part → Bool
  | .system _, _ | .unknown _, _ => false
  | .clear, p => p = .display
  | .ret, p | .call _, p => p = .pc ∨ p = .stack
  | .jump _, p | .jumpOffset _, p => p = .pc
  | .skipEqByte _ _, p | .skipNeByte _ _, p | .skipEq _ _, p | .skipNe _ _, p => p = .pc
  | .skipHeld _, p | .skipFree _, p => p = .pc
  | .loadByte _ _, p | .addByte _ _, p | .arith _ _ _, p => p = .registers
  | .readDelay _, p | .restore _, p => p = .registers
  | .loadIndex _, p | .addIndex _, p | .glyph _, p => p = .index
  | .random _ _, p => p = .registers ∨ p = .generator
  | .draw _ _ _, p => p = .registers ∨ p = .display
  | .awaitKey _, p => p = .registers ∨ p = .pc ∨ p = .keypad ∨ p = .waiting
  | .setDelay _, p | .setSound _, p => p = .timers
  | .decimal _, p | .save _, p => p = .memory

theorem Key.toNat_toByte (k : Key) : k.toByte.toNat = k := by
  have : (k : Nat) < 16 := k.isLt
  rw [Key.toByte, UInt8.toNat_ofNat', Nat.mod_eq_of_lt (by omega)]

namespace Machine

/-- Two machines have a part in common. -/
def Same (m n : Machine) : Part → Prop
  | .config => n.config = m.config
  | .generator => n.generator = m.generator
  | .memory => n.memory = m.memory
  | .registers => n.registers = m.registers
  | .index => n.index = m.index
  | .pc => n.pc = m.pc
  | .stack => n.stack = m.stack
  | .timers => n.timers = m.timers
  | .display => n.display = m.display
  | .keypad => n.keypad = m.keypad
  | .waiting => n.waiting = m.waiting
  | .interrupted => n.interrupted = m.interrupted

/-! ### The parts of instructions as changes of fields -/

theorem skipIf_eq (m : Machine) (c : Bool) :
    m.skipIf c = { m with pc := if c then Address.next m.pc else m.pc } := by
  cases c <;> rfl

theorem compute_eq (m : Machine) (rule : Arith) (x y : Register) :
    m.compute rule x y =
      { m with
        registers :=
          let (result, flag) := rule.eval (m.registers.get x) (m.registers.get y)
          match flag with
          | none => m.registers.set x result
          | some f => (m.registers.set x result).set Registers.flag f } := by
  unfold compute
  cases rule <;> rfl

theorem awaitKey_eq (m : Machine) (a : Address) (x : Register) :
    m.awaitKey a x =
      match m.waiting, m.keypad.latched with
      | true, some k =>
        ⟨{ m with
            registers := m.registers.set x k.toByte
            keypad := m.keypad.forget
            waiting := false }, [.resumed k], .ok ()⟩
      | true, none => ⟨{ m with pc := a }, [], .ok ()⟩
      | false, _ =>
        ⟨{ m with pc := a, keypad := m.keypad.forget, waiting := true }, [.waiting a], .ok ()⟩ := by
  unfold awaitKey
  cases hw : m.waiting
  · rfl
  · cases m.keypad.latched
    · simp [goto, hw]
    · rfl

/-- A wait cannot fail. -/
theorem answer_awaitKey (m : Machine) (a : Address) (x : Register) : (m.awaitKey a x).answer = .ok () := by
  rw [awaitKey_eq]
  split <;> rfl

/-! ### The frame of an instruction -/

/-- **An instruction leaves alone every part that it does not touch.** -/
theorem execute_frame {m n : Machine} {a : Address} {op : Op} {records : List Record}
    (h : m.execute a op = ⟨n, records, .ok ()⟩) {p : Part} (hp : op.touches p = false) : m.Same n p := by
  cases op with
  | ret =>
    simp only [execute] at h
    split at h
    · cases h
    · cases h
      cases p <;> first | rfl | cases hp
  | call t =>
    simp only [execute] at h
    split at h
    · cases h
      cases p <;> first | rfl | cases hp
    · cases h
  | awaitKey x =>
    simp only [execute, awaitKey_eq] at h
    split at h <;> cases h <;> cases p <;> first | rfl | cases hp
  | _ =>
    simp only [execute, skipIf_eq, compute_eq] at h
    cases h
    cases p <;> first | rfl | cases hp

/-- Only the stack makes an instruction fail, and only a call or a return. -/
theorem answer_execute_eq_error_iff {m : Machine} {a : Address} {op : Op} {fault : Fault} :
    (m.execute a op).answer = .error fault ↔
      (op = .ret ∧ m.stack = [] ∧ fault = .stackUnderflow a) ∨
        ((∃ t, op = .call t) ∧ stackLimit ≤ m.stack.length ∧ fault = .stackOverflow a) := by
  cases op with
  | ret =>
    simp only [execute]
    split
    · simp_all [eq_comm]
    · simp_all
  | call t =>
    simp only [execute]
    split
    · next room => simp [Nat.not_le.2 room]
    · simp_all [eq_comm]
  | awaitKey x => simp [execute, answer_awaitKey]
  | _ => simp [execute]

/-- **An instruction that fails leaves the machine that it was given**, and notes nothing. -/
theorem execute_of_error {m : Machine} {a : Address} {op : Op} {fault : Fault}
    (h : (m.execute a op).answer = .error fault) : m.execute a op = ⟨m, [], .error fault⟩ := by
  rcases answer_execute_eq_error_iff.1 h with ⟨rfl, empty, rfl⟩ | ⟨⟨t, rfl⟩, full, rfl⟩
  · simp only [execute, empty]
  · exact if_neg (Nat.not_lt.2 full)

/-- Going elsewhere and back is staying. -/
theorem goto_goto_pc (m : Machine) (a : Address) : (m.goto a).goto m.pc = m := rfl

/-! ### A cycle -/

/-- The instruction that the machine has before it. -/
def next? (m : Machine) : Option Op := Op.decode (m.memory.fetch m.pc)

theorem cycle_of_next?_none {m : Machine} (h : m.next? = none) : m.cycle = ⟨m, [], .ok none⟩ := by
  rw [next?] at h
  simp only [cycle, h]

theorem cycle_of_execute_ok {m n : Machine} {op : Op} {records : List Record}
    (hop : m.next? = some op)
    (h : (m.goto (Address.next m.pc)).execute m.pc op = ⟨n, records, .ok ()⟩) :
    m.cycle = ⟨n, records, .ok (some ⟨m.pc, m.memory.fetch m.pc, op⟩)⟩ := by
  rw [next?] at hop
  simp only [cycle, hop, h]

/-- **A cycle that fails leaves the machine as it was**: the instruction changed nothing, and the program
counter is put back. -/
theorem cycle_of_execute_error {m : Machine} {op : Op} {fault : Fault} (hop : m.next? = some op)
    (h : ((m.goto (Address.next m.pc)).execute m.pc op).answer = .error fault) :
    m.cycle = ⟨m, [], .error fault⟩ := by
  rw [next?] at hop
  simp only [cycle, hop, execute_of_error h, goto_goto_pc]

/-- The three ways in which a cycle can go. -/
theorem cycle_cases (m : Machine) :
    (m.next? = none ∧ m.cycle = ⟨m, [], .ok none⟩) ∨
      (∃ op n records, m.next? = some op ∧
        (m.goto (Address.next m.pc)).execute m.pc op = ⟨n, records, .ok ()⟩ ∧
        m.cycle = ⟨n, records, .ok (some ⟨m.pc, m.memory.fetch m.pc, op⟩)⟩) ∨
      ∃ op fault, m.next? = some op ∧
        ((m.goto (Address.next m.pc)).execute m.pc op).answer = .error fault ∧
        m.cycle = ⟨m, [], .error fault⟩ := by
  cases hop : m.next? with
  | none => exact Or.inl ⟨rfl, cycle_of_next?_none hop⟩
  | some op =>
    rcases he : (m.goto (Address.next m.pc)).execute m.pc op with ⟨n, records, fault | ⟨⟩⟩
    · have failed : ((m.goto (Address.next m.pc)).execute m.pc op).answer = .error fault := by rw [he]
      exact Or.inr (Or.inr ⟨op, fault, rfl, failed, cycle_of_execute_error hop failed⟩)
    · exact Or.inr (Or.inl ⟨op, n, records, rfl, he, cycle_of_execute_ok hop he⟩)

theorem machine_step (m : Machine) : m.step.machine = m.resume.cycle.machine := by
  unfold step
  dsimp only
  split <;> rfl

theorem answer_step (m : Machine) : m.step.answer = m.resume.cycle.answer := by
  unfold step
  dsimp only
  split <;> rfl

theorem resume_of_running {m : Machine} (running : m.interrupted = false) : m.resume = m := by
  rw [resume, ← running]

/-- A machine that was not asked to stop steps by a cycle. -/
theorem step_of_running {m : Machine} (running : m.interrupted = false) : m.step = m.cycle := by
  simp [step, running, resume_of_running running]

/-- A cycle leaves alone every part that no instruction touches. -/
theorem cycle_frame (m : Machine) {p : Part} (untouched : ∀ op : Op, op.touches p = false) :
    m.Same m.cycle.machine p := by
  have same : m.Same m p := by cases p <;> rfl
  rcases m.cycle_cases with ⟨-, hc⟩ | ⟨op, n, records, -, he, hc⟩ | ⟨op, fault, -, -, hc⟩
  · rw [hc]
    exact same
  · rw [hc]
    have executed := execute_frame he (untouched op)
    cases p with
    | pc => cases untouched (.jump 0)
    | _ => exact executed
  · rw [hc]
    exact same

/-- A cycle neither asks the machine to stop nor takes such a request back. -/
theorem interrupted_cycle (m : Machine) : m.cycle.machine.interrupted = m.interrupted :=
  m.cycle_frame (p := .interrupted) fun op => by cases op <;> rfl

end Machine

end ChipEight
