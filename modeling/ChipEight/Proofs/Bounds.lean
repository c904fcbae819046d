import ChipEight.Proofs.Moments
import ChipEight.Proofs.Pattern

/-!
# Bounds

The program counter, the index and the return addresses of a machine are addresses of memory, and
no more than sixteen calls are open. Each of these bounds leans on the others: a return takes the
program counter from the stack, a call puts it there. And some lean on the decoder, since a jump goes
where its word says without a wrap. Together no move breaks them (`InBounds.make`).
-/

namespace ChipEight

/-- The address that an instruction carries, if it carries one, is an address of memory. -/
def Op.InRange : Op → Prop
  | .jump a | .call a | .loadIndex a | .jumpOffset a => a < memorySize
  | _ => True

/-- Words have room for twelve bits of address. -/
theorem Op.inRange_of_decode {w : Word} {op : Op} (h : Op.decode w = some op) : op.InRange := by
  rcases (Op.decode_eq_some_iff.1 h).2 with ⟨listed, -⟩ | ⟨rfl, -⟩
  · cases op <;> first | exact listed | trivial
  · trivial

namespace Machine

/-- The addresses that a machine holds are addresses of memory, and its stack is not too deep. -/
structure InBounds (m : Machine) : Prop where
  /-- The next instruction is in memory. -/
  pc : m.pc < memorySize
  /-- So is what the index points to. -/
  index : m.index < memorySize
  /-- No more calls are open than there are slots. -/
  depth : m.stack.length ≤ stackLimit
  /-- Every return goes to an address in memory. -/
  saved : ∀ a ∈ m.stack, a < memorySize

/-- A machine at the start of a program. -/
theorem InBounds.of_start {m : Machine} (pc : m.pc = programStart) (index : m.index = 0)
    (stack : m.stack = []) : m.InBounds where
  pc := by
    rw [pc]
    decide
  index := by
    rw [index]
    decide
  depth := by simp [stack]
  saved := by simp [stack]

/-- Going on elsewhere in memory. -/
theorem InBounds.goto {m : Machine} (h : m.InBounds) {a : Address} (ha : a < memorySize) :
    (m.goto a).InBounds :=
  ⟨ha, h.index, h.depth, h.saved⟩

/-- Passing over an instruction. -/
theorem InBounds.skipIf {m : Machine} (h : m.InBounds) (c : Bool) : (m.skipIf c).InBounds := by
  cases c with
  | false => exact h
  | true => exact h.goto (Address.next_lt _)

/-- An instruction keeps the bounds. -/
theorem InBounds.execute {m n : Machine} {a : Address} {op : Op} {records : List Record}
    (h : m.InBounds) (ha : a < memorySize) (range : op.InRange)
    (he : m.execute a op = ⟨n, records, .ok ()⟩) : n.InBounds := by
  cases op with
  | ret =>
    simp only [Machine.execute] at he
    split at he
    · cases he
    · next back rest hs =>
      cases he
      have saved := h.saved
      have depth := h.depth
      rw [hs] at saved depth
      exact ⟨saved back List.mem_cons_self, h.index, Nat.le_of_succ_le depth,
        fun b hb => saved b (List.mem_cons_of_mem _ hb)⟩
  | call target =>
    simp only [Machine.execute] at he
    split at he
    · next room =>
      cases he
      exact ⟨range, h.index, room, List.forall_mem_cons.2 ⟨h.pc, h.saved⟩⟩
    · cases he
  | jump target =>
    cases he
    exact h.goto range
  | jumpOffset target =>
    cases he
    exact h.goto (Address.wrap_lt _)
  | loadIndex target =>
    cases he
    exact ⟨h.pc, range, h.depth, h.saved⟩
  | addIndex x =>
    cases he
    exact ⟨h.pc, Address.wrap_lt _, h.depth, h.saved⟩
  | glyph x =>
    cases he
    exact ⟨h.pc, Font.glyphAddress_lt _, h.depth, h.saved⟩
  | awaitKey x =>
    simp only [Machine.execute, awaitKey_eq] at he
    split at he <;> cases he
    · exact ⟨h.pc, h.index, h.depth, h.saved⟩
    · exact ⟨ha, h.index, h.depth, h.saved⟩
    · exact ⟨ha, h.index, h.depth, h.saved⟩
  | skipEqByte | skipNeByte | skipEq | skipNe | skipHeld | skipFree =>
    cases he
    exact h.skipIf _
  | _ =>
    -- what is left touches no address
    simp only [Machine.execute, compute_eq] at he
    cases he
    exact ⟨h.pc, h.index, h.depth, h.saved⟩

/-- A cycle keeps the bounds. -/
theorem InBounds.cycle {m : Machine} (h : m.InBounds) : m.cycle.machine.InBounds := by
  rcases m.cycle_cases with ⟨-, hc⟩ | ⟨op, n, records, hop, he, hc⟩ | ⟨op, fault, -, -, hc⟩
  · rw [hc]
    exact h
  · rw [hc]
    exact (h.goto (Address.next_lt m.pc)).execute h.pc (Op.inRange_of_decode hop) he
  · rw [hc]
    exact h

/-- **No move breaks the bounds.** -/
theorem InBounds.make {m : Machine} (h : m.InBounds) (move : Move) : (m.make move).InBounds := by
  cases hr : move.reloads with
  | true =>
    obtain ⟨program, -, restarted⟩ := make_of_reloads (m := m) hr
    rw [restarted]
    exact .of_start rfl rfl rfl
  | false =>
    cases move with
    | load program =>
      rw [make_load hr]
      exact h
    | cycle => exact h.cycle
    | _ => exact ⟨h.pc, h.index, h.depth, h.saved⟩

/-- **Every machine that can be reached is in bounds.** -/
theorem Reachable.inBounds {m : Machine} (h : m.Reachable) : m.InBounds :=
  h.induction (fun _ _ => .of_start rfl rfl rfl) fun _ move hm => hm.make move

/-- The stack is never deeper than its limit. -/
theorem Reachable.depth_le {m : Machine} (h : m.Reachable) : m.stack.length ≤ stackLimit :=
  h.inBounds.depth

end Machine

end ChipEight
