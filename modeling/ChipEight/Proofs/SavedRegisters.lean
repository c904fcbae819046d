import ChipEight.Proofs.Moments
import ChipEight.Proofs.Window

/-!
# Registers that are saved

`Fx55` saves registers in a window of memory and `Fx65` brings them back, from a window that may reach around
the end of memory into the font. Memory is written by two instructions only, `Fx33` and `Fx55`, each in a
window from the index on (`memory_after`). So what was saved is still there after anything that does not
write to its window (`get_memory_perform`), and the registers come back as they were
(`saved_registers_return`).
-/

namespace ChipEight

/-- The cells that a move writes: three from the index on if it executes `Fx33`, one for each register up to
`Vx` if it executes `Fx55`, and otherwise none. -/
def Moment.written (t : Moment) : List Address :=
  if (t.register? 0x33).isSome then Address.window t.before.index 3
  else
    match t.register? 0x55 with
    | some x => Address.window t.before.index (x + 1)
    | none => []

namespace Registers

theorem length_upTo (r : Registers) (x : Register) : (r.upTo x).length = x + 1 := by
  have hx : (x : Nat) < 16 := x.isLt
  rw [upTo, List.length_take, length_bytes]
  omega

theorem length_upTo_le (r : Registers) (x : Register) : (r.upTo x).length ≤ memorySize := by
  have hx : (x : Nat) < 16 := x.isLt
  rw [length_upTo, memorySize]
  omega

/-- A byte of the registers that are saved together. -/
theorem getD_upTo (r : Registers) {x y : Register} (h : y ≤ x) (b : UInt8) :
    (r.upTo x).getD y b = r.get y := by
  have hy : (y : Nat) < x + 1 := Nat.lt_succ_of_le h
  simp [upTo, bytes, List.getD_eq_getElem?_getD, hy]

end Registers

namespace Machine

/-! ### Who writes to memory -/

/-- What saving registers does to memory. -/
theorem memory_of_save {t : Moment} {x : Register} (h : t.register? 0x55 = some x) :
    t.after.memory = t.before.memory.store t.before.index (t.before.registers.upTo x) := by
  obtain ⟨-, records, executed⟩ :=
    Moment.execute_of_register? (show (Op.save x).Listed from trivial) rfl h
  rw [execute, Outcome.mk.injEq] at executed
  rw [← executed.1]
  rfl

/-- What writing decimal digits does to memory. -/
theorem memory_of_decimal {t : Moment} {x : Register} (h : t.register? 0x33 = some x) :
    t.after.memory =
      t.before.memory.store t.before.index (decimalDigits (t.before.registers.get x)) := by
  obtain ⟨-, records, executed⟩ :=
    Moment.execute_of_register? (show (Op.decimal x).Listed from trivial) rfl h
  rw [execute, Outcome.mk.injEq] at executed
  rw [← executed.1]
  rfl

/-- What bringing registers back does to them, and that it leaves the index alone. -/
theorem registers_of_restore {t : Moment} {x : Register} (h : t.register? 0x65 = some x) :
    (∀ y, t.after.registers.get y =
        if y ≤ x then t.before.memory.get (t.before.index + y) else t.before.registers.get y) ∧
      t.after.index = t.before.index := by
  obtain ⟨-, records, executed⟩ :=
    Moment.execute_of_register? (show (Op.restore x).Listed from trivial) rfl h
  rw [execute, Outcome.mk.injEq] at executed
  rw [← executed.1]
  exact ⟨fun y => Registers.get_replaceUpTo .., rfl⟩

/-- A cycle that executes neither `Fx33` nor `Fx55` leaves memory alone. -/
theorem memory_of_other {m : Machine} (noDecimal : Moment.register? 0x33 ⟨m, .cycle⟩ = none)
    (noSave : Moment.register? 0x55 ⟨m, .cycle⟩ = none) :
    (Moment.after ⟨m, .cycle⟩).memory = m.memory := by
  cases he : Moment.executed? ⟨m, .cycle⟩ with
  | none => rw [Moment.after_of_executed_none rfl he]
  | some i =>
    obtain ⟨-, -, -, records, executed⟩ := Moment.exists_of_executed he
    refine execute_frame (p := .memory) executed ?_
    cases op : i.op with
    | decimal x =>
      rw [(Moment.register?_eq_some_iff (show (Op.decimal x).Listed from trivial) rfl).2 ⟨i, he, op⟩]
        at noDecimal
      cases noDecimal
    | save x =>
      rw [(Moment.register?_eq_some_iff (show (Op.save x).Listed from trivial) rfl).2 ⟨i, he, op⟩] at noSave
      cases noSave
    | _ => rfl

/-- **What a move does to memory**: unless it is a load, it stores bytes from the index on, and it writes the
cells of their window. -/
theorem memory_after {t : Moment} (quiet : t.move.reloads = false) :
    ∃ bytes, bytes.length ≤ memorySize ∧ t.after.memory = t.before.memory.store t.before.index bytes ∧
      t.written = Address.window t.before.index bytes.length := by
  rw [Moment.written]
  cases hd : t.register? 0x33 with
  | some x => exact ⟨_, by simp [decimalDigits, memorySize], memory_of_decimal hd, rfl⟩
  | none =>
    cases hs : t.register? 0x55 with
    | some x =>
      have length := t.before.registers.length_upTo x
      exact ⟨_, t.before.registers.length_upTo_le x, memory_of_save hs, by rw [length]; rfl⟩
    | none =>
      refine ⟨[], Nat.zero_le _, ?_, rfl⟩
      obtain ⟨m, move⟩ := t
      cases move with
      | cycle => exact memory_of_other hd hs
      | load program => rw [Moment.after, make_load quiet]; rfl
      | _ => rfl

/-- A cell is as it was before a move that does not write it. -/
theorem get_memory_after {c : Address} (hc : c < memorySize) {t : Moment} (quiet : t.move.reloads = false)
    (unwritten : c ∉ t.written) : t.after.memory.get c = t.before.memory.get c := by
  obtain ⟨bytes, short, stored, written⟩ := memory_after quiet
  rw [stored]
  refine Memory.get_store_of_notMem _ short ?_
  rw [Address.wrap_of_lt hc, ← written]
  exact unwritten

/-- A cell is as it was before moves that do not write it. -/
theorem get_memory_perform {c : Address} (hc : c < memorySize) {m : Machine} {moves : List Move}
    (kept : ∀ t ∈ m.path moves, t.move.reloads = false ∧ c ∉ t.written) :
    (m.perform moves).memory.get c = m.memory.get c := by
  refine path_frame (fun n => n.memory.get c) fun t ht => ?_
  obtain ⟨quiet, unwritten⟩ := kept t ht
  exact get_memory_after hc quiet unwritten

/-! ### Saving and bringing back -/

/-- What saving does: the window holds the registers, and all else in memory is as it was. -/
theorem memory_of_saves {s : Moment} {x : Register} (saves : s.register? 0x55 = some x) :
    (∀ y ≤ x, s.after.memory.get (s.before.index + y) = s.before.registers.get y) ∧
      ∀ c < memorySize, c ∉ Address.window s.before.index (x + 1) →
        s.after.memory.get c = s.before.memory.get c := by
  have short := s.before.registers.length_upTo_le x
  rw [memory_of_save saves]
  constructor
  · intro y hy
    have small : (y : Nat) < memorySize := Nat.lt_trans y.isLt (by decide)
    rw [Memory.get_store _ _ _ short, Address.offset_add _ small, Registers.getD_upTo _ hy]
  · intro c hc outside
    refine Memory.get_store_of_notMem _ short ?_
    rwa [Address.wrap_of_lt hc, Registers.length_upTo]

/-- **Registers that are saved come back.** Take any machine and any history of it, in which at some moment
`Fx55` is executed with the index at `a`, and at a later one `Fy65` with the index at `a` again, where `y` is
at most `x`. In between anything may have happened, but no program was loaded and no `Fx33` or `Fx55` wrote to
the window: the cells `a`, `a + 1` and so on up to `a + x`, modulo 4096. Then the registers `V0` to `Vy` are
what they were when they were saved, the others and the index are what they were before they were brought
back, and saving changed no cell of memory outside the window. -/
theorem saved_registers_return (m : Machine) (history : List Event) (past between future : List Moment)
    (s t : Moment) (a : Address) (x y : Register)
    (split : m.moments history = past ++ s :: (between ++ t :: future))
    (saves : s.register? 0x55 = some x) (savesAt : s.before.index = a)
    (kept : ∀ b ∈ between, b.move.reloads = false ∧ ∀ c ∈ b.written, c ∉ Address.window a (x + 1))
    (restores : t.register? 0x65 = some y) (restoresAt : t.before.index = a) (within : y ≤ x) :
    (∀ z ≤ y, t.after.registers.get z = s.before.registers.get z) ∧
      (∀ z, y < z → t.after.registers.get z = t.before.registers.get z) ∧
      t.after.index = t.before.index ∧
      ∀ c < 4096, c ∉ Address.window a (x + 1) → s.after.memory.get c = s.before.memory.get c := by
  subst savesAt
  obtain ⟨-, new, -, -, -, later⟩ := exists_of_path_eq split
  obtain ⟨during, -, -, rfl, before, -⟩ := exists_of_path_eq later.symm
  obtain ⟨saved, outside⟩ := memory_of_saves saves
  obtain ⟨restored, index⟩ := registers_of_restore restores
  refine ⟨fun z hz => ?_, fun z hz => ?_, index, outside⟩
  · have inWindow : Address.wrap (s.before.index + z) ∈ Address.window s.before.index (x + 1) :=
      List.mem_map.2 ⟨z, List.mem_range.2 (Nat.lt_succ_of_le (Nat.le_trans hz within)), rfl⟩
    have still : t.before.memory.get (s.before.index + z) = s.after.memory.get (s.before.index + z) := by
      rw [before, ← Memory.get_wrap, ← Memory.get_wrap s.after.memory]
      exact get_memory_perform (Address.wrap_lt _) fun b hb =>
        ⟨(kept b hb).1, fun written => (kept b hb).2 _ written inWindow⟩
    rw [restored z, if_pos hz, restoresAt, still, saved z (Nat.le_trans hz within)]
  · have beyond : ¬ z ≤ y := Nat.not_le.2 hz
    rw [restored z, if_neg beyond]

/-- A program that saves `V0` to `V3` around the end of memory, makes other use of the registers and of memory,
and brings back `V0` to `V2`. -/
def saveAndBringBack : List UInt8 :=
  [0x60, 0xAA, 0x61, 0xBB, 0x62, 0xCC, 0xAF, 0xFE, 0xF3, 0x55, 0x60, 0x01, 0x61, 0x02, 0x63, 0x07, 0xA3,
    0x00, 0xF1, 0x33, 0xF3, 0x55, 0xAF, 0xFE, 0xF2, 0x65]

/-- The registers come back from a window whose last cells hold the font. -/
theorem saved_registers_return_aroundEnd :
    let m := create {} 0
    let history := [.load saveAndBringBack, .run 8, .key 3 true, .tick, .interrupt, .run 5, .run 5]
    ∃ past s between t, m.moments history = past ++ s :: (between ++ t :: []) ∧
      s.register? 0x55 = some 3 ∧ t.register? 0x65 = some 2 ∧
      Address.window s.before.index 4 = [0xFFE, 0xFFF, 0x000, 0x001] ∧
      t.after.registers.get 2 = s.before.registers.get 2 ∧ s.before.registers.get 2 = 0xCC ∧
      t.after.registers.get 3 = t.before.registers.get 3 ∧ t.before.registers.get 3 = 7 ∧
      s.after.memory.get 0x002 = s.before.memory.get 0x002 := by
  intro m history
  let old : List Move := [.load saveAndBringBack, .cycle, .cycle, .cycle, .cycle]
  let s : Moment := ⟨m.perform old, .cycle⟩
  let new : List Move :=
    [.cycle, .cycle, .cycle, .key 3 true, .tick, .interrupt, .resume, .cycle, .cycle, .cycle, .cycle]
  let t : Moment := ⟨s.after.perform new, .cycle⟩
  have moved : m.moves history = old ++ .cycle :: (new ++ [.cycle]) := by decide +kernel
  have split : m.moments history = m.path old ++ s :: (s.after.path new ++ t :: []) := by
    rw [moments_of_moves moved, path_concat]
  obtain ⟨saves, savesAt, window, saved⟩ : s.register? 0x55 = some 3 ∧ s.before.index = 0xFFE ∧
      Address.window s.before.index 4 = [0xFFE, 0xFFF, 0x000, 0x001] ∧
      s.before.registers.get 2 = 0xCC := by
    decide +kernel
  have kept : ∀ b ∈ s.after.path new, b.move.reloads = false ∧
      ∀ c ∈ b.written, c ∉ Address.window 0xFFE ((3 : Register) + 1) := by
    decide +kernel
  obtain ⟨restores, restoresAt, seven⟩ : t.register? 0x65 = some 2 ∧ t.before.index = 0xFFE ∧
      t.before.registers.get 3 = 7 := by
    decide +kernel
  obtain ⟨same, others, -, outside⟩ := saved_registers_return m history (m.path old) (s.after.path new) [] s t
    0xFFE 3 2 split saves savesAt kept restores restoresAt (by decide)
  exact ⟨m.path old, s, s.after.path new, t, split, saves, restores, window, same 2 (by decide), saved,
    others 3 (by decide), seven, outside 2 (by decide) (by decide)⟩

end Machine

end ChipEight
