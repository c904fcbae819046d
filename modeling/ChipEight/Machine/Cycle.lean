import ChipEight.Isa.Assembly
import ChipEight.Machine.Execute

/-!
# Cycles and runs

A cycle fetches the word at the program counter and does what it says. The zero word
ends the program: the machine stays where it is. A cycle that fails goes back to the
instruction that failed. A run repeats cycles until there is a reason to stop.
-/

namespace ChipEight

/-- Why a run stopped. -/
inductive Stop
  /-- All cycles that were asked for are done. -/
  | done
  /-- The program has ended. -/
  | halted
  /-- The machine was asked to stop. -/
  | interrupted
  /-- The program waits for a key. -/
  | waiting
  deriving DecidableEq, Repr

namespace Machine

/-- Fetch, decode and execute one instruction; the answer is the instruction, or none at the end of
the program. After a fault the program counter is put back to the instruction. -/
def cycle (m : Machine) : Outcome (Except Fault (Option Instruction)) :=
  let word := m.memory.fetch m.pc
  match Op.decode word with
  | none => ⟨m, [], .ok none⟩
  | some op =>
    match (m.goto (Address.next m.pc)).execute m.pc op with
    | ⟨after, records, .ok ()⟩ => ⟨after, records, .ok (some ⟨m.pc, word, op⟩)⟩
    | ⟨after, records, .error fault⟩ => ⟨after.goto m.pc, records, .error fault⟩

/-- A cycle that was asked for by itself. It goes ahead even if the machine was asked to stop, and
drops that request. -/
def step (m : Machine) : Outcome (Except Fault (Option Instruction)) :=
  let o := m.resume.cycle
  if m.interrupted then { o with records := .interruptDropped :: o.records } else o

/-- Up to `n` cycles, after the events in `noted`, which has the last one first. -/
def runFrom : Nat → Machine → List Record → Outcome (Except Fault Stop)
  | 0, m, noted => ⟨m, noted.reverse, .ok .done⟩
  | n + 1, m, noted =>
    if m.interrupted then ⟨m.resume, noted.reverse, .ok .interrupted⟩
    else
      match m.cycle with
      | ⟨after, records, .error fault⟩ => ⟨after, (records.reverse ++ noted).reverse, .error fault⟩
      | ⟨after, records, .ok none⟩ => ⟨after, (records.reverse ++ noted).reverse, .ok .halted⟩
      | ⟨after, records, .ok (some _)⟩ =>
        if after.waiting then ⟨after, (records.reverse ++ noted).reverse, .ok .waiting⟩
        else runFrom n after (records.reverse ++ noted)

/-- Up to `n` cycles. A run stops early when the program ends, waits for a key or fails, and before
a cycle when the machine was asked to stop. -/
def run (n : Nat) (m : Machine) : Outcome (Except Fault Stop) := runFrom n m []

/-- Events noted before a run stay in front of those that the run notes. -/
theorem runFrom_eq (n : Nat) (m : Machine) (noted : List Record) :
    runFrom n m noted = { m.run n with records := noted.reverse ++ (m.run n).records } := by
  induction n generalizing m noted with
  | zero => simp [run, runFrom]
  | succ n ih =>
    rw [run]
    unfold runFrom
    split
    · simp
    · split
      · simp
      · simp
      · split
        · simp
        · rw [ih, ih _ (_ ++ [])]
          simp

@[simp] theorem run_zero (m : Machine) : m.run 0 = ⟨m, [], .ok .done⟩ := rfl

/-- A run is a cycle and, if nothing speaks against going on, a shorter run. -/
theorem run_succ (n : Nat) (m : Machine) :
    m.run (n + 1) =
      if m.interrupted then ⟨m.resume, [], .ok .interrupted⟩
      else
        match m.cycle with
        | ⟨after, records, .error fault⟩ => ⟨after, records, .error fault⟩
        | ⟨after, records, .ok none⟩ => ⟨after, records, .ok .halted⟩
        | ⟨after, records, .ok (some _)⟩ =>
          if after.waiting then ⟨after, records, .ok .waiting⟩
          else { after.run n with records := records ++ (after.run n).records } := by
  rw [run]
  unfold runFrom
  split
  · rfl
  · split
    · simp
    · simp
    · split
      · simp
      · rw [runFrom_eq]
        simp

end Machine

end ChipEight
