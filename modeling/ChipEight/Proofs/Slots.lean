import ChipEight.Proofs.Breaches

/-!
# A stack of slots

A machine keeps its return addresses as a list, and what was taken from a list is gone. Here the stack
is an array of sixteen slots and a number of them that are in use. A return takes a slot out of use and
leaves in it what it held, so that an old program could show through in a stack that looks empty. A call
or a return that fails changes no slot (`execute_of_error`), and its cycle goes back to it.

Here, too, a load does not make a new machine. It goes over the old one and puts back one part after
the other, it fills memory with zeros and stores the font and the program, and what it forgets is left
over. `machine_perform` says that a machine of slots does what a machine does, and `slots_load` that no
slot keeps anything through a load.
-/

namespace ChipEight

/-- Slots for return addresses. Those in use are the first ones; the others hold whatever was left in
them. -/
structure Slots where
  /-- What the slots hold. -/
  cells : Vector Address stackLimit
  /-- How many of them are in use. -/
  used : Nat
  /-- There are no more than there are. -/
  used_le : used ≤ stackLimit

namespace Slots

variable (s : Slots)

/-- No slot in use, and nothing in any of them. -/
def clear : Slots := ⟨Vector.replicate stackLimit 0, 0, Nat.zero_le _⟩

/-- With an address in the first slot that is not in use; none if all of them are. -/
def push? (a : Address) : Option Slots :=
  if h : s.used < stackLimit then some ⟨s.cells.set s.used a, s.used + 1, h⟩ else none

/-- The address in the last slot in use, and the slots with this one out of use; none if no slot is in
use. -/
def pop? : Option (Address × Slots) :=
  if h : 0 < s.used then
    have last : s.used - 1 < stackLimit := Nat.lt_of_lt_of_le (Nat.sub_one_lt_of_lt h) s.used_le
    some (s.cells[s.used - 1], { s with used := s.used - 1, used_le := Nat.le_of_lt last })
  else none

/-- The return addresses, the last one first. -/
def saved : List Address := (s.cells.toList.take s.used).reverse

@[simp] theorem length_saved : s.saved.length = s.used := by
  simp [saved, s.used_le]

/-- An address that is pushed comes in front of the others. -/
theorem saved_of_push {s t : Slots} {a : Address} (h : s.push? a = some t) :
    s.saved.length < stackLimit ∧ t.saved = a :: s.saved := by
  unfold push? at h
  split at h
  · next room =>
    cases h
    refine ⟨by rwa [length_saved], ?_⟩
    have there : s.used < (s.cells.set s.used a).toList.length := by simpa using room
    have below : (s.cells.set s.used a).toList.take s.used = s.cells.toList.take s.used := by
      rw [Vector.toList_set, List.take_set_of_le (Nat.le_refl _)]
    simp [saved, List.take_succ_eq_append_getElem there, below]
  · cases h

/-- There is no slot for an address if the stack is full. -/
theorem length_of_push_none {s : Slots} {a : Address} (h : s.push? a = none) :
    ¬ s.saved.length < stackLimit := by
  unfold push? at h
  split at h
  · cases h
  · next full => rwa [length_saved]

/-- What is popped was the address in front. -/
theorem saved_of_pop {s t : Slots} {a : Address} (h : s.pop? = some (a, t)) : s.saved = a :: t.saved := by
  unfold pop? at h
  split at h
  · next some_used =>
    cases h
    obtain ⟨n, hn⟩ := Nat.exists_eq_succ_of_ne_zero (Nat.ne_of_gt some_used)
    have there : n < s.cells.toList.length := by
      have := s.used_le
      simp
      omega
    simp [saved, hn, List.take_succ_eq_append_getElem there]
  · cases h

/-- Nothing can be popped if no address was pushed. -/
theorem saved_of_pop_none {s : Slots} (h : s.pop? = none) : s.saved = [] := by
  unfold pop? at h
  split at h
  · cases h
  · next none_used =>
    rw [← List.length_eq_zero_iff, length_saved]
    exact Nat.eq_zero_of_not_pos none_used

end Slots

/-- A machine that keeps its return addresses in slots. -/
structure Slotted where
  /-- All of it but the stack. The list of return addresses in here is not used. -/
  core : Machine
  /-- The stack. -/
  slots : Slots

namespace Slotted

/-- The machine that it is. -/
def machine (s : Slotted) : Machine := { s.core with stack := s.slots.saved }

/-! ### What it does -/

/-- A machine of a configuration, switched on. -/
def create (config : Config) (chance : StreamKey) : Slotted := ⟨Machine.create config chance, Slots.clear⟩

/-- Go on at another address. -/
def goto (s : Slotted) (a : Address) : Slotted := { s with core := s.core.goto a }

/-- Do what an instruction says, which was found at an address. There is a machine after a fault, too. -/
def execute (s : Slotted) (address : Address) : Op → Slotted × Except Fault Unit
  | .ret =>
    match s.slots.pop? with
    | none => (s, .error (.stackUnderflow address))
    | some (back, slots) => (⟨s.core.goto back, slots⟩, .ok ())
  | .call target =>
    match s.slots.push? s.core.pc with
    | none => (s, .error (.stackOverflow address))
    | some slots => (⟨s.core.goto target, slots⟩, .ok ())
  | op =>
    let o := s.core.execute address op
    (⟨o.machine, s.slots⟩, o.answer)

/-- Fetch, decode and execute one instruction. After a fault the program counter is put back to the
instruction, and nothing else is. -/
def cycle (s : Slotted) : Slotted :=
  match s.core.next? with
  | none => s
  | some op =>
    match (s.goto (Address.next s.core.pc)).execute s.core.pc op with
    | (after, .ok ()) => after
    | (after, .error _) => after.goto s.core.pc

/-- Put every part back to what it was after switching on, but for the held keys and the random
words. -/
def reset (s : Slotted) : Slotted where
  core :=
    { s.core with
      pc := programStart
      registers := Registers.zero
      index := 0
      timers := { s.core.timers with delay := 0, sound := 0 }
      waiting := false
      keypad := s.core.keypad.forget
      memory := Memory.store ⟨Vector.replicate memorySize 0⟩ Font.start Font.bytes
      stack := []
      display := Display.dark
      interrupted := false }
  slots := { s.slots with
    cells := Vector.replicate stackLimit 0
    used := 0
    used_le := Nat.zero_le _ }

/-- Load a program and start anew. A program that does not fit changes nothing. -/
def load (s : Slotted) (program : List UInt8) : Slotted :=
  if programLimit < program.length then s
  else
    { s.reset with
      core := { s.reset.core with memory := s.reset.core.memory.store programStart program } }

/-- The machine after a move. -/
def make (s : Slotted) : Move → Slotted
  | .load program => s.load program
  | .cycle => s.cycle
  | move => ⟨s.core.make move, s.slots⟩

/-- The machine after some moves. -/
def perform (s : Slotted) : List Move → Slotted
  | [] => s
  | move :: rest => (s.make move).perform rest

/-! ### It does what a machine does -/

@[simp] theorem machine_create (config : Config) (chance : StreamKey) :
    (create config chance).machine = Machine.create config chance := rfl

/-- Only calls and returns look at the stack. -/
theorem execute_withStack {op : Op} (other : op.touches .stack = false) (m : Machine) (a : Address)
    (stack : List Address) :
    Machine.execute { m with stack := stack } a op =
      { m.execute a op with machine := { (m.execute a op).machine with stack := stack } } := by
  cases op with
  | ret | call => cases other
  | awaitKey x =>
    cases hw : m.waiting <;> cases hl : m.keypad.latched <;>
      simp [Machine.execute, Machine.awaitKey_eq, hw, hl]
  | skipEqByte | skipNeByte | skipEq | skipNe | skipHeld | skipFree =>
    simp only [Machine.execute, Machine.skipIf_eq]
  | arith => simp only [Machine.execute, Machine.compute_eq]
  | _ => rfl

/-- An instruction that does not touch the stack is executed by the core. -/
theorem execute_of_other {op : Op} (other : op.touches .stack = false) (s : Slotted) (a : Address) :
    s.execute a op = (⟨(s.core.execute a op).machine, s.slots⟩, (s.core.execute a op).answer) := by
  cases op with
  | ret | call => cases other
  | _ => rfl

/-- An instruction does to a machine of slots what it does to a machine, and fails if it fails there. -/
theorem machine_execute (s : Slotted) (a : Address) (op : Op) :
    (s.execute a op).1.machine = (s.machine.execute a op).machine ∧
      (s.execute a op).2 = (s.machine.execute a op).answer := by
  cases op with
  | ret =>
    simp only [execute, Machine.execute]
    cases popped : s.slots.pop? with
    | none =>
      have empty : s.machine.stack = [] := Slots.saved_of_pop_none popped
      rw [empty]
      exact ⟨rfl, rfl⟩
    | some taken =>
      have top : s.machine.stack = taken.1 :: taken.2.saved := Slots.saved_of_pop popped
      rw [top]
      exact ⟨rfl, rfl⟩
  | call target =>
    simp only [execute, Machine.execute]
    cases pushed : s.slots.push? s.core.pc with
    | none =>
      have full : ¬ s.machine.stack.length < stackLimit := Slots.length_of_push_none pushed
      rw [if_neg full]
      exact ⟨rfl, rfl⟩
    | some slots =>
      obtain ⟨room, top⟩ := Slots.saved_of_push (s := s.slots) pushed
      have room : s.machine.stack.length < stackLimit := room
      rw [if_pos room]
      simp only [machine, Machine.goto, top, and_self]
  | _ =>
    rw [machine, machine, execute_withStack rfl, execute_of_other rfl]
    exact ⟨rfl, rfl⟩

/-- An instruction that fails leaves every slot as it was, and all the rest. -/
theorem execute_of_error {s : Slotted} {a : Address} {op : Op} {fault : Fault}
    (h : (s.execute a op).2 = .error fault) : s.execute a op = (s, .error fault) := by
  refine Prod.ext ?_ h
  cases op with
  | ret =>
    simp only [execute] at h ⊢
    split at h
    · rfl
    · cases h
  | call target =>
    simp only [execute] at h ⊢
    split at h
    · rfl
    · cases h
  | _ =>
    rw [execute_of_other rfl] at h ⊢
    rw [Machine.execute_of_error h]

theorem cycle_of_execute_ok {s t : Slotted} {op : Op} (hop : s.core.next? = some op)
    (h : (s.goto (Address.next s.core.pc)).execute s.core.pc op = (t, .ok ())) : s.cycle = t := by
  simp only [cycle, hop, h]

/-- **A cycle that fails leaves the machine as it was, with all its slots**: the instruction changed nothing,
and the program counter is put back. -/
theorem cycle_of_execute_error {s : Slotted} {op : Op} {fault : Fault} (hop : s.core.next? = some op)
    (h : ((s.goto (Address.next s.core.pc)).execute s.core.pc op).2 = .error fault) : s.cycle = s := by
  simp only [cycle, hop, execute_of_error h]
  rfl

/-- **A cycle of a machine of slots is a cycle of the machine.** -/
theorem machine_cycle (s : Slotted) : s.cycle.machine = s.machine.cycle.machine := by
  have same (op : Op) := machine_execute (s.goto (Address.next s.core.pc)) s.core.pc op
  change ∀ op, _ = ((s.machine.goto (Address.next s.machine.pc)).execute s.machine.pc op).machine ∧
    _ = ((s.machine.goto (Address.next s.machine.pc)).execute s.machine.pc op).answer at same
  rcases s.machine.cycle_cases with ⟨ended, hc⟩ | ⟨op, n, records, hop, he, hc⟩ | ⟨op, fault, hop, he, hc⟩
  · change s.core.next? = none at ended
    rw [hc, cycle, ended]
  · obtain ⟨left, answer⟩ := same op
    rw [he] at left answer
    rw [hc, cycle_of_execute_ok hop (Prod.ext rfl answer)]
    exact left
  · obtain ⟨-, answer⟩ := same op
    rw [hc, cycle_of_execute_error hop (answer.trans he)]

/-- **Putting back one part after the other is starting anew.** -/
theorem machine_load (s : Slotted) (program : List UInt8) :
    (s.load program).machine = (s.machine.load program).machine := by
  rw [load, Machine.load]
  split
  · rfl
  · next fits =>
    have stored : s.reset.core.memory.store programStart program = Memory.ofProgram program := by
      rw [← Guarded.store_program (Nat.le_of_not_lt fits), ← Guarded.store_font]
      rfl
    rw [stored]
    rfl

theorem machine_make (s : Slotted) (move : Move) : (s.make move).machine = s.machine.make move := by
  cases move with
  | load program => exact s.machine_load program
  | cycle => exact s.machine_cycle
  | _ => rfl

/-- **A machine of slots does what a machine does.** -/
theorem machine_perform (s : Slotted) (moves : List Move) :
    (s.perform moves).machine = s.machine.perform moves := by
  induction moves generalizing s with
  | nil => rfl
  | cons move rest ih => rw [perform, ih, machine_make, Machine.perform]

/-- **No slot keeps anything through a load.** -/
theorem slots_load (s : Slotted) {program : List UInt8} (fits : program.length ≤ programLimit) :
    (s.load program).slots = Slots.clear := by
  rw [load, if_neg (Nat.not_lt.2 fits)]
  rfl

end Slotted

end ChipEight
