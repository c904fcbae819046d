import ChipEight.Machine.Dump
import ChipEight.Machine.Event

/-!
# A machine that checks what it does

No operation of a machine can go wrong: addresses wrap, registers and keys are named by numbers that
are in range, and a sum has room. Here the machine works on arrays that do not forgive. An index is a
plain number and is checked against its array; addresses wrap only where the machine means them to; a
sum of addresses has to fit into sixteen bits; memory is filled, programs are copied, registers are
saved and restored and sprites are drawn in loops, cell by cell; and the units for arithmetic and for
the instructions of family `F` each have a last case for an instruction that is not theirs. Whatever
must not happen is a `Breach`, and it ends the operation.

This module only says what a guarded machine does. That there never is a breach, and that it does what
a machine does, is shown from the bounds of reachable machines.
-/

namespace ChipEight

/-- What must not happen in a machine. -/
inductive Breach
  /-- An index outside of memory. -/
  | cell (index : Nat)
  /-- An index outside of the registers. -/
  | register (index : Nat)
  /-- An index outside of the slots of the stack. -/
  | slot (index : Nat)
  /-- An index outside of the pixels. -/
  | pixel (index : Nat)
  /-- A bit outside of the keypad. -/
  | key (bit : Nat)
  /-- A sum that does not fit into sixteen bits. -/
  | sum (a b : Nat)
  /-- An instruction that came to a unit that does not know it. -/
  | unit (op : Op)
  deriving DecidableEq, Repr

/-- A result, if there was no breach. -/
abbrev Guarded := Except Breach

namespace Guarded

/-! ### Checks -/

/-- A breach, unless a condition holds. -/
def check (c : Prop) [Decidable c] (breach : Breach) : Guarded Unit :=
  if c then .ok () else .error breach

/-- The entry of an array at an index. -/
def get {α : Type} {n : Nat} (breach : Nat → Breach) (v : Vector α n) (i : Nat) : Guarded α :=
  if h : i < n then .ok v[i] else .error (breach i)

/-- An array with another entry at an index. -/
def set {α : Type} {n : Nat} (breach : Nat → Breach) (v : Vector α n) (i : Nat) (a : α) :
    Guarded (Vector α n) :=
  if h : i < n then .ok (v.set i a) else .error (breach i)

/-- A sum of sixteen bits. -/
def sum (a b : Nat) : Guarded Nat := do
  check (a + b < 0x10000) (.sum a b)
  return a + b

/-! ### Arrays of a machine -/

/-- The byte at an address, which wraps. -/
def read (memory : Memory) (a : Nat) : Guarded UInt8 := get .cell memory.cells (Address.wrap a)

/-- Memory with another byte at an address, which wraps. -/
def write (memory : Memory) (a : Nat) (b : UInt8) : Guarded Memory :=
  return ⟨← set .cell memory.cells (Address.wrap a) b⟩

/-- Memory with bytes copied into it from an index on, which does not wrap. -/
def copy (memory : Memory) (i : Nat) : List UInt8 → Guarded Memory
  | [] => return memory
  | b :: rest => do copy ⟨← set .cell memory.cells i b⟩ (i + 1) rest

/-- The byte in a register. -/
def register (registers : Registers) (i : Nat) : Guarded UInt8 := get .register registers.cells i

/-- The registers with another byte in one of them. -/
def put (registers : Registers) (i : Nat) (b : UInt8) : Guarded Registers :=
  return ⟨← set .register registers.cells i b⟩

/-- The pixel at a place, which wraps around the edges. -/
def pixel (display : Display) (x y : Nat) : Guarded Bool :=
  get .pixel display.cells (Display.position x y)

/-- The bit of a key is set. -/
def isHeld (keypad : Keypad) (bit : Nat) : Guarded Bool := do
  check (bit < keyCount) (.key bit)
  return keypad.held.getLsbD bit

/-- The keypad after a key went down or up. -/
def setKey (keypad : Keypad) (key : Key) (down : Bool) : Guarded Keypad := do
  check ((key : Nat) < keyCount) (.key key)
  return keypad.set key down

/-- With an address pushed; none if the stack is full. The slot is the one above those in use. -/
def push (m : Machine) (a : Address) : Guarded (Option Machine) :=
  if stackLimit ≤ m.stack.length then return none
  else do
    check (m.stack.length < stackLimit) (.slot m.stack.length)
    return some { m with stack := a :: m.stack }

/-- The address in the last slot in use, and the machine without it; none if none is in use. -/
def pop (m : Machine) : Guarded (Option (Address × Machine)) :=
  match m.stack with
  | [] => return none
  | a :: rest => do
    check (rest.length < stackLimit) (.slot rest.length)
    return some (a, { m with stack := rest })

/-! ### Instructions -/

/-- The address of the instruction after the one at `a`. -/
def next (a : Address) : Guarded Address := return Address.wrap (← sum a instructionSize)

/-- Pass over the next instruction if a condition holds. -/
def skipIf (m : Machine) (c : Bool) : Guarded Machine :=
  if c then return m.goto (← next m.pc) else return m

/-- The unit for arithmetic. -/
def math (m : Machine) (op : Op) (x y : Nat) : Guarded Machine := do
  let a ← register m.registers x
  let b ← register m.registers y
  let (result, flag) ←
    match op with
    | .arith rule _ _ => pure (rule.eval a b)
    | _ => throw (.unit op)
  let registers ← put m.registers x result
  match flag with
  | none => return { m with registers := registers }
  | some f => return { m with registers := ← put registers 15 f }

/-- Turn over the pixels that a row of a sprite strikes, from the left to the right. -/
def drawRow (x y : Nat) (bits : UInt8) (s : Display × Bool) : Guarded (Display × Bool) :=
  (List.range Display.spriteWidth).foldlM
    (fun (display, hit) c =>
      if bits.toNat.testBit (Display.spriteWidth - 1 - c) then do
        let wasLit ← pixel display (x + c) y
        let cells ← set .pixel display.cells (Display.position (x + c) y) (!wasLit)
        return (⟨cells⟩, hit || wasLit)
      else return (display, hit))
    s

/-- Draw a sprite row by row. -/
def draw (x y : Nat) : List UInt8 → Display × Bool → Guarded (Display × Bool)
  | [], s => return s
  | bits :: rest, s => do draw x (y + 1) rest (← drawRow x y bits s)

/-- Draw the sprite at the index. -/
def drawSprite (m : Machine) (x y height : Nat) : Guarded Machine := do
  let column ← register m.registers x
  let line ← register m.registers y
  let sprite ← (List.range height).mapM fun r => read m.memory (m.index + r)
  let (display, hit) ← draw column.toNat line.toNat sprite (m.display, false)
  return { m with display := display, registers := ← put m.registers 15 hit.toUInt8 }

/-- Memory with the first `n` registers stored one by one from an address on. -/
def save (registers : Registers) (a : Address) (n : Nat) (memory : Memory) : Guarded Memory :=
  (List.range n).foldlM (fun memory v => do write memory (a + v) (← register registers v)) memory

/-- The registers after the first `n` were loaded one by one from an address on. -/
def restore (memory : Memory) (a : Address) (n : Nat) (registers : Registers) : Guarded Registers :=
  (List.range n).foldlM (fun registers v => do put registers v (← read memory (a + v))) registers

/-- The unit for timers, keys and memory. -/
def misc (m : Machine) (address : Address) (op : Op) (x : Nat) : Guarded (Machine × List Record) := do
  let b ← register m.registers x
  match op with
  | .readDelay _ => return ({ m with registers := ← put m.registers x m.timers.delay }, [])
  | .awaitKey _ =>
    let (m, records) :=
      if m.waiting then (m, [])
      else ({ m with keypad := m.keypad.forget, waiting := true }, [.waiting address])
    match m.keypad.latched with
    | some k =>
      return ({ m with
        registers := ← put m.registers x k.toByte
        keypad := m.keypad.forget
        waiting := false }, records ++ [.resumed k])
    | none => return (m.goto address, records)
  | .setDelay _ => return ({ m with timers := { m.timers with delay := b } }, [])
  | .setSound _ => return ({ m with timers := { m.timers with sound := b } }, [])
  | .addIndex _ => return ({ m with index := Address.wrap (← sum m.index b.toNat) }, [])
  | .glyph _ =>
    return ({ m with index := ← sum Font.start (b.toNat % Font.count * Font.height) }, [])
  | .decimal _ =>
    let memory ← write m.memory m.index (b / 100)
    let memory ← write memory (m.index + 1) (b / 10 % 10)
    let memory ← write memory (m.index + 2) (b % 10)
    return ({ m with memory := memory }, [])
  | .save _ =>
    return ({ m with memory := ← save m.registers m.index (x + 1) m.memory }, [])
  | .restore _ =>
    return ({ m with registers := ← restore m.memory m.index (x + 1) m.registers }, [])
  | _ => throw (.unit op)

/-- Do what an instruction says, which was found at `address`. -/
def execute (m : Machine) (address : Address) (op : Op) :
    Guarded (Outcome (Except Fault Unit)) :=
  let plain (m : Machine) : Outcome (Except Fault Unit) := ⟨m, [], .ok ()⟩
  match op with
  | .system _ => return plain m
  | .clear => return plain { m with display := Display.dark }
  | .ret => do
    match ← pop m with
    | none => return ⟨m, [], .error (.stackUnderflow address)⟩
    | some (a, m) => return plain (m.goto a)
  | .jump a => return plain (m.goto a)
  | .call a => do
    match ← push m m.pc with
    | none => return ⟨m, [], .error (.stackOverflow address)⟩
    | some m => return plain (m.goto a)
  | .skipEqByte x b => return plain (← skipIf m ((← register m.registers x) = b))
  | .skipNeByte x b => return plain (← skipIf m ((← register m.registers x) ≠ b))
  | .skipEq x y =>
    return plain (← skipIf m ((← register m.registers x) = (← register m.registers y)))
  | .skipNe x y =>
    return plain (← skipIf m ((← register m.registers x) ≠ (← register m.registers y)))
  | .loadByte x b => return plain { m with registers := ← put m.registers x b }
  | .addByte x b =>
    return plain { m with registers := ← put m.registers x ((← register m.registers x) + b) }
  | .loadIndex a => return plain { m with index := a }
  | .jumpOffset a =>
    return plain (m.goto (Address.wrap (← sum a (← register m.registers 0).toNat)))
  | .random x mask =>
    return plain { m with
      registers := ← put m.registers x (mask &&& m.generator.peek)
      generator := m.generator.advanced }
  | .draw x y height => return plain (← drawSprite m x y height)
  | .skipHeld x =>
    return plain (← skipIf m (← isHeld m.keypad ((← register m.registers x).toNat % keyCount)))
  | .skipFree x =>
    return plain (← skipIf m (!(← isHeld m.keypad ((← register m.registers x).toNat % keyCount))))
  | .unknown w => return ⟨m, [.unknown w address], .ok ()⟩
  | .arith _ x y => return plain (← math m op x y)
  | .readDelay x | .awaitKey x | .setDelay x | .setSound x | .addIndex x | .glyph x | .decimal x
  | .save x | .restore x => do
    let (m, records) ← misc m address op x
    return ⟨m, records, .ok ()⟩

/-! ### Operations -/

/-- Fetch, decode and execute one instruction. After a fault the program counter is put back. -/
def cycle (m : Machine) : Guarded (Outcome (Except Fault (Option Instruction))) := do
  let word := Word.ofBytes (← read m.memory m.pc) (← read m.memory (m.pc + 1))
  match Op.decode word with
  | none => return ⟨m, [], .ok none⟩
  | some op =>
    match ← execute (m.goto (← next m.pc)) m.pc op with
    | ⟨after, records, .ok ()⟩ => return ⟨after, records, .ok (some ⟨m.pc, word, op⟩)⟩
    | ⟨after, records, .error fault⟩ => return ⟨after.goto m.pc, records, .error fault⟩

/-- A cycle that was asked for by itself. -/
def step (m : Machine) : Guarded (Outcome (Except Fault (Option Instruction))) := do
  let o ← cycle m.resume
  return if m.interrupted then { o with records := .interruptDropped :: o.records } else o

/-- Up to `n` cycles. -/
def run : Nat → Machine → Guarded (Outcome (Except Fault Stop))
  | 0, m => return ⟨m, [], .ok .done⟩
  | n + 1, m =>
    if m.interrupted then return ⟨m.resume, [], .ok .interrupted⟩
    else do
      match ← cycle m with
      | ⟨after, records, .error fault⟩ => return ⟨after, records, .error fault⟩
      | ⟨after, records, .ok none⟩ => return ⟨after, records, .ok .halted⟩
      | ⟨after, records, .ok (some _)⟩ =>
        if after.waiting then return ⟨after, records, .ok .waiting⟩
        else do
          let rest ← run n after
          return { rest with records := records ++ rest.records }

/-- Memory with the font and nothing else. -/
def font : Guarded Memory := copy ⟨Vector.replicate memorySize 0⟩ Font.start Font.bytes

/-- A machine of a configuration, switched on. -/
def create (config : Config) (chance : StreamKey) : Guarded Machine :=
  return { Machine.create config chance with memory := ← font }

/-- Load a program and start anew. -/
def load (m : Machine) (program : List UInt8) : Guarded (Outcome (Except Oversize Unit)) :=
  if programLimit < program.length then return ⟨m, [], .error ⟨program.length⟩⟩
  else do
    let memory ← copy (← font) programStart program
    return ⟨{ m.restart [] with memory := memory }, [.loaded program.length], .ok ()⟩

/-- Do something to a machine. -/
def apply (m : Machine) : Event → Guarded (Outcome Reply)
  | .load program => return (← load m program).map .loaded
  | .step => return (← step m).map .stepped
  | .run n => return (← run n m).map .ran
  | .key k down => return ⟨{ m with keypad := ← setKey m.keypad k down }, [], .none⟩
  | e => return m.apply e

/-- Let the events of a history happen one after the other. -/
def replay (m : Machine) : List Event → Guarded (Outcome (List Reply))
  | [] => return ⟨m, [], []⟩
  | e :: rest => do
    let first ← apply m e
    let later ← replay first.machine rest
    return ⟨later.machine, first.records ++ later.records, first.answer :: later.answer⟩

/-- Switch a machine on and let a history happen. -/
def play (config : Config) (chance : StreamKey) (history : List Event) : Guarded (Outcome (List Reply)) := do
  replay (← create config chance) history

/-- The first `count` bytes of program memory, two bytes to a line. -/
def dumpMemory (m : Machine) (count : Nat) : Guarded String := do
  let lines ← (Machine.dumpAddresses count).mapM fun a => do
    let high ← read m.memory a
    let low ← read m.memory (a + 1)
    return Hex.numeral 4 a ++ ": " ++ String.ofList (Hex.digits 2 high.toNat) ++
      String.ofList (Hex.digits 2 low.toNat) ++ "\n"
  return String.join lines

end Guarded

end ChipEight
