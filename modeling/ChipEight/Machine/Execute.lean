import ChipEight.Isa.Op
import ChipEight.Machine.State

/-!
# Executing an instruction

`execute` is the instruction set at work. The program counter has already moved on to
the next instruction when it starts, so that a skip moves it once more and a call keeps
it as the place to return to. The only instructions that can fail are a call and a
return; they leave a machine behind even then, the one that they were given.
-/

namespace ChipEight.Machine

variable (m : Machine)

/-- Put a byte into a register. -/
def put (x : Register) (b : UInt8) : Machine := { m with registers := m.registers.set x b }

/-- Go on at another address. -/
def goto (a : Address) : Machine := { m with pc := a }

/-- Pass over the next instruction if a condition holds. -/
def skipIf (c : Bool) : Machine := if c then m.goto (Address.next m.pc) else m

/-- Put the result of an arithmetic rule into `x`, and then its flag into `VF`, so that the flag
stays where both are the same register. -/
def compute (rule : Arith) (x y : Register) : Machine :=
  let (result, flag) := rule.eval (m.registers.get x) (m.registers.get y)
  match flag with
  | none => m.put x result
  | some f => (m.put x result).put Registers.flag f

/-- Put a random byte under a mask into a register. -/
def randomize (x : Register) (mask : UInt8) : Machine :=
  { m.put x (mask &&& m.generator.peek) with generator := m.generator.advanced }

/-- Draw a sprite at the place that two registers give; the flag reports a collision. -/
def drawSprite (x y : Register) (height : Nat) : Machine :=
  let (display, hit) := m.display.draw (m.registers.get x).toNat (m.registers.get y).toNat
    (m.memory.read m.index height)
  { m.put Registers.flag hit.toUInt8 with display := display }

/-- Store bytes in memory from the index on. -/
def storeAtIndex (bytes : List UInt8) : Machine :=
  { m with memory := m.memory.store m.index bytes }

/-- The three decimal digits of a byte. -/
def decimalDigits (b : UInt8) : List UInt8 := [b / 100, b / 10 % 10, b % 10]

/-- Wait at `address` for a key to go down, and put its number into `x`. When the wait begins, what
was pressed before is forgotten; from then on the instruction repeats until there is a press. -/
def awaitKey (address : Address) (x : Register) : Outcome (Except Fault Unit) :=
  if m.waiting then
    match m.keypad.latched with
    | some k =>
      ⟨{ m.put x k.toByte with keypad := m.keypad.forget, waiting := false }, [.resumed k], .ok ()⟩
    | none => ⟨m.goto address, [], .ok ()⟩
  else
    ⟨{ m.goto address with keypad := m.keypad.forget, waiting := true }, [.waiting address], .ok ()⟩

/-- Do what an instruction says, which was found at `address`. -/
def execute (address : Address) : Op → Outcome (Except Fault Unit)
  | .system _ => ⟨m, [], .ok ()⟩
  | .clear => ⟨{ m with display := Display.dark }, [], .ok ()⟩
  | .ret =>
    match m.stack with
    | [] => ⟨m, [], .error (.stackUnderflow address)⟩
    | a :: rest => ⟨{ m with pc := a, stack := rest }, [], .ok ()⟩
  | .jump a => ⟨m.goto a, [], .ok ()⟩
  | .call a =>
    if m.stack.length < stackLimit then ⟨{ m with pc := a, stack := m.pc :: m.stack }, [], .ok ()⟩
    else ⟨m, [], .error (.stackOverflow address)⟩
  | .skipEqByte x b => ⟨m.skipIf (m.registers.get x = b), [], .ok ()⟩
  | .skipNeByte x b => ⟨m.skipIf (m.registers.get x ≠ b), [], .ok ()⟩
  | .skipEq x y => ⟨m.skipIf (m.registers.get x = m.registers.get y), [], .ok ()⟩
  | .loadByte x b => ⟨m.put x b, [], .ok ()⟩
  | .addByte x b => ⟨m.put x (m.registers.get x + b), [], .ok ()⟩
  | .arith rule x y => ⟨m.compute rule x y, [], .ok ()⟩
  | .skipNe x y => ⟨m.skipIf (m.registers.get x ≠ m.registers.get y), [], .ok ()⟩
  | .loadIndex a => ⟨{ m with index := a }, [], .ok ()⟩
  | .jumpOffset a => ⟨m.goto (Address.wrap (a + (m.registers.get 0).toNat)), [], .ok ()⟩
  | .random x mask => ⟨m.randomize x mask, [], .ok ()⟩
  | .draw x y height => ⟨m.drawSprite x y height, [], .ok ()⟩
  | .skipHeld x => ⟨m.skipIf (m.keypad.isHeld (Key.ofByte (m.registers.get x))), [], .ok ()⟩
  | .skipFree x => ⟨m.skipIf (!m.keypad.isHeld (Key.ofByte (m.registers.get x))), [], .ok ()⟩
  | .readDelay x => ⟨m.put x m.timers.delay, [], .ok ()⟩
  | .awaitKey x => m.awaitKey address x
  | .setDelay x => ⟨{ m with timers := { m.timers with delay := m.registers.get x } }, [], .ok ()⟩
  | .setSound x => ⟨{ m with timers := { m.timers with sound := m.registers.get x } }, [], .ok ()⟩
  | .addIndex x => ⟨{ m with index := Address.wrap (m.index + (m.registers.get x).toNat) }, [], .ok ()⟩
  | .glyph x => ⟨{ m with index := Font.glyphAddress (m.registers.get x) }, [], .ok ()⟩
  | .decimal x => ⟨m.storeAtIndex (decimalDigits (m.registers.get x)), [], .ok ()⟩
  | .save x => ⟨m.storeAtIndex (m.registers.upTo x), [], .ok ()⟩
  | .restore x =>
    ⟨{ m with registers := m.registers.replaceUpTo x fun y => m.memory.get (m.index + y) }, [], .ok ()⟩
  | .unknown w => ⟨m, [.unknown w address], .ok ()⟩

end ChipEight.Machine
