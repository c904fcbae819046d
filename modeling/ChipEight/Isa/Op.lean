import ChipEight.Address
import ChipEight.Isa.Word

/-!
# The instruction set

What each word tells the machine to do. `Op.decode` reads a word by its fields: the zero
word is no instruction and ends a program, and a word that fits no row of the instruction
set is an instruction of its own, `Op.unknown`, which the machine passes over.
-/

namespace ChipEight

/-- What an arithmetic instruction computes from its two registers. -/
inductive Arith
  /-- The second register. -/
  | copy
  /-- The bits set in one or the other. -/
  | or
  /-- The bits set in both. -/
  | and
  /-- The bits set in just one. -/
  | xor
  /-- The sum; the flag is the carry. -/
  | add
  /-- The first less the second; the flag says that nothing was borrowed. -/
  | sub
  /-- The first moved one bit down; the flag is the bit that falls out. -/
  | shiftRight
  /-- The second less the first; the flag says that nothing was borrowed. -/
  | subFrom
  /-- The first moved one bit up; the flag is the bit that falls out. -/
  | shiftLeft
  deriving DecidableEq, Repr

namespace Arith

/-- The rule that the last digit of an arithmetic word names. -/
def ofCode? : Nat → Option Arith
  | 0x0 => some copy
  | 0x1 => some or
  | 0x2 => some and
  | 0x3 => some xor
  | 0x4 => some add
  | 0x5 => some sub
  | 0x6 => some shiftRight
  | 0x7 => some subFrom
  | 0xE => some shiftLeft
  | _ => none

/-- The result on two bytes, and the flag where the rule has one. -/
def eval (rule : Arith) (a b : UInt8) : UInt8 × Option UInt8 :=
  match rule with
  | copy => (b, none)
  | or => (a ||| b, none)
  | and => (a &&& b, none)
  | xor => (a ^^^ b, none)
  | add => (a + b, some (decide (255 < a.toNat + b.toNat)).toUInt8)
  | sub => (a - b, some (decide (b ≤ a)).toUInt8)
  | shiftRight => (a / 2, some (a % 2))
  | subFrom => (b - a, some (decide (a ≤ b)).toUInt8)
  | shiftLeft => (a + a, some (a / 128))

end Arith

/-- An instruction, with the operands that its word carries. -/
inductive Op
  /-- `0nnn`: a routine of the host, which does nothing here. -/
  | system (target : Address)
  /-- `00E0`: make the display dark. -/
  | clear
  /-- `00EE`: go back to where the last call came from. -/
  | ret
  /-- `1nnn`: go on at an address. -/
  | jump (target : Address)
  /-- `2nnn`: go on at an address and come back later. -/
  | call (target : Address)
  /-- `3xkk`: skip an instruction if the register holds the byte. -/
  | skipEqByte (x : Register) (byte : UInt8)
  /-- `4xkk`: skip an instruction unless the register holds the byte. -/
  | skipNeByte (x : Register) (byte : UInt8)
  /-- `5xy0`: skip an instruction if two registers agree. -/
  | skipEq (x y : Register)
  /-- `6xkk`: put a byte into a register. -/
  | loadByte (x : Register) (byte : UInt8)
  /-- `7xkk`: add a byte to a register; the flag stays. -/
  | addByte (x : Register) (byte : UInt8)
  /-- `8xyr`: combine two registers by a rule. -/
  | arith (rule : Arith) (x y : Register)
  /-- `9xy0`: skip an instruction unless two registers agree. -/
  | skipNe (x y : Register)
  /-- `Annn`: put an address into the index. -/
  | loadIndex (target : Address)
  /-- `Bnnn`: go on at an address plus register `V0`. -/
  | jumpOffset (target : Address)
  /-- `Cxkk`: put a random byte under a mask into a register. -/
  | random (x : Register) (mask : UInt8)
  /-- `Dxyn`: draw the sprite of `n` rows at the index, at the place that two registers give. -/
  | draw (x y : Register) (height : Nat)
  /-- `Ex9E`: skip an instruction if the key that a register names is held. -/
  | skipHeld (x : Register)
  /-- `ExA1`: skip an instruction unless the key that a register names is held. -/
  | skipFree (x : Register)
  /-- `Fx07`: read the delay timer. -/
  | readDelay (x : Register)
  /-- `Fx0A`: wait for a key to go down and put its number into a register. -/
  | awaitKey (x : Register)
  /-- `Fx15`: set the delay timer. -/
  | setDelay (x : Register)
  /-- `Fx18`: set the sound timer. -/
  | setSound (x : Register)
  /-- `Fx1E`: add a register to the index. -/
  | addIndex (x : Register)
  /-- `Fx29`: point the index at the glyph of a digit. -/
  | glyph (x : Register)
  /-- `Fx33`: store the three decimal digits of a register. -/
  | decimal (x : Register)
  /-- `Fx55`: store the registers up to this one. -/
  | save (x : Register)
  /-- `Fx65`: load the registers up to this one. -/
  | restore (x : Register)
  /-- Any other word. -/
  | unknown (word : Word)
  deriving DecidableEq, Repr

namespace Op

/-- The instructions of family `E`, told apart by the last two digits. -/
def ofKeyWord (w : Word) : Op :=
  match w.byte.toNat with
  | 0x9E => skipHeld w.x
  | 0xA1 => skipFree w.x
  | _ => unknown w

/-- The instructions of family `F`, told apart by the last two digits. -/
def ofMiscWord (w : Word) : Op :=
  match w.byte.toNat with
  | 0x07 => readDelay w.x
  | 0x0A => awaitKey w.x
  | 0x15 => setDelay w.x
  | 0x18 => setSound w.x
  | 0x1E => addIndex w.x
  | 0x29 => glyph w.x
  | 0x33 => decimal w.x
  | 0x55 => save w.x
  | 0x65 => restore w.x
  | _ => unknown w

/-- The instruction a word stands for, the zero word included with the host's routines. -/
def ofWord (w : Word) : Op :=
  match w.family with
  | 0x0 => if w = 0x00E0 then clear else if w = 0x00EE then ret else system w.address
  | 0x1 => jump w.address
  | 0x2 => call w.address
  | 0x3 => skipEqByte w.x w.byte
  | 0x4 => skipNeByte w.x w.byte
  | 0x5 => if w.n = 0 then skipEq w.x w.y else unknown w
  | 0x6 => loadByte w.x w.byte
  | 0x7 => addByte w.x w.byte
  | 0x8 =>
    match Arith.ofCode? w.n with
    | some rule => arith rule w.x w.y
    | none => unknown w
  | 0x9 => if w.n = 0 then skipNe w.x w.y else unknown w
  | 0xA => loadIndex w.address
  | 0xB => jumpOffset w.address
  | 0xC => random w.x w.byte
  | 0xD => draw w.x w.y w.n
  | 0xE => ofKeyWord w
  | _ => ofMiscWord w

/-- The instruction a word stands for; the zero word stands for none. -/
def decode (w : Word) : Option Op := if w = 0 then none else some (ofWord w)

@[simp] theorem decode_zero : decode 0 = none := rfl

theorem decode_eq_none_iff {w : Word} : decode w = none ↔ w = 0 := by
  unfold decode
  split <;> simp [*]

/-- A word outside the instruction set. -/
def isUnknown : Op → Bool
  | unknown _ => true
  | _ => false

end Op

end ChipEight
