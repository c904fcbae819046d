import ChipEight.Isa.Op
import ChipEight.Text.Hex

/-!
# Assembly text

The written form of an instruction is a mnemonic and its operands: `LD V0, 0x05`. A word
outside the instruction set is written as itself. `Instruction.text` puts the address and
the word in front, as program listings do.
-/

namespace ChipEight

/-- What an instruction works on, as it is written. -/
inductive Operand
  /-- A register: `VA`. -/
  | register (x : Register)
  /-- A byte: `0x42`. -/
  | byte (b : UInt8)
  /-- An address: `0x2F0`. -/
  | address (a : Address)
  /-- A small number, in decimal: the height of a sprite. -/
  | count (n : Nat)
  /-- The index: `I`. -/
  | index
  /-- The cells that the index points at: `[I]`. -/
  | indexed
  /-- The delay timer: `DT`. -/
  | delay
  /-- The sound timer: `ST`. -/
  | sound
  /-- The next key to go down: `K`. -/
  | key
  /-- The glyph of a digit: `F`. -/
  | glyph
  /-- The decimal digits of a byte: `B`. -/
  | decimal
  deriving DecidableEq, Repr

/-- An operand as it is written. -/
def Operand.text : Operand → String
  | register x => String.ofList ['V', Hex.digit x]
  | byte b => "0x" ++ String.ofList (Hex.digits 2 b.toNat)
  | address a => "0x" ++ Hex.numeral 3 a
  | count n => toString n
  | index => "I"
  | indexed => "[I]"
  | delay => "DT"
  | sound => "ST"
  | key => "K"
  | glyph => "F"
  | decimal => "B"

/-- A mnemonic and its operands. -/
structure Assembly where
  /-- What is done. -/
  mnemonic : String
  /-- What it is done to. -/
  operands : List Operand
  deriving DecidableEq, Repr

/-- Operands follow the mnemonic after a blank, with commas between them. -/
def Assembly.text (a : Assembly) : String :=
  match a.operands with
  | [] => a.mnemonic
  | first :: rest =>
    a.mnemonic ++ " " ++ first.text ++ String.join (rest.map fun o => ", " ++ o.text)

/-- The mnemonic of an arithmetic rule. -/
def Arith.mnemonic : Arith → String
  | copy => "LD"
  | or => "OR"
  | and => "AND"
  | xor => "XOR"
  | add => "ADD"
  | sub => "SUB"
  | shiftRight => "SHR"
  | subFrom => "SUBN"
  | shiftLeft => "SHL"

/-- Shifts move their first register and do not show the second. -/
def Arith.operands (rule : Arith) (x y : Register) : List Operand :=
  match rule with
  | shiftRight | shiftLeft => [.register x]
  | _ => [.register x, .register y]

/-- The written form of an instruction. -/
def Op.assembly : Op → Assembly
  | system a => ⟨"SYS", [.address a]⟩
  | clear => ⟨"CLS", []⟩
  | ret => ⟨"RET", []⟩
  | jump a => ⟨"JP", [.address a]⟩
  | call a => ⟨"CALL", [.address a]⟩
  | skipEqByte x b => ⟨"SE", [.register x, .byte b]⟩
  | skipNeByte x b => ⟨"SNE", [.register x, .byte b]⟩
  | skipEq x y => ⟨"SE", [.register x, .register y]⟩
  | loadByte x b => ⟨"LD", [.register x, .byte b]⟩
  | addByte x b => ⟨"ADD", [.register x, .byte b]⟩
  | arith rule x y => ⟨rule.mnemonic, rule.operands x y⟩
  | skipNe x y => ⟨"SNE", [.register x, .register y]⟩
  | loadIndex a => ⟨"LD", [.index, .address a]⟩
  | jumpOffset a => ⟨"JP", [.register 0, .address a]⟩
  | random x b => ⟨"RND", [.register x, .byte b]⟩
  | draw x y n => ⟨"DRW", [.register x, .register y, .count n]⟩
  | skipHeld x => ⟨"SKP", [.register x]⟩
  | skipFree x => ⟨"SKNP", [.register x]⟩
  | readDelay x => ⟨"LD", [.register x, .delay]⟩
  | awaitKey x => ⟨"LD", [.register x, .key]⟩
  | setDelay x => ⟨"LD", [.delay, .register x]⟩
  | setSound x => ⟨"LD", [.sound, .register x]⟩
  | addIndex x => ⟨"ADD", [.index, .register x]⟩
  | glyph x => ⟨"LD", [.glyph, .register x]⟩
  | decimal x => ⟨"LD", [.decimal, .register x]⟩
  | save x => ⟨"LD", [.indexed, .register x]⟩
  | restore x => ⟨"LD", [.register x, .indexed]⟩
  | unknown w => ⟨"0x" ++ String.ofList (Hex.digits 4 w.toNat), []⟩

/-- An instruction found in memory: where it is, its word, and what it says. -/
structure Instruction where
  /-- The address of its first byte. -/
  address : Address
  /-- The word there. -/
  word : Word
  /-- The instruction that the word stands for. -/
  op : Op
  deriving DecidableEq, Repr

/-- The columns with which a line of a listing begins: the address and the word. -/
def columns (a : Address) (w : Word) : String :=
  "0x" ++ Hex.numeral 4 a ++ "  " ++ String.ofList (Hex.digits 4 w.toNat) ++ "  "

/-- An instruction with its address and word in front. -/
def Instruction.text (i : Instruction) : String :=
  columns i.address i.word ++ i.op.assembly.text

end ChipEight
