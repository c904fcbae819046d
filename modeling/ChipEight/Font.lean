import ChipEight.Address

/-!
# The font

Sixteen glyphs, one for each hexadecimal digit, lie one after the other at the start of
memory. A glyph is four pixels wide, kept in the high half of five bytes.
-/

namespace ChipEight.Font

/-- Where the first glyph is. -/
def start : Address := 0

/-- How many rows, and so bytes, a glyph has. -/
def height : Nat := 5

/-- How many glyphs there are. -/
def count : Nat := 16

/-- The rows of all glyphs, from the digit `0` to the digit `F`. -/
def bytes : List UInt8 :=
  [0xF0, 0x90, 0x90, 0x90, 0xF0,
   0x20, 0x60, 0x20, 0x20, 0x70,
   0xF0, 0x10, 0xF0, 0x80, 0xF0,
   0xF0, 0x10, 0xF0, 0x10, 0xF0,
   0x90, 0x90, 0xF0, 0x10, 0x10,
   0xF0, 0x80, 0xF0, 0x10, 0xF0,
   0xF0, 0x80, 0xF0, 0x90, 0xF0,
   0xF0, 0x10, 0x20, 0x40, 0x40,
   0xF0, 0x90, 0xF0, 0x90, 0xF0,
   0xF0, 0x90, 0xF0, 0x10, 0xF0,
   0xF0, 0x90, 0xF0, 0x90, 0x90,
   0xE0, 0x90, 0xE0, 0x90, 0xE0,
   0xF0, 0x80, 0x80, 0x80, 0xF0,
   0xE0, 0x90, 0x90, 0x90, 0xE0,
   0xF0, 0x80, 0xF0, 0x80, 0xF0,
   0xF0, 0x80, 0xF0, 0x80, 0x80]

@[simp] theorem length_bytes : bytes.length = count * height := rfl

/-- Where the glyph of a digit is; only the low four bits of the digit count. -/
def glyphAddress (digit : UInt8) : Address := start + digit.toNat % count * height

theorem glyphAddress_lt (digit : UInt8) : glyphAddress digit < memorySize := by
  change 0 + digit.toNat % 16 * 5 < 4096
  omega

end ChipEight.Font
