import ChipEight.Isa.Assembly

/-!
# Program listings

A listing shows a program two bytes a line, each word at the address where it would be
loaded. Every word is read as an instruction, since code and data cannot be told apart
without running the program; zero words and an odd last byte are marked as such.
-/

namespace ChipEight

/-- One line of a listing. -/
inductive ListingLine
  /-- A word that stands for an instruction. -/
  | code (instruction : Instruction)
  /-- The zero word. -/
  | zero (address : Address)
  /-- The last byte of a program of odd length. -/
  | data (address : Address) (byte : UInt8)
  deriving DecidableEq, Repr

namespace ListingLine

/-- The line for a word at an address. -/
def ofWord (a : Address) (w : Word) : ListingLine :=
  match Op.decode w with
  | some op => code ⟨a, w, op⟩
  | none => zero a

/-- A line as it is printed. -/
def text : ListingLine → String
  | code i => i.text
  | zero a => columns a 0 ++ "; zero"
  | data a b =>
    "0x" ++ Hex.numeral 4 a ++ "  " ++ String.ofList (Hex.digits 2 b.toNat) ++ "    ; data"

end ListingLine

namespace Listing

/-- The lines for bytes that begin at an address. A program longer than memory wraps around the end
of it. -/
def lines : Address → List UInt8 → List ListingLine
  | _, [] => []
  | a, [b] => [.data (Address.wrap a) b]
  | a, high :: low :: rest =>
    .ofWord (Address.wrap a) (Word.ofBytes high low) :: lines (a + instructionSize) rest

/-- The listing of a program. -/
def ofProgram (program : List UInt8) : List ListingLine := lines programStart program

/-- The listing of a program as text, each line closed by a line break. -/
def text (program : List UInt8) : String :=
  String.join ((ofProgram program).map fun l => l.text ++ "\n")

end Listing

end ChipEight
