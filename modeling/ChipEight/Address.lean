/-!
# Addresses

Memory has 4096 cells and addresses wrap around its end. Programs start at `0x200`; the
cells below belong to the interpreter, which keeps its font there. Instructions are two
cells wide.
-/

namespace ChipEight

/-- The number of a memory cell. Every address the machine uses is below `memorySize`. -/
abbrev Address := Nat

/-- How many cells memory has. -/
def memorySize : Nat := 4096

/-- Where programs are placed. -/
def programStart : Address := 0x200

/-- How many bytes fit between `programStart` and the end of memory. -/
def programLimit : Nat := memorySize - programStart

/-- How many cells an instruction takes. -/
def instructionSize : Nat := 2

namespace Address

/-- Addresses count modulo the size of memory. -/
def wrap (n : Nat) : Address := n % memorySize

/-- The address of the instruction after the one at `a`. -/
def next (a : Address) : Address := wrap (a + instructionSize)

theorem wrap_lt (n : Nat) : wrap n < memorySize := Nat.mod_lt _ (by decide)

theorem wrap_of_lt {n : Nat} (h : n < memorySize) : wrap n = n := Nat.mod_eq_of_lt h

theorem next_lt (a : Address) : next a < memorySize := wrap_lt _

/-- A wrapped address as the number of a cell. -/
def cell (n : Nat) : Fin memorySize := ⟨wrap n, wrap_lt n⟩

@[simp] theorem val_cell (n : Nat) : (cell n).val = wrap n := rfl

@[simp] theorem wrap_wrap (n : Nat) : wrap (wrap n) = wrap n := Nat.mod_mod _ _

end Address

end ChipEight
