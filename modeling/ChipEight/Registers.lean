import ChipEight.Isa.Word

/-!
# Registers

Sixteen registers of one byte each. The last one, `VF`, doubles as the flag of the
arithmetic and drawing instructions.
-/

namespace ChipEight

/-- The contents of the registers. -/
structure Registers where
  /-- The byte of each register. -/
  cells : Vector UInt8 registerCount
  deriving DecidableEq

namespace Registers

/-- The register that takes carries, borrows and collisions. -/
def flag : Register := 15

/-- All registers at zero. -/
def zero : Registers := ⟨Vector.replicate registerCount 0⟩

/-- The byte in a register. -/
def get (r : Registers) (x : Register) : UInt8 := r.cells[x]

/-- The registers with another byte in one of them. -/
def set (r : Registers) (x : Register) (b : UInt8) : Registers := ⟨r.cells.set x b⟩

/-- The bytes of the registers, from `V0` on. -/
def bytes (r : Registers) : List UInt8 := (List.finRange 16).map r.get

/-- The bytes of the registers up to and with `x`. -/
def upTo (r : Registers) (x : Register) : List UInt8 := r.bytes.take (x + 1)

/-- The registers up to and with `x` take new bytes, the others stay. -/
def replaceUpTo (r : Registers) (x : Register) (f : Register → UInt8) : Registers :=
  ⟨Vector.ofFn fun y => if y ≤ x then f y else r.get y⟩

@[ext] theorem ext {r s : Registers} (h : ∀ x, r.get x = s.get x) : r = s := by
  obtain ⟨r⟩ := r
  obtain ⟨s⟩ := s
  exact congrArg Registers.mk (Vector.ext fun i hi => h ⟨i, hi⟩)

@[simp] theorem get_zero (x : Register) : zero.get x = 0 := by simp [zero, get]

theorem get_set (r : Registers) (x y : Register) (b : UInt8) :
    (r.set x b).get y = if x = y then b else r.get y := by
  simp [get, set, Vector.getElem_set, Fin.ext_iff]

@[simp] theorem get_replaceUpTo (r : Registers) (x y : Register) (f : Register → UInt8) :
    (r.replaceUpTo x f).get y = if y ≤ x then f y else r.get y := by
  simp [replaceUpTo, get]

@[simp] theorem length_bytes (r : Registers) : r.bytes.length = 16 := by simp [bytes]

end Registers

end ChipEight
