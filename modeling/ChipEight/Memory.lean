import ChipEight.Font
import ChipEight.Isa.Word

/-!
# Memory

Memory is 4096 bytes. Every access wraps its address, so that none falls outside. The
laws below say what `get` reads after `set` and after `store`.
-/

namespace ChipEight

/-- The contents of memory. -/
structure Memory where
  /-- The byte of each cell. -/
  cells : Vector UInt8 memorySize
  deriving DecidableEq

namespace Memory

/-- The byte in a cell. -/
def get (m : Memory) (a : Address) : UInt8 := m.cells[Address.cell a]

/-- Memory with another byte in a cell. -/
def set (m : Memory) (a : Address) (b : UInt8) : Memory :=
  ⟨m.cells.set (Address.cell a) b⟩

/-- Memory with bytes stored one after the other from an address on. -/
def store (m : Memory) (a : Address) : List UInt8 → Memory
  | [] => m
  | b :: rest => (m.set a b).store (a + 1) rest

/-- The `n` bytes from an address on. -/
def read (m : Memory) (a : Address) (n : Nat) : List UInt8 :=
  (List.range n).map fun i => m.get (a + i)

/-- The word whose high byte is at an address. -/
def fetch (m : Memory) (a : Address) : Word := Word.ofBytes (m.get a) (m.get (a + 1))

/-- The bytes of memory with a program in place: the font, then zeros up to the program, then zeros
to the end. Of a program that is too long, the part that fits. -/
def image (program : List UInt8) : List UInt8 :=
  Font.bytes ++ List.replicate (programStart - Font.bytes.length) 0 ++
    (program.take programLimit ++ List.replicate (programLimit - program.length) 0)

theorem length_image (program : List UInt8) : (image program).length = memorySize := by
  simp only [image, List.length_append, List.length_replicate, List.length_take, Font.length_bytes,
    Font.count, Font.height, programStart, programLimit, memorySize]
  omega

/-- Memory with the font and a program, and nothing else. -/
def ofProgram (program : List UInt8) : Memory :=
  ⟨⟨(image program).toArray, by simp [length_image]⟩⟩

/-- Memory with the font only. -/
def blank : Memory := ofProgram []

/-! ### What is read after a write -/

@[ext] theorem ext {m n : Memory} (h : ∀ a < memorySize, m.get a = n.get a) : m = n := by
  obtain ⟨m⟩ := m
  obtain ⟨n⟩ := n
  refine congrArg Memory.mk (Vector.ext fun i hi => ?_)
  have at_i := h i hi
  simpa [get, Address.wrap_of_lt hi] using at_i

@[simp] theorem get_wrap (m : Memory) (a : Nat) : m.get (Address.wrap a) = m.get a := by
  simp [get]

theorem get_congr (m : Memory) {a c : Nat} (h : Address.wrap a = Address.wrap c) : m.get a = m.get c := by
  rw [← get_wrap, h, get_wrap]

theorem get_set (m : Memory) (a c : Address) (b : UInt8) :
    (m.set a b).get c = if Address.wrap a = Address.wrap c then b else m.get c := by
  simp [get, set, Vector.getElem_set]

theorem get_ofProgram (program : List UInt8) (a : Address) :
    (ofProgram program).get a = (image program).getD (Address.wrap a) 0 := by
  have := Address.wrap_lt a
  simp [ofProgram, get, length_image, this]

@[simp] theorem length_read (m : Memory) (a : Address) (n : Nat) : (m.read a n).length = n := by
  simp [read]

end Memory

end ChipEight
