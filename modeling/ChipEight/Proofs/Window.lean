import ChipEight.Memory
import Mathlib.Data.List.GetD

/-!
# Windows of memory

The bytes that are stored from an address on fill a window of memory, which may reach around the
end. `Address.offset a c` says where in a window from `a` the cell `c` is, and `get_store` says
what is in a cell after bytes were stored: the byte at its offset, if the window reaches that far,
and otherwise what was there. `Address.window` lists the cells of a window, which are those with an
offset in it (`mem_window_iff`).
-/

namespace ChipEight

namespace Address

/-- How many cells `c` is after `a`, going on around the end of memory. -/
def offset (a c : Nat) : Nat := (c + memorySize - wrap a) % memorySize

theorem offset_eq_zero_iff {a c : Nat} : offset a c = 0 ↔ wrap a = wrap c := by
  change (c + 4096 - a % 4096) % 4096 = 0 ↔ a % 4096 = c % 4096
  omega

theorem offset_add (a : Nat) {j : Nat} (h : j < memorySize) : offset a (a + j) = j := by
  unfold offset wrap
  unfold memorySize at h ⊢
  omega

/-- A cell further up is as far away as it is further up. -/
theorem offset_of_le {a c : Nat} (h : a ≤ c) (hc : c < memorySize) : offset a c = c - a := by
  unfold offset wrap
  unfold memorySize at hc ⊢
  omega

/-- A cell further down is reached around the end of memory. -/
theorem offset_of_lt {a c : Nat} (h : c < a) (ha : a < memorySize) :
    offset a c = memorySize - a + c := by
  unfold offset wrap
  unfold memorySize at ha ⊢
  omega

/-- From one cell further on, the cell `a` itself is the last one. -/
theorem offset_succ_of_eq_zero {a c : Nat} (h : offset a c = 0) :
    offset (a + 1) c + 1 = memorySize := by
  unfold offset wrap memorySize at *
  omega

/-- From one cell further on, all other cells are nearer by one. -/
theorem offset_succ_of_ne_zero {a c : Nat} (h : offset a c ≠ 0) :
    offset (a + 1) c + 1 = offset a c := by
  unfold offset wrap memorySize at *
  omega

/-- The `n` cells from `a` on. -/
def window (a n : Nat) : List Address := (List.range n).map fun j => wrap (a + j)

theorem mem_window_iff {a n c : Nat} (h : n ≤ memorySize) : wrap c ∈ window a n ↔ offset a c < n := by
  simp only [window, List.mem_map, List.mem_range]
  constructor
  · rintro ⟨j, hj, same⟩
    change (a + j) % 4096 = c % 4096 at same
    have there : offset a c = offset a (a + j) := by
      unfold offset wrap memorySize
      omega
    rw [there, offset_add a (Nat.lt_of_lt_of_le hj h)]
    exact hj
  · intro within
    refine ⟨_, within, ?_⟩
    change (a + (c + 4096 - a % 4096) % 4096) % 4096 = c % 4096
    omega

end Address

namespace Memory

/-- **What is in a cell after a store**: the byte that belongs there, or what was there before. -/
theorem get_store (m : Memory) (a c : Address) {bytes : List UInt8}
    (h : bytes.length ≤ memorySize) :
    (m.store a bytes).get c = bytes.getD (Address.offset a c) (m.get c) := by
  induction bytes generalizing m a with
  | nil => rfl
  | cons b rest ih =>
    rw [List.length_cons] at h
    rw [store, ih (m.set a b) (a + 1) (Nat.le_of_succ_le h), get_set]
    by_cases hz : Address.offset a c = 0
    · have beyond := Address.offset_succ_of_eq_zero hz
      rw [if_pos (Address.offset_eq_zero_iff.1 hz), hz, List.getD_cons_zero]
      rw [List.getD_eq_default _ _ (by omega)]
    · rw [if_neg (mt Address.offset_eq_zero_iff.2 hz), ← Address.offset_succ_of_ne_zero hz,
        List.getD_cons_succ]

/-- A store leaves the cells outside its window alone. -/
theorem get_store_of_notMem (m : Memory) {a c : Address} {bytes : List UInt8}
    (h : bytes.length ≤ memorySize) (outside : Address.wrap c ∉ Address.window a bytes.length) :
    (m.store a bytes).get c = m.get c := by
  rw [Address.mem_window_iff h] at outside
  rw [get_store m a c h, List.getD_eq_default _ _ (Nat.le_of_not_lt outside)]

/-- A byte of a part of memory that was read. -/
theorem getD_read (m : Memory) (a : Address) {n r : Nat} (h : r < n) (b : UInt8) :
    (m.read a n).getD r b = m.get (a + r) := by
  simp [read, List.getD_eq_getElem?_getD, h]

end Memory

end ChipEight
