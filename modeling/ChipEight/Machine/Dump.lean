import ChipEight.Machine.State

/-!
# Dumps

The program memory, the display and the keys of a machine as text for people to read.
-/

namespace ChipEight

/-! ### Steps along a list -/

/-- The element behind `skip` others, and from there on every `n`-th one. -/
def stepFrom {α : Type} (n : Nat) : Nat → List α → List α
  | _, [] => []
  | 0, a :: rest => a :: stepFrom n (n - 1) rest
  | skip + 1, _ :: rest => stepFrom n skip rest

/-- Every `n`-th element of a list, beginning with the first one. -/
def stepBy {α : Type} (n : Nat) (l : List α) : List α := stepFrom n 0 l

/-- Steps along a range. -/
theorem stepFrom_range' {n : Nat} (hn : 0 < n) (skip s k : Nat) :
    stepFrom n skip (List.range' s k) =
      (List.range ((k + (n - 1) - skip) / n)).map fun i => s + skip + n * i := by
  induction k generalizing skip s with
  | zero =>
    have none : (0 + (n - 1) - skip) / n = 0 := Nat.div_eq_of_lt (by omega)
    rw [none]
    cases skip <;> rfl
  | succ k ih =>
    rw [List.range'_succ]
    cases skip with
    | zero =>
      -- the first element is taken, and the next one comes after `n - 1` others
      have one_more : (k + 1 + (n - 1) - 0) / n = (k + (n - 1) - (n - 1)) / n + 1 := by
        rw [Nat.add_sub_cancel, ← Nat.add_div_right _ hn]
        exact congrArg (· / n) (by omega)
      rw [stepFrom, ih, one_more, List.range_succ_eq_map, List.map_cons, List.map_map]
      refine congrArg (List.cons s) (List.map_congr_left fun i _ => ?_)
      rw [Function.comp_apply, Nat.mul_succ]
      omega
    | succ skip =>
      have same : k + 1 + (n - 1) - (skip + 1) = k + (n - 1) - skip := by omega
      rw [stepFrom, ih, same]
      exact List.map_congr_left fun i _ => by omega

namespace Machine

/-! ### What is shown -/

/-- Two bytes of memory behind their address. -/
def memoryLine (m : Memory) (a : Address) : String :=
  Hex.numeral 4 a ++ ": " ++ String.ofList (Hex.digits 2 (m.get a).toNat) ++
    String.ofList (Hex.digits 2 (m.get (a + 1)).toNat)

/-- The addresses of the lines that show the first `count` bytes of program memory, two bytes to a
line, and none past the end of memory. -/
def dumpAddresses (count : Nat) : List Address :=
  stepBy instructionSize ((List.range' programStart (memorySize - programStart)).take count)

/-- There are half as many lines as bytes, and one more if there is a byte left over. -/
theorem dumpAddresses_eq (count : Nat) :
    dumpAddresses count =
      (List.range ((min count programLimit + 1) / 2)).map fun i => programStart + 2 * i := by
  have taken : (List.range' programStart (memorySize - programStart)).take count =
      List.range' programStart (min count programLimit) := by
    rw [List.range'_eq_map_range, ← List.map_take, List.take_range, ← List.range'_eq_map_range]
    rfl
  rw [dumpAddresses, taken, stepBy, stepFrom_range' (by decide)]
  rfl

/-- The first `count` bytes of program memory, two bytes to a line. -/
def dumpMemory (m : Machine) (count : Nat) : String :=
  String.join ((dumpAddresses count).map fun a => memoryLine m.memory a ++ "\n")

/-- The display, a character for each pixel. -/
def dumpDisplay (m : Machine) : String := m.display.text

/-- The held keys in ascending order; nothing if there are none. -/
def dumpKeys (m : Machine) : String :=
  match m.keypad.keys with
  | [] => ""
  | held => "keys:" ++ String.join (held.map fun k => " " ++ k.text)

end Machine

end ChipEight
