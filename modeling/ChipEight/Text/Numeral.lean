/-!
# Numerals

Reading unsigned numbers in a base up to sixteen. A numeral has at least one digit and
nothing else in it; there is no sign, no blank and no separator. `wide?` keeps the
numbers that fit into 64 bits.
-/

namespace ChipEight.Numeral

/-- What a character is worth as a digit; letters of either case follow the nine. -/
def digitValue? (c : Char) : Option Nat :=
  if '0' ≤ c ∧ c ≤ '9' then some (c.toNat - 48)
  else if 'a' ≤ c ∧ c ≤ 'f' then some (c.toNat - 87)
  else if 'A' ≤ c ∧ c ≤ 'F' then some (c.toNat - 55)
  else none

/-- What a character is worth as a digit of a base. -/
def digitOf? (base : Nat) (c : Char) : Option Nat :=
  (digitValue? c).filter fun v => decide (v < base)

/-- The number that digits stand for, after a number that the digits before them stood for. -/
def readFrom? (base : Nat) (start : Nat) : List Char → Option Nat
  | [] => some start
  | c :: rest => (digitOf? base c).bind fun v => readFrom? base (base * start + v) rest

/-- The number that a numeral stands for. -/
def read? (base : Nat) : List Char → Option Nat
  | [] => none
  | c :: rest => readFrom? base 0 (c :: rest)

/-- A number as 64 bits, if it fits. -/
def wide? (n : Nat) : Option UInt64 := if n < UInt64.size then some (UInt64.ofNat n) else none

/-- Without one plus sign in front. -/
def dropPlus : List Char → List Char
  | '+' :: rest => rest
  | cs => cs

/-- A decimal numeral that fits into 64 bits, with or without a plus sign. -/
def decimal64? (s : String) : Option UInt64 := (read? 10 (dropPlus s.toList)).bind wide?

/-! ### Reading what was written -/

theorem digitOf_digitChar {n : Nat} (h : n < 10) : digitOf? 10 n.digitChar = some n := by
  revert n
  decide

theorem readFrom_append (base start : Nat) (s t : List Char) :
    readFrom? base start (s ++ t) = (readFrom? base start s).bind fun n => readFrom? base n t := by
  induction s generalizing start with
  | nil => rfl
  | cons c s ih =>
    simp only [List.cons_append, readFrom?]
    cases digitOf? base c <;> simp [ih]

theorem readFrom_toDigits (n : Nat) : readFrom? 10 0 (Nat.toDigits 10 n) = some n := by
  induction n using Nat.strongRecOn with
  | ind n ih =>
    by_cases h : n < 10
    · simp [Nat.toDigits_of_lt_base h, readFrom?, digitOf_digitChar h]
    · have digit : n % 10 < 10 := Nat.mod_lt _ (by decide)
      rw [Nat.toDigits_of_base_le (by decide) (by omega), readFrom_append, ih (n / 10) (by omega)]
      simp only [Option.bind_some, readFrom?, digitOf_digitChar digit]
      congr 1
      omega

/-- A number is read back from its decimal digits. -/
theorem read_toDigits (n : Nat) : read? 10 (Nat.toDigits 10 n) = some n := by
  have nonempty : Nat.toDigits 10 n ≠ [] := Nat.toDigits_ne_nil
  have h := readFrom_toDigits n
  generalize Nat.toDigits 10 n = digits at nonempty h
  cases digits with
  | nil => exact absurd rfl nonempty
  | cons c rest => exact h

theorem wide_toNat (n : UInt64) : wide? n.toNat = some n := by
  simp [wide?, n.toNat_lt]

end ChipEight.Numeral
