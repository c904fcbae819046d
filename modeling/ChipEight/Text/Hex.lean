/-!
# Hexadecimal numerals

Addresses, words and bytes are printed in base sixteen with upper-case digits.
`digits w n` writes exactly `w` of them, the low ones of `n`; `numeral w n` writes at
least `w`, and more only when `n` needs them.
-/

namespace ChipEight.Hex

/-- The sixteen digits, each at its own value. -/
def alphabet : List Char :=
  ['0', '1', '2', '3', '4', '5', '6', '7', '8', '9', 'A', 'B', 'C', 'D', 'E', 'F']

/-- The digit that stands for the low four bits of a number. -/
def digit (n : Nat) : Char := alphabet.getD (n % 16) '0'

/-- The low `w` digits of a number, the most significant first. -/
def digits : Nat → Nat → List Char
  | 0, _ => []
  | w + 1, n => digits w (n / 16) ++ [digit n]

@[simp] theorem length_digits (w n : Nat) : (digits w n).length = w := by
  induction w generalizing n with
  | zero => rfl
  | succ w ih => simp [digits, ih]

/-- A number in at least `w` digits: as many as it needs, filled up with zeros. -/
def numeral (w n : Nat) : String := String.ofList (digits (max w (n.log2 / 4 + 1)) n)

/-- A number that fits its width is written in exactly that many digits. -/
theorem numeral_of_lt {w n : Nat} (hw : 0 < w) (h : n < Nat.pow 16 w) :
    numeral w n = String.ofList (digits w n) := by
  have h2 : n.log2 < 4 * w := by
    by_cases hn : n = 0
    · subst hn; simp; omega
    · exact (Nat.log2_lt hn).2 (by rw [Nat.pow_mul]; exact h)
  rw [numeral, Nat.max_eq_left (by omega)]

end ChipEight.Hex
