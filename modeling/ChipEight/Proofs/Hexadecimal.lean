import ChipEight.Isa.Word
import ChipEight.Text.Hex
import ChipEight.Text.Numeral
import Mathlib.Data.List.GetD

/-!
# Hexadecimal numerals are read back

What `Hex.digits` writes is read by `Numeral.read?` in base sixteen: a number that fits into the
digits comes back, and so do bytes that are written with two digits each.
-/

namespace ChipEight

/-! ### Digits -/

theorem Hex.digit_mem (n : Nat) : digit n ∈ alphabet := by
  have small : n % 16 < alphabet.length := Nat.mod_lt _ (by decide)
  rw [digit, List.getD_eq_getElem _ _ small]
  exact List.getElem_mem small

theorem Hex.mem_alphabet {w n : Nat} {c : Char} (h : c ∈ digits w n) : c ∈ alphabet := by
  induction w generalizing n with
  | zero => cases h
  | succ w ih =>
    rcases List.mem_append.1 h with h | h
    · exact ih h
    · rw [List.mem_singleton.1 h]
      exact digit_mem n

/-- The digits of a number are the digits of its high part and those of its low part. -/
theorem Hex.digits_add (v w n : Nat) : digits (v + w) n = digits v (n / Nat.pow 16 w) ++ digits w n := by
  induction w generalizing n with
  | zero => simp [digits]
  | succ w ih =>
    have shift : n / 16 / Nat.pow 16 w = n / Nat.pow 16 (w + 1) := by
      rw [Nat.div_div_eq_div_mul, Nat.mul_comm]
      rfl
    rw [Nat.add_succ, digits, ih, shift, List.append_assoc]
    rfl

/-- Every digit is worth what it was written for. -/
theorem Numeral.digitOf_digit (n : Nat) : digitOf? 16 (Hex.digit n) = some (n % 16) := by
  have each : ∀ k < 16, digitOf? 16 (Hex.alphabet.getD k '0') = some k := by decide
  exact each _ (Nat.mod_lt _ (by decide))

theorem Numeral.readFrom_digits (w n start : Nat) :
    readFrom? 16 start (Hex.digits w n) = some (Nat.pow 16 w * start + n % Nat.pow 16 w) := by
  induction w generalizing n with
  | zero => simp [Hex.digits, readFrom?, Nat.mod_one]
  | succ w ih =>
    rw [Hex.digits, readFrom_append, ih]
    simp only [Option.bind_some, readFrom?, digitOf_digit, Option.some.injEq]
    -- the last digit is the low part, and what was read before it the high part
    have power : Nat.pow 16 (w + 1) = 16 * Nat.pow 16 w := Nat.mul_comm _ _
    rw [power, Nat.mod_mul, Nat.mul_assoc, Nat.mul_add]
    omega

/-- A number that fits is read back from its digits. -/
theorem Numeral.read_digits {w n : Nat} (h : n < Nat.pow 16 (w + 1)) :
    read? 16 (Hex.digits (w + 1) n) = some n := by
  have digits := readFrom_digits (w + 1) n 0
  rw [Nat.mul_zero, Nat.zero_add, Nat.mod_eq_of_lt h] at digits
  have length := Hex.length_digits (w + 1) n
  generalize Hex.digits (w + 1) n = cs at digits length
  cases cs with
  | nil => cases length
  | cons c rest => exact digits

/-- A number is read back from its numeral, however many digits it needs. -/
theorem Numeral.read_numeral (w n : Nat) : read? 16 (Hex.numeral w n).toList = some n := by
  obtain ⟨k, hk⟩ : ∃ k, max w (n.log2 / 4 + 1) = k + 1 := Nat.exists_eq_succ_of_ne_zero (by omega)
  have fits : n < Nat.pow 16 (k + 1) :=
    calc n < 2 ^ (n.log2 + 1) := Nat.lt_log2_self
      _ ≤ 2 ^ (4 * (k + 1)) := Nat.pow_le_pow_right (by decide) (by omega)
      _ = Nat.pow 16 (k + 1) := Nat.pow_mul 2 4 (k + 1)
  rw [Hex.numeral, String.toList_ofList, hk]
  exact read_digits fits

theorem Hex.numeral_inj {w a b : Nat} (h : numeral w a = numeral w b) : a = b := by
  have read := Numeral.read_numeral w a
  rw [h, Numeral.read_numeral, Option.some.injEq] at read
  exact read.symm

/-! ### Bytes -/

/-- The bytes that pairs of digits stand for. -/
def Hex.bytes? : List Char → Option (List UInt8)
  | [] => some []
  | [_] => none
  | high :: low :: rest =>
    (Numeral.read? 16 [high, low]).bind fun n => (bytes? rest).map (UInt8.ofNat n :: ·)

/-- Bytes are read back from two digits each. -/
theorem Hex.bytes_digits (bytes : List UInt8) :
    bytes? (bytes.flatMap fun b => digits 2 b.toNat) = some bytes := by
  induction bytes with
  | nil => rfl
  | cons b rest ih =>
    have read : Numeral.read? 16 [digit (b.toNat / 16), digit b.toNat] = some b.toNat :=
      Numeral.read_digits (w := 1) b.toNat_lt
    change bytes? (digit (b.toNat / 16) :: digit b.toNat :: rest.flatMap _) = _
    rw [bytes?, read, ih]
    simp

/-- A word is written as its two bytes. -/
theorem Hex.digits_ofBytes (high low : UInt8) :
    digits 4 (Word.ofBytes high low).toNat = digits 2 high.toNat ++ digits 2 low.toNat := by
  have l := low.toNat_lt
  have low_digits : digits 2 (high.toNat * 256 + low.toNat) = digits 2 low.toNat := by
    have tens : (high.toNat * 256 + low.toNat) / 16 % 16 = low.toNat / 16 % 16 := by omega
    have ones : (high.toNat * 256 + low.toNat) % 16 = low.toNat % 16 := by omega
    simp [digits, digit, tens, ones]
  rw [Word.toNat_ofBytes, digits_add 2 2, low_digits]
  have high_part : (high.toNat * 256 + low.toNat) / Nat.pow 16 2 = high.toNat := by
    change (high.toNat * 256 + low.toNat) / 256 = _
    omega
  rw [high_part]

end ChipEight
