import ChipEight.Text.Numeral
import Mathlib.Data.Nat.Digits.Defs

/-!
# Decimal numerals

What counts as a decimal numeral is said by `Numeral.Writes`: there may be a plus sign, then there is
at least one digit, and the number has these digits. Zeros in front do no harm. `decimal64_eq_some_iff`
shows that this is what `Numeral.decimal64?` reads, up to the numbers that do not fit into 64 bits.
-/

namespace ChipEight.Numeral

/-- The number that decimal digits stand for, the last of them for the ones. -/
def valueOf (digits : List Char) : Nat := Nat.ofDigits 10 (digits.reverse.map fun c => c.toNat - 48)

/-- A text is a decimal numeral of a number: an optional plus sign and one or more digits. -/
def Writes (s : String) (n : Nat) : Prop :=
  ∃ digits, digits ≠ [] ∧ (∀ c ∈ digits, c.isDigit) ∧
    (s.toList = digits ∨ s.toList = '+' :: digits) ∧ n = valueOf digits

/-! ### Digits -/

/-- The first digit counts for as many tens as digits follow. -/
theorem valueOf_cons (c : Char) (digits : List Char) :
    valueOf (c :: digits) = 10 ^ digits.length * (c.toNat - 48) + valueOf digits := by
  simp [valueOf, Nat.ofDigits_append, Nat.add_comm]

theorem digitOf_ten (c : Char) :
    digitOf? 10 c = if c.isDigit then some (c.toNat - 48) else none := by
  have le (a b : Char) : a ≤ b ↔ a.toNat ≤ b.toNat := Iff.rfl
  have isDigit : c.isDigit = true ↔ 48 ≤ c.toNat ∧ c.toNat ≤ 57 := by
    simp [Char.isDigit, UInt32.le_iff_toNat_le]
  have zero : '0'.toNat = 48 := rfl
  have nine : '9'.toNat = 57 := rfl
  have a : 'a'.toNat = 97 := rfl
  have upperA : 'A'.toNat = 65 := rfl
  simp only [digitOf?, digitValue?, le, Option.filter, isDigit, zero, nine, a, upperA]
  -- letters are worth ten or more
  split_ifs <;> simp <;> omega

theorem readFrom_ten_eq_some_iff {start n : Nat} {cs : List Char} :
    readFrom? 10 start cs = some n ↔
      (∀ c ∈ cs, c.isDigit) ∧ n = 10 ^ cs.length * start + valueOf cs := by
  induction cs generalizing start with
  | nil =>
    simp only [readFrom?, valueOf, Option.some.injEq, List.not_mem_nil, false_imp_iff, implies_true,
      List.length_nil, List.reverse_nil, List.map_nil, Nat.ofDigits_nil, Nat.pow_zero, Nat.one_mul,
      Nat.add_zero, true_and]
    exact eq_comm
  | cons c cs ih =>
    rw [readFrom?, digitOf_ten]
    by_cases digit : c.isDigit
    · simp only [digit, if_true, Option.bind_some, ih, List.forall_mem_cons, true_and,
        valueOf_cons, List.length_cons]
      have place : 10 ^ cs.length * (10 * start + (c.toNat - 48)) =
          10 ^ (cs.length + 1) * start + 10 ^ cs.length * (c.toNat - 48) := by
        rw [Nat.mul_add, ← Nat.mul_assoc, Nat.pow_succ]
      rw [place, Nat.add_assoc]
    · simp [digit]

theorem read_ten_eq_some_iff {n : Nat} {cs : List Char} :
    read? 10 cs = some n ↔ cs ≠ [] ∧ (∀ c ∈ cs, c.isDigit) ∧ n = valueOf cs := by
  cases cs with
  | nil => simp [read?]
  | cons c cs => simp [read?, readFrom_ten_eq_some_iff]

/-- Only the digits of zero begin with a zero. -/
theorem eq_zero_of_head_toDigits {n : Nat} (h : (Nat.toDigits 10 n).head? = some '0') : n = 0 := by
  induction n using Nat.strongRecOn with
  | ind n ih =>
    by_cases small : n < 10
    · have digit : ∀ d < 10, Nat.digitChar d = '0' → d = 0 := by decide
      rw [Nat.toDigits_of_lt_base small] at h
      exact digit n small (Option.some.inj h)
    · have tens : (Nat.toDigits 10 (n / 10)).head? = some '0' := by
        obtain ⟨c, rest, first⟩ := List.exists_cons_of_ne_nil
          (Nat.toDigits_ne_nil : Nat.toDigits 10 (n / 10) ≠ [])
        rw [Nat.toDigits_of_base_le (by decide) (by omega), first] at h
        rwa [first]
      have := ih (n / 10) (by omega) tens
      omega

/-! ### Texts -/

/-- Digits are what is left of a text without its plus sign, if it has one. -/
theorem dropPlus_eq_iff {cs digits : List Char} (h : ∀ c ∈ digits, c.isDigit) :
    dropPlus cs = digits ↔ cs = digits ∨ cs = '+' :: digits := by
  constructor
  · rintro rfl
    unfold dropPlus
    split
    · exact Or.inr rfl
    · exact Or.inl rfl
  · rintro (rfl | rfl)
    · unfold dropPlus
      split
      · exact absurd (h '+' List.mem_cons_self) (by decide)
      · rfl
    · rfl

theorem wide_eq_some_iff {m : Nat} {n : UInt64} : wide? m = some n ↔ m = n.toNat := by
  constructor
  · intro h
    rw [wide?] at h
    split at h
    next fits =>
      cases h
      exact (UInt64.toNat_ofNat_of_lt' fits).symm
    next => cases h
  · rintro rfl
    exact wide_toNat n

/-- **A text is read just if it is a numeral** of a number that fits. -/
theorem decimal64_eq_some_iff {s : String} {n : UInt64} :
    decimal64? s = some n ↔ Writes s n.toNat := by
  simp only [decimal64?, Option.bind_eq_some_iff, read_ten_eq_some_iff, wide_eq_some_iff, Writes]
  constructor
  · rintro ⟨m, ⟨nonempty, digits, value⟩, rfl⟩
    exact ⟨_, nonempty, digits, (dropPlus_eq_iff digits).1 rfl, value⟩
  · rintro ⟨digits, nonempty, all, text, value⟩
    have same := (dropPlus_eq_iff all).2 text
    exact ⟨n.toNat, same ▸ ⟨nonempty, all, value⟩, rfl⟩

/-- What is read are the numerals of the numbers below the bound. -/
theorem exists_decimal64_iff {s : String} :
    (∃ n, decimal64? s = some n) ↔ ∃ n < 2 ^ 64, Writes s n := by
  simp only [decimal64_eq_some_iff]
  constructor
  · rintro ⟨n, h⟩
    exact ⟨n.toNat, n.toNat_lt, h⟩
  · rintro ⟨n, small, h⟩
    exact ⟨UInt64.ofNat n, by rwa [UInt64.toNat_ofNat_of_lt' small]⟩

end ChipEight.Numeral
