/-!
# Instruction words

An instruction is a sixteen-bit word, kept in memory with its high byte first. Its four
hexadecimal digits are the fields that decoding reads: the class, the registers `x` and
`y`, and the number `n`; the last two digits are also read as a byte and the last three
as an address.
-/

namespace ChipEight

/-- How many registers there are. -/
abbrev registerCount : Nat := 16

/-- There are registers, so that a number names one. -/
instance : @NeZero Nat Zero.ofOfNat0 registerCount := ⟨by decide⟩

/-- One of the registers `V0` to `VF`. -/
abbrev Register := Fin registerCount

/-- A sixteen-bit instruction word. -/
abbrev Word := UInt16

namespace Word

/-- The word whose high and low bytes are given. -/
def ofBytes (high low : UInt8) : Word := UInt16.ofNat (high.toNat * 256 + low.toNat)

theorem toNat_ofBytes (high low : UInt8) :
    (ofBytes high low).toNat = high.toNat * 256 + low.toNat := by
  have h := high.toNat_lt
  have l := low.toNat_lt
  rw [ofBytes, UInt16.toNat_ofNat', Nat.mod_eq_of_lt (by omega)]

/-- A word tells its bytes. -/
theorem ofBytes_inj {high low high' low' : UInt8} (h : ofBytes high low = ofBytes high' low') :
    high = high' ∧ low = low' := by
  have words := congrArg UInt16.toNat h
  rw [toNat_ofBytes, toNat_ofBytes] at words
  have bound := low.toNat_lt
  have bound' := low'.toNat_lt
  exact ⟨UInt8.toNat_inj.1 (by omega), UInt8.toNat_inj.1 (by omega)⟩

theorem ofBytes_eq_zero_iff {high low : UInt8} : ofBytes high low = 0 ↔ high = 0 ∧ low = 0 := by
  rw [← UInt16.toNat_inj, ← UInt8.toNat_inj, ← UInt8.toNat_inj, toNat_ofBytes]
  change high.toNat * 256 + low.toNat = 0 ↔ high.toNat = 0 ∧ low.toNat = 0
  omega

variable (w : Word)

/-- The first digit, which says what family the instruction is of. -/
def family : Nat := w.toNat / 0x1000

/-- The second digit, a register. -/
def x : Register := ⟨w.toNat / 0x100 % 16, Nat.mod_lt _ (by decide)⟩

/-- The third digit, a register. -/
def y : Register := ⟨w.toNat / 0x10 % 16, Nat.mod_lt _ (by decide)⟩

/-- The last digit. -/
def n : Nat := w.toNat % 16

/-- The last two digits. -/
def byte : UInt8 := UInt8.ofNat w.toNat

/-- The last three digits. -/
def address : Nat := w.toNat % 0x1000

theorem family_lt : family w < 16 := by
  have := w.toNat_lt
  unfold family
  omega

@[simp] theorem toNat_byte : (byte w).toNat = w.toNat % 256 := UInt8.toNat_ofNat'

theorem address_lt : address w < 4096 := Nat.mod_lt _ (by decide)

end Word

end ChipEight
