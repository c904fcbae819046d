/-!
# The keypad

Sixteen keys. The keypad knows which keys are held, and it remembers the last key that
went from released to held until that press is taken or forgotten. Holding a key on, or
letting it go, is no new press.
-/

namespace ChipEight

/-- How many keys there are. -/
abbrev keyCount : Nat := 16

/-- One of the keys `0` to `F`. -/
abbrev Key := Fin keyCount

/-- A number that names no key. -/
structure InvalidKey where
  /-- The number. -/
  value : Nat
  deriving DecidableEq, Repr

/-- What is said about a number that names no key. -/
def InvalidKey.message (e : InvalidKey) : String :=
  "keycode must be in range 0 <= keycode < 16, got " ++ toString e.value

namespace Key

/-- The key with a number. -/
def ofNat? (n : Nat) : Except InvalidKey Key :=
  if h : n < keyCount then .ok ⟨n, h⟩ else .error ⟨n⟩

/-- The key that the low four bits of a byte name. -/
def ofByte (b : UInt8) : Key := ⟨b.toNat % keyCount, Nat.mod_lt _ (by decide)⟩

/-- The number of a key as a byte. -/
def toByte (k : Key) : UInt8 := UInt8.ofNat k

/-- A key as it is written: `k5`, `ka`. -/
def text (k : Key) : String := String.ofList ['k', Nat.digitChar k]

/-- The keys in ascending order. -/
def all : List Key := List.finRange keyCount

end Key

/-- Which keys are held, and the last press that nobody has taken yet. -/
structure Keypad where
  /-- A bit for each key, set while it is held. -/
  held : BitVec keyCount := 0
  /-- The last key to go from released to held. -/
  latched : Option Key := none
  deriving DecidableEq

namespace Keypad

variable (p : Keypad)

/-- The bit of a key. -/
def bit (k : Key) : BitVec keyCount := BitVec.twoPow keyCount k

/-- A key is held. -/
def isHeld (k : Key) : Bool := p.held.getLsbD k

/-- A key goes down or up. Going down is remembered, if the key was up. -/
def set (k : Key) (down : Bool) : Keypad :=
  if down then ⟨p.held ||| bit k, if p.isHeld k then p.latched else some k⟩
  else ⟨p.held &&& ~~~bit k, p.latched⟩

/-- All keys go up, and no press is remembered. -/
def clear : Keypad := ⟨0, none⟩

/-- Forget the last press. -/
def forget : Keypad := { p with latched := none }

/-- The held keys in ascending order. -/
def keys : List Key := Key.all.filter p.isHeld

/-- Some key is held. -/
def any : Bool := p.held ≠ 0

/-- The lowest held key. -/
def first? : Option Key := Key.all.find? p.isHeld

/-- The held keys as a number with a bit for each. -/
def bits : Nat := p.held.toNat

theorem getLsbD_bit (k j : Key) : (bit k).getLsbD j = decide (j = k) := by
  have := j.isLt
  have := k.isLt
  rw [bit, BitVec.getLsbD_twoPow]
  by_cases h : j = k
  · simp [h]
  · have : (k : Nat) ≠ j := fun e => h (Fin.ext e.symm)
    simp [h, this]

/-- Moving one key leaves the others as they are. -/
theorem isHeld_set (k j : Key) (down : Bool) :
    (p.set k down).isHeld j = if j = k then down else p.isHeld j := by
  cases down <;>
    simp only [set, isHeld, Bool.false_eq_true, if_false, if_true, BitVec.getLsbD_and,
      BitVec.getLsbD_or, BitVec.getLsbD_not, getLsbD_bit] <;>
    by_cases h : j = k <;> simp [h]

@[simp] theorem isHeld_clear (j : Key) : clear.isHeld j = false := by simp [clear, isHeld]

/-- A key that goes down is remembered if it was up, and a key that goes up is not. -/
theorem latched_set (k : Key) (down : Bool) :
    (p.set k down).latched = if down = true ∧ p.isHeld k = false then some k else p.latched := by
  cases down <;> cases h : p.isHeld k <;> simp [set, h]

/-- The keys that are held are all that the bits say. -/
theorem held_ext {p q : Keypad} (h : ∀ k, p.isHeld k = q.isHeld k) : p.held = q.held :=
  BitVec.eq_of_getLsbD_eq fun i hi => h ⟨i, hi⟩

end Keypad

end ChipEight
