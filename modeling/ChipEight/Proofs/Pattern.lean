import ChipEight.Isa.Op

/-!
# Bit patterns

The instruction set is a table: each row has a pattern, four hexadecimal digits of which some are
fixed and some carry operands. `Op.pattern` writes an instruction down as its row says, and
`Op.Stands w op` says that the word `w` stands for `op` by that table: it is the pattern of the row
of `op` with these operands, or no row has this pattern and `op` is the unknown instruction.

`decode_eq_some_iff` says that decoding is reading the table, and so that every word but zero
stands for just one instruction.
-/

namespace ChipEight

/-- The digit of an arithmetic rule. -/
def Arith.code : Arith → Nat
  | copy => 0x0
  | or => 0x1
  | and => 0x2
  | xor => 0x3
  | add => 0x4
  | sub => 0x5
  | shiftRight => 0x6
  | subFrom => 0x7
  | shiftLeft => 0xE

theorem Arith.ofCode?_code (rule : Arith) : ofCode? rule.code = some rule := by
  cases rule <;> rfl

theorem Arith.code_of_ofCode? {n : Nat} {rule : Arith} (h : ofCode? n = some rule) :
    rule.code = n := by
  unfold ofCode? at h
  split at h <;> cases h <;> rfl

theorem Arith.code_lt (rule : Arith) : rule.code < 16 := by
  cases rule <;> decide

namespace Op

/-- An instruction written down as its row of the table says. -/
def pattern : Op → Nat
  | system a => a
  | clear => 0x00E0
  | ret => 0x00EE
  | jump a => 0x1000 + a
  | call a => 0x2000 + a
  | skipEqByte x b => 0x3000 + 0x100 * x + b.toNat
  | skipNeByte x b => 0x4000 + 0x100 * x + b.toNat
  | skipEq x y => 0x5000 + 0x100 * x + 0x10 * y
  | loadByte x b => 0x6000 + 0x100 * x + b.toNat
  | addByte x b => 0x7000 + 0x100 * x + b.toNat
  | arith rule x y => 0x8000 + 0x100 * x + 0x10 * y + rule.code
  | skipNe x y => 0x9000 + 0x100 * x + 0x10 * y
  | loadIndex a => 0xA000 + a
  | jumpOffset a => 0xB000 + a
  | random x b => 0xC000 + 0x100 * x + b.toNat
  | draw x y n => 0xD000 + 0x100 * x + 0x10 * y + n
  | skipHeld x => 0xE000 + 0x100 * x + 0x9E
  | skipFree x => 0xE000 + 0x100 * x + 0xA1
  | readDelay x => 0xF000 + 0x100 * x + 0x07
  | awaitKey x => 0xF000 + 0x100 * x + 0x0A
  | setDelay x => 0xF000 + 0x100 * x + 0x15
  | setSound x => 0xF000 + 0x100 * x + 0x18
  | addIndex x => 0xF000 + 0x100 * x + 0x1E
  | glyph x => 0xF000 + 0x100 * x + 0x29
  | decimal x => 0xF000 + 0x100 * x + 0x33
  | save x => 0xF000 + 0x100 * x + 0x55
  | restore x => 0xF000 + 0x100 * x + 0x65
  | unknown w => w.toNat

/-- An instruction that has a row of its own, with operands that fit into it. A routine of the host
is at none of the words that have another meaning. -/
def Listed : Op → Prop
  | system a => a < 0x1000 ∧ a ≠ 0 ∧ a ≠ 0x00E0 ∧ a ≠ 0x00EE
  | jump a | call a | loadIndex a | jumpOffset a => a < 0x1000
  | draw _ _ n => n < 0x10
  | unknown _ => False
  | _ => True

/-- A word stands for an instruction. -/
def Stands (w : Word) (op : Op) : Prop :=
  (op.Listed ∧ op.pattern = w.toNat) ∨
    (op = unknown w ∧ ¬ ∃ row : Op, row.Listed ∧ row.pattern = w.toNat)

/-! ### Reading a pattern -/

/-- The fields of a word from its digits. -/
theorem fields_of_digits {w : Word} {c n : Nat} {x y : Register}
    (h : w.toNat = 0x1000 * c + 0x100 * x + 0x10 * y + n) (hn : n < 0x10) :
    w.family = c ∧ w.x = x ∧ w.y = y ∧ w.n = n := by
  have hx : (x : Nat) < 16 := x.isLt
  have hy : (y : Nat) < 16 := y.isLt
  refine ⟨?_, Fin.ext ?_, Fin.ext ?_, ?_⟩
  · unfold Word.family
    omega
  · unfold Word.x
    dsimp only
    omega
  · unfold Word.y
    dsimp only
    omega
  · unfold Word.n
    omega

/-- The fields of a word that carries a register and a byte. -/
theorem fields_of_byte {w : Word} {c : Nat} {x : Register} {b : UInt8}
    (h : w.toNat = 0x1000 * c + 0x100 * x + b.toNat) : w.family = c ∧ w.x = x ∧ w.byte = b := by
  have hx : (x : Nat) < 16 := x.isLt
  have hb := b.toNat_lt
  refine ⟨?_, Fin.ext ?_, UInt8.toNat_inj.1 ?_⟩
  · unfold Word.family
    omega
  · unfold Word.x
    dsimp only
    omega
  · rw [Word.toNat_byte]
    omega

/-- The fields of a word that carries an address. -/
theorem fields_of_address {w : Word} {c a : Nat} (h : w.toNat = 0x1000 * c + a) (ha : a < 0x1000) :
    w.family = c ∧ w.address = a := by
  unfold Word.family Word.address
  omega

/-- A word from its digits. -/
theorem toNat_eq_digits (w : Word) :
    w.toNat = 0x1000 * w.family + 0x100 * (w.x : Nat) + 0x10 * (w.y : Nat) + w.n := by
  unfold Word.family Word.x Word.y Word.n
  dsimp only
  omega

/-- A word from its first two digits and its byte. -/
theorem toNat_eq_byte (w : Word) :
    w.toNat = 0x1000 * w.family + 0x100 * (w.x : Nat) + w.byte.toNat := by
  rw [Word.toNat_byte]
  unfold Word.family Word.x
  dsimp only
  omega

/-- A word from its first digit and its address. -/
theorem toNat_eq_address (w : Word) : w.toNat = 0x1000 * w.family + w.address := by
  unfold Word.family Word.address
  omega

/-- A row is read back from its pattern. -/
theorem ofWord_of_pattern {op : Op} {w : Word} (listed : op.Listed) (h : op.pattern = w.toNat) :
    ofWord w = op := by
  cases op with
  | system a =>
    obtain ⟨hf, ha⟩ := fields_of_address (w := w) (c := 0) (a := a) (by rw [← h, pattern]; omega) listed.1
    have clear : w ≠ 0x00E0 := by
      rintro rfl
      exact listed.2.2.1 h
    have ret : w ≠ 0x00EE := by
      rintro rfl
      exact listed.2.2.2 h
    simp [ofWord, hf, ha, clear, ret]
  | clear =>
    obtain rfl : w = 0x00E0 := UInt16.toNat_inj.1 h.symm
    rfl
  | ret =>
    obtain rfl : w = 0x00EE := UInt16.toNat_inj.1 h.symm
    rfl
  | jump a =>
    obtain ⟨hf, ha⟩ := fields_of_address (w := w) (c := 1) h.symm listed
    simp [ofWord, hf, ha]
  | call a =>
    obtain ⟨hf, ha⟩ := fields_of_address (w := w) (c := 2) h.symm listed
    simp [ofWord, hf, ha]
  | loadIndex a =>
    obtain ⟨hf, ha⟩ := fields_of_address (w := w) (c := 0xA) h.symm listed
    simp [ofWord, hf, ha]
  | jumpOffset a =>
    obtain ⟨hf, ha⟩ := fields_of_address (w := w) (c := 0xB) h.symm listed
    simp [ofWord, hf, ha]
  | skipEqByte x b =>
    obtain ⟨hf, hx, hb⟩ := fields_of_byte (w := w) (c := 3) h.symm
    simp [ofWord, hf, hx, hb]
  | skipNeByte x b =>
    obtain ⟨hf, hx, hb⟩ := fields_of_byte (w := w) (c := 4) h.symm
    simp [ofWord, hf, hx, hb]
  | loadByte x b =>
    obtain ⟨hf, hx, hb⟩ := fields_of_byte (w := w) (c := 6) h.symm
    simp [ofWord, hf, hx, hb]
  | addByte x b =>
    obtain ⟨hf, hx, hb⟩ := fields_of_byte (w := w) (c := 7) h.symm
    simp [ofWord, hf, hx, hb]
  | random x b =>
    obtain ⟨hf, hx, hb⟩ := fields_of_byte (w := w) (c := 0xC) h.symm
    simp [ofWord, hf, hx, hb]
  | skipEq x y =>
    obtain ⟨hf, hx, hy, hn⟩ := fields_of_digits (w := w) (c := 5) (n := 0) h.symm (by decide)
    simp [ofWord, hf, hx, hy, hn]
  | skipNe x y =>
    obtain ⟨hf, hx, hy, hn⟩ := fields_of_digits (w := w) (c := 9) (n := 0) h.symm (by decide)
    simp [ofWord, hf, hx, hy, hn]
  | arith rule x y =>
    obtain ⟨hf, hx, hy, hn⟩ := fields_of_digits (w := w) (c := 8) h.symm rule.code_lt
    simp [ofWord, hf, hx, hy, hn, Arith.ofCode?_code]
  | draw x y n =>
    obtain ⟨hf, hx, hy, hn⟩ := fields_of_digits (w := w) (c := 0xD) h.symm listed
    simp [ofWord, hf, hx, hy, hn]
  | skipHeld x =>
    obtain ⟨hf, hx, hb⟩ := fields_of_byte (w := w) (c := 0xE) (b := 0x9E) h.symm
    simp [ofWord, hf, ofKeyWord, hx, hb]
  | skipFree x =>
    obtain ⟨hf, hx, hb⟩ := fields_of_byte (w := w) (c := 0xE) (b := 0xA1) h.symm
    simp [ofWord, hf, ofKeyWord, hx, hb]
  | readDelay x =>
    obtain ⟨hf, hx, hb⟩ := fields_of_byte (w := w) (c := 0xF) (b := 0x07) h.symm
    simp [ofWord, hf, ofMiscWord, hx, hb]
  | awaitKey x =>
    obtain ⟨hf, hx, hb⟩ := fields_of_byte (w := w) (c := 0xF) (b := 0x0A) h.symm
    simp [ofWord, hf, ofMiscWord, hx, hb]
  | setDelay x =>
    obtain ⟨hf, hx, hb⟩ := fields_of_byte (w := w) (c := 0xF) (b := 0x15) h.symm
    simp [ofWord, hf, ofMiscWord, hx, hb]
  | setSound x =>
    obtain ⟨hf, hx, hb⟩ := fields_of_byte (w := w) (c := 0xF) (b := 0x18) h.symm
    simp [ofWord, hf, ofMiscWord, hx, hb]
  | addIndex x =>
    obtain ⟨hf, hx, hb⟩ := fields_of_byte (w := w) (c := 0xF) (b := 0x1E) h.symm
    simp [ofWord, hf, ofMiscWord, hx, hb]
  | glyph x =>
    obtain ⟨hf, hx, hb⟩ := fields_of_byte (w := w) (c := 0xF) (b := 0x29) h.symm
    simp [ofWord, hf, ofMiscWord, hx, hb]
  | decimal x =>
    obtain ⟨hf, hx, hb⟩ := fields_of_byte (w := w) (c := 0xF) (b := 0x33) h.symm
    simp [ofWord, hf, ofMiscWord, hx, hb]
  | save x =>
    obtain ⟨hf, hx, hb⟩ := fields_of_byte (w := w) (c := 0xF) (b := 0x55) h.symm
    simp [ofWord, hf, ofMiscWord, hx, hb]
  | restore x =>
    obtain ⟨hf, hx, hb⟩ := fields_of_byte (w := w) (c := 0xF) (b := 0x65) h.symm
    simp [ofWord, hf, ofMiscWord, hx, hb]
  | unknown w => exact listed.elim

theorem pattern_ofKeyWord {w : Word} (hf : w.family = 0xE) :
    ((ofKeyWord w).Listed ∧ (ofKeyWord w).pattern = w.toNat) ∨ ofKeyWord w = unknown w := by
  have hw := toNat_eq_byte w
  rw [hf] at hw
  unfold ofKeyWord
  split
  all_goals first
    | exact Or.inr rfl
    | next hb =>
      rw [hb] at hw
      exact Or.inl ⟨trivial, hw.symm⟩

theorem pattern_ofMiscWord {w : Word} (hf : w.family = 0xF) :
    ((ofMiscWord w).Listed ∧ (ofMiscWord w).pattern = w.toNat) ∨ ofMiscWord w = unknown w := by
  have hw := toNat_eq_byte w
  rw [hf] at hw
  unfold ofMiscWord
  split
  all_goals first
    | exact Or.inr rfl
    | next hb =>
      rw [hb] at hw
      exact Or.inl ⟨trivial, hw.symm⟩

/-- What a word other than zero is decoded to is its row, if it has one. -/
theorem pattern_ofWord {w : Word} (h : w ≠ 0) :
    ((ofWord w).Listed ∧ (ofWord w).pattern = w.toNat) ∨ ofWord w = unknown w := by
  have byDigits := toNat_eq_digits w
  have byByte := toNat_eq_byte w
  have byAddress := toNat_eq_address w
  unfold ofWord
  split
  case h_1 hf =>
    rw [hf] at byAddress
    split
    · next clear => exact Or.inl ⟨trivial, by rw [clear]; rfl⟩
    · split
      · next ret => exact Or.inl ⟨trivial, by rw [ret]; rfl⟩
      · next clear ret =>
        have other : ∀ n : Word, w ≠ n → w.address ≠ n.toNat := by
          intro n hn he
          exact hn (UInt16.toNat_inj.1 (by omega))
        exact Or.inl ⟨⟨w.address_lt, other 0 h, other 0x00E0 clear, other 0x00EE ret⟩,
          by rw [pattern]; omega⟩
  case h_2 hf =>
    rw [hf] at byAddress
    exact Or.inl ⟨w.address_lt, byAddress.symm⟩
  case h_3 hf =>
    rw [hf] at byAddress
    exact Or.inl ⟨w.address_lt, byAddress.symm⟩
  case h_4 hf =>
    rw [hf] at byByte
    exact Or.inl ⟨trivial, byByte.symm⟩
  case h_5 hf =>
    rw [hf] at byByte
    exact Or.inl ⟨trivial, byByte.symm⟩
  case h_6 hf =>
    rw [hf] at byDigits
    split
    · next hn =>
      rw [hn] at byDigits
      exact Or.inl ⟨trivial, byDigits.symm⟩
    · exact Or.inr rfl
  case h_7 hf =>
    rw [hf] at byByte
    exact Or.inl ⟨trivial, byByte.symm⟩
  case h_8 hf =>
    rw [hf] at byByte
    exact Or.inl ⟨trivial, byByte.symm⟩
  case h_9 hf =>
    rw [hf] at byDigits
    split
    · next rule hr =>
      rw [← Arith.code_of_ofCode? hr] at byDigits
      exact Or.inl ⟨trivial, byDigits.symm⟩
    · exact Or.inr rfl
  case h_10 hf =>
    rw [hf] at byDigits
    split
    · next hn =>
      rw [hn] at byDigits
      exact Or.inl ⟨trivial, byDigits.symm⟩
    · exact Or.inr rfl
  case h_11 hf =>
    rw [hf] at byAddress
    exact Or.inl ⟨w.address_lt, byAddress.symm⟩
  case h_12 hf =>
    rw [hf] at byAddress
    exact Or.inl ⟨w.address_lt, byAddress.symm⟩
  case h_13 hf =>
    rw [hf] at byByte
    exact Or.inl ⟨trivial, byByte.symm⟩
  case h_14 hf =>
    rw [hf] at byDigits
    exact Or.inl ⟨Nat.mod_lt _ (by decide), byDigits.symm⟩
  case h_15 hf => exact pattern_ofKeyWord hf
  case h_16 =>
    have bound := w.family_lt
    exact pattern_ofMiscWord (by grind)

/-! ### Decoding is reading the table -/

theorem stands_ofWord {w : Word} (h : w ≠ 0) : Stands w (ofWord w) := by
  rcases pattern_ofWord h with hp | hu
  · exact Or.inl hp
  · refine Or.inr ⟨hu, ?_⟩
    rintro ⟨row, listed, hp⟩
    rw [ofWord_of_pattern listed hp] at hu
    rw [hu] at listed
    exact listed

theorem eq_ofWord_of_stands {w : Word} {op : Op} (h : w ≠ 0) (hs : Stands w op) : op = ofWord w := by
  rcases hs with ⟨listed, hp⟩ | ⟨rfl, hu⟩
  · exact (ofWord_of_pattern listed hp).symm
  · rcases pattern_ofWord h with hp | hw
    · exact absurd ⟨_, hp⟩ hu
    · exact hw.symm

/-- **Decoding is reading the table**: a word other than zero stands for one instruction, the one
that it is decoded to. -/
theorem decode_eq_some_iff {w : Word} {op : Op} : decode w = some op ↔ w ≠ 0 ∧ Stands w op := by
  unfold decode
  split
  · next hz => simp [hz]
  · next hz =>
    rw [Option.some.injEq]
    constructor
    · rintro rfl
      exact ⟨hz, stands_ofWord hz⟩
    · rintro ⟨-, hs⟩
      exact (eq_ofWord_of_stands hz hs).symm

/-- A word is the pattern of what it is decoded to. -/
theorem pattern_of_decode {w : Word} {op : Op} (h : decode w = some op) : op.pattern = w.toNat := by
  rcases (decode_eq_some_iff.1 h).2 with ⟨-, hp⟩ | ⟨rfl, -⟩
  · exact hp
  · rfl

/-- No row has the pattern of the zero word. -/
theorem pattern_ne_zero {op : Op} (listed : op.Listed) : op.pattern ≠ 0 := by
  cases op with
  | system a => exact listed.2.1
  | unknown w => exact listed.elim
  | _ =>
    rw [pattern]
    omega

/-- An instruction with a row of its own is decoded from its pattern, and from nothing else. -/
theorem decode_eq_some_iff_pattern {w : Word} {op : Op} (listed : op.Listed) :
    decode w = some op ↔ op.pattern = w.toNat := by
  rw [decode_eq_some_iff]
  constructor
  · rintro ⟨-, ⟨-, hp⟩ | ⟨rfl, -⟩⟩
    · exact hp
    · exact listed.elim
  · intro hp
    refine ⟨?_, Or.inl ⟨listed, hp⟩⟩
    rintro rfl
    exact pattern_ne_zero listed hp

end Op

end ChipEight
