import ChipEight.Isa.Assembly
import ChipEight.Proofs.Hexadecimal
import ChipEight.Proofs.Pattern
import ChipEight.Text.Split

/-!
# Assembly text is read back

Here is a reader for what `Assembly.text` writes. Blanks separate the mnemonic and the operands, and
commas are passed over (`Assembly.tokens`); an operand is told by its first letters; and mnemonic and
operands together tell the instruction (`Op.ofAssembly?`). `ofText?_text` says that every decoded
instruction is read back from its text, but for the second register of a shift, which the text does
not show. So the text tells the word, up to that register (`eq_or_shift_of_text_eq`).
-/

namespace ChipEight

/-! ### Characters -/

/-- A character that mnemonics and operands are made of: none that separates them, sets a remark apart
or ends the line. -/
def IsSolid (c : Char) : Prop := c ≠ ' ' ∧ c ≠ ',' ∧ c ≠ ';' ∧ c ≠ '\n'

instance (c : Char) : Decidable (IsSolid c) := inferInstanceAs (Decidable (_ ∧ _ ∧ _ ∧ _))

theorem IsSolid.ne {c s : Char} (h : IsSolid c) (hs : ¬IsSolid s) : c ≠ s := by
  rintro rfl
  exact hs h

theorem IsSolid.of_all {cs : List Char} (h : cs.all (fun c => decide (IsSolid c)) = true) {c : Char}
    (hc : c ∈ cs) : IsSolid c :=
  of_decide_eq_true (List.all_eq_true.1 h c hc)

theorem IsSolid.of_hex {c : Char} (h : c ∈ Hex.alphabet) : IsSolid c := .of_all (by decide) h

theorem IsSolid.of_digits {w n : Nat} {c : Char} (h : c ∈ Hex.digits w n) : IsSolid c :=
  .of_hex (Hex.mem_alphabet h)

theorem IsSolid.of_decimal {n : Nat} {c : Char} (h : c ∈ Nat.toDigits 10 n) : IsSolid c := by
  have digit := Nat.isDigit_of_mem_toDigits (by decide) (by decide) h
  refine ⟨?_, ?_, ?_, ?_⟩ <;> rintro rfl <;> cases digit

/-- Where each thing is read back from how it is written, so are many of them. -/
theorem mapM_of_inverse {α β : Type} {write : α → β} {read : β → Option α} {as : List α}
    (inverse : ∀ a ∈ as, read (write a) = some a) : (as.map write).mapM read = some as := by
  induction as with
  | nil => rfl
  | cons a as ih =>
    rw [List.map_cons, List.mapM_cons, inverse a (by simp), ih fun b hb => inverse b (by simp [hb])]
    rfl

/-! ### Operands -/

namespace Operand

theorem isSolid {o : Operand} {c : Char} (h : c ∈ o.text.toList) : IsSolid c := by
  cases o with
  | register x =>
    simp only [text, String.toList_ofList, List.mem_cons, List.not_mem_nil, or_false] at h
    rcases h with rfl | rfl
    · decide
    · exact .of_hex (Hex.digit_mem _)
  | byte b =>
    simp only [text, String.toList_append, String.toList_ofList, List.mem_append] at h
    rcases h with h | h
    · exact .of_all (by decide) h
    · exact .of_digits h
  | address a =>
    simp only [text, Hex.numeral, String.toList_append, String.toList_ofList, List.mem_append] at h
    rcases h with h | h
    · exact .of_all (by decide) h
    · exact .of_digits h
  | count n =>
    refine .of_decimal (n := n) ?_
    simpa [text] using h
  | _ => exact .of_all (by decide) h

/-- Addresses and heights as words carry them. -/
def Fits : Operand → Prop
  | address a => a < 0x1000
  | count n => n < 0x10
  | _ => True

/-- The operand that is written like this. A number in base sixteen is a byte if it has two digits, and
an address if it has more. -/
def ofText? : List Char → Option Operand
  | ['I'] => some index
  | ['[', 'I', ']'] => some indexed
  | ['D', 'T'] => some delay
  | ['S', 'T'] => some sound
  | ['K'] => some key
  | ['F'] => some glyph
  | ['B'] => some decimal
  | ['V', c] => (Numeral.read? 16 [c]).map fun n => register (Fin.ofNat 16 n)
  | ['0', 'x', c, d] => (Numeral.read? 16 [c, d]).map fun n => byte (UInt8.ofNat n)
  | '0' :: 'x' :: cs => (Numeral.read? 16 cs).map address
  | cs => (Numeral.read? 10 cs).map count

/-- An operand is read back. -/
theorem ofText?_text {o : Operand} (fits : o.Fits) : ofText? o.text.toList = some o := by
  cases o with
  | register x =>
    have each : ∀ y : Register, ofText? (register y).text.toList = some (register y) := by decide
    exact each x
  | byte b =>
    have read : Numeral.read? 16 [Hex.digit (b.toNat / 16), Hex.digit b.toNat] = some b.toNat :=
      Numeral.read_digits (w := 1) b.toNat_lt
    have written : (byte b).text.toList =
        ['0', 'x', Hex.digit (b.toNat / 16), Hex.digit b.toNat] := by
      simp [text, Hex.digits]
    rw [written, ofText?, read]
    simp
  | address a =>
    have read : Numeral.read? 16 (Hex.digits 3 a) = some a := Numeral.read_digits (w := 2) fits
    have written : (address a).text.toList = '0' :: 'x' :: Hex.digits 3 a := by
      simp [text, Hex.numeral_of_lt (w := 3) (by decide) fits]
    rw [written]
    change (Numeral.read? 16 (Hex.digits 3 a)).map address = _
    rw [read]
    rfl
  | count n =>
    have each : ∀ k < 16, ofText? (count k).text.toList = some (count k) := by decide
    exact each n fits
  | _ => rfl

end Operand

/-! ### Mnemonic and operands -/

namespace Assembly

/-- A mnemonic and operands that can be told apart in the text. -/
structure Proper (a : Assembly) : Prop where
  /-- Nothing in the mnemonic separates. -/
  mnemonic : ∀ c ∈ a.mnemonic.toList, IsSolid c
  /-- The operands are as words carry them. -/
  operands : ∀ o ∈ a.operands, o.Fits

/-- What stands between blanks in a text, without commas. -/
def tokens (cs : List Char) : List (List Char) :=
  Split.pieces (· = ' ') (cs.filter (· ≠ ','))

/-- The mnemonic and the operands that are written like this. -/
def ofText? (cs : List Char) : Option Assembly :=
  match tokens cs with
  | [] => none
  | mnemonic :: operands => (operands.mapM Operand.ofText?).map fun os => ⟨String.ofList mnemonic, os⟩

theorem filter_solid {cs : List Char} (h : ∀ c ∈ cs, IsSolid c) : cs.filter (· ≠ ',') = cs :=
  List.filter_eq_self.2 fun c hc => decide_eq_true ((h c hc).ne (by decide))

/-- Without commas, a blank stands in front of every operand. -/
theorem filter_text {a : Assembly} (h : ∀ c ∈ a.mnemonic.toList, IsSolid c) :
    a.text.toList.filter (· ≠ ',') =
      a.mnemonic.toList ++ a.operands.flatMap fun o => ' ' :: o.text.toList := by
  obtain ⟨mnemonic, operands⟩ := a
  have blank : " ".toList.filter (· ≠ ',') = [' '] := rfl
  have separator (o : Operand) :
      (", " ++ o.text).toList.filter (· ≠ ',') = ' ' :: o.text.toList := by
    rw [String.toList_append, List.filter_append, filter_solid fun _ => Operand.isSolid]
    rfl
  cases operands with
  | nil => simpa [text] using filter_solid h
  | cons first rest =>
    have others : (String.join (rest.map fun o => ", " ++ o.text)).toList.filter (· ≠ ',') =
        rest.flatMap fun o => ' ' :: o.text.toList := by
      rw [String.toList_join, List.filter_flatMap, List.flatMap_map]
      simp only [separator]
    rw [text, String.toList_append, List.filter_append, others]
    simp only [String.toList_append, List.filter_append, filter_solid h, blank,
      filter_solid fun _ => Operand.isSolid (o := first), List.flatMap_cons]
    simp

/-- What stands between blanks is found again. -/
theorem pieces_blanks {first : List Char} {rest : List (List Char)}
    (h : ∀ t ∈ first :: rest, ∀ c ∈ t, IsSolid c) :
    Split.pieces (· = ' ') (first ++ rest.flatMap fun t => ' ' :: t) = first :: rest := by
  have apart {t : List Char} (ht : t ∈ first :: rest) : ∀ c ∈ t, decide (c = ' ') = false :=
    fun c hc => decide_eq_false ((h t ht c hc).ne (by decide))
  induction rest generalizing first with
  | nil =>
    rw [List.flatMap_nil, List.append_nil]
    exact Split.pieces_of_forall (apart (by simp))
  | cons second rest ih =>
    rw [List.flatMap_cons, List.cons_append, Split.pieces_append_cons (apart (by simp)) (by decide),
      ih (fun t ht => h t (List.mem_cons_of_mem _ ht)) fun ht => apart (List.mem_cons_of_mem _ ht)]

theorem tokens_text {a : Assembly} (h : ∀ c ∈ a.mnemonic.toList, IsSolid c) :
    tokens a.text.toList = a.mnemonic.toList :: a.operands.map fun o => o.text.toList := by
  have solid : ∀ t ∈ a.mnemonic.toList :: a.operands.map (fun o => o.text.toList),
      ∀ c ∈ t, IsSolid c := by
    simp only [List.mem_cons, List.mem_map, forall_eq_or_imp, forall_exists_index, and_imp,
      forall_apply_eq_imp_iff₂]
    exact ⟨h, fun o _ _ => Operand.isSolid⟩
  rw [tokens, filter_text h, ← pieces_blanks solid, List.flatMap_map]

/-- A mnemonic and its operands are read back. -/
theorem ofText?_text {a : Assembly} (proper : a.Proper) : ofText? a.text.toList = some a := by
  rw [ofText?, tokens_text proper.mnemonic]
  dsimp only
  rw [mapM_of_inverse fun o ho => Operand.ofText?_text (proper.operands o ho)]
  simp

/-- The mnemonic is what stands in front of the first blank. -/
theorem takeWhile_text {a : Assembly} (h : ∀ c ∈ a.mnemonic.toList, IsSolid c) :
    a.text.toList.takeWhile (· ≠ ' ') = a.mnemonic.toList := by
  have solid : ∀ c ∈ a.mnemonic.toList, decide (c ≠ ' ') = true :=
    fun c hc => decide_eq_true ((h c hc).ne (by decide))
  obtain ⟨mnemonic, operands⟩ := a
  cases operands with
  | nil =>
    change mnemonic.toList.takeWhile _ = mnemonic.toList
    rw [← List.append_nil mnemonic.toList, List.takeWhile_append_of_pos solid, List.takeWhile_nil]
  | cons first rest =>
    simp only [text, String.toList_append, List.append_assoc]
    rw [List.takeWhile_append_of_pos solid]
    simp

/-- The characters of a text. -/
theorem mem_text {a : Assembly} (h : ∀ c ∈ a.mnemonic.toList, IsSolid c) {c : Char}
    (hc : c ∈ a.text.toList) : IsSolid c ∨ c = ' ' ∨ c = ',' := by
  by_cases comma : c = ','
  · exact Or.inr (Or.inr comma)
  · have kept : c ∈ a.text.toList.filter (· ≠ ',') := List.mem_filter.2 ⟨hc, decide_eq_true comma⟩
    rw [filter_text h, List.mem_append, List.mem_flatMap] at kept
    rcases kept with kept | ⟨o, -, kept⟩
    · exact Or.inl (h c kept)
    · rcases List.mem_cons.1 kept with rfl | kept
      · exact Or.inr (Or.inl rfl)
      · exact Or.inl (Operand.isSolid kept)

end Assembly

/-! ### Instructions -/

/-- The rules whose text shows only one register. -/
def Arith.IsShift (rule : Arith) : Prop := rule = shiftRight ∨ rule = shiftLeft

/-- The rule on two registers that has this mnemonic. -/
def Arith.ofMnemonic? : String → Option Arith
  | "LD" => some copy
  | "OR" => some or
  | "AND" => some and
  | "XOR" => some xor
  | "ADD" => some add
  | "SUB" => some sub
  | "SUBN" => some subFrom
  | _ => none

namespace Op

/-- The instruction without operands that is written like this, or the word outside the instruction
set. -/
def ofBare? : List Char → Option Op
  | ['C', 'L', 'S'] => some clear
  | ['R', 'E', 'T'] => some ret
  | '0' :: 'x' :: cs => (Numeral.read? 16 cs).map fun n => unknown (UInt16.ofNat n)
  | _ => none

/-- The instruction that a mnemonic and its operands say. The second register of a shift is taken to
be `V0`. -/
def ofAssembly? (a : Assembly) : Option Op :=
  match a.operands with
  | [] => ofBare? a.mnemonic.toList
  | [.address target] =>
    match a.mnemonic with
    | "SYS" => some (system target)
    | "JP" => some (jump target)
    | "CALL" => some (call target)
    | _ => none
  | [.register x] =>
    match a.mnemonic with
    | "SHR" => some (arith .shiftRight x 0)
    | "SHL" => some (arith .shiftLeft x 0)
    | "SKP" => some (skipHeld x)
    | "SKNP" => some (skipFree x)
    | _ => none
  | [.register x, .byte b] =>
    match a.mnemonic with
    | "SE" => some (skipEqByte x b)
    | "SNE" => some (skipNeByte x b)
    | "LD" => some (loadByte x b)
    | "ADD" => some (addByte x b)
    | "RND" => some (random x b)
    | _ => none
  | [.register x, .register y] =>
    match a.mnemonic with
    | "SE" => some (skipEq x y)
    | "SNE" => some (skipNe x y)
    | mnemonic => (Arith.ofMnemonic? mnemonic).map fun rule => arith rule x y
  | [.index, .address target] => some (loadIndex target)
  | [.register _, .address target] => some (jumpOffset target)
  | [.register x, .register y, .count n] => some (draw x y n)
  | [.register x, .delay] => some (readDelay x)
  | [.register x, .key] => some (awaitKey x)
  | [.delay, .register x] => some (setDelay x)
  | [.sound, .register x] => some (setSound x)
  | [.index, .register x] => some (addIndex x)
  | [.glyph, .register x] => some (glyph x)
  | [.decimal, .register x] => some (decimal x)
  | [.indexed, .register x] => some (save x)
  | [.register x, .indexed] => some (restore x)
  | _ => none

/-- The instruction that is written like this. -/
def ofText? (cs : List Char) : Option Op := (Assembly.ofText? cs).bind ofAssembly?

/-- What the text shows of an instruction: of a shift, it is the first register. -/
def shown : Op → Op
  | arith .shiftRight x _ => arith .shiftRight x 0
  | arith .shiftLeft x _ => arith .shiftLeft x 0
  | op => op

theorem toList_unknown (w : Word) :
    (unknown w).assembly.mnemonic.toList = '0' :: 'x' :: Hex.digits 4 w.toNat := by
  simp [assembly]

/-- An instruction is told by its mnemonic and its operands. -/
theorem ofAssembly?_assembly (op : Op) : ofAssembly? op.assembly = some op.shown := by
  cases op with
  | unknown w =>
    have read : Numeral.read? 16 (Hex.digits 4 w.toNat) = some w.toNat :=
      Numeral.read_digits (w := 3) w.toNat_lt
    change ofBare? (unknown w).assembly.mnemonic.toList = _
    rw [toList_unknown, ofBare?, read]
    simp [shown]
  | arith rule x y => cases rule <;> rfl
  | _ => rfl

theorem isSolid_mnemonic (op : Op) : ∀ c ∈ op.assembly.mnemonic.toList, IsSolid c := by
  cases op with
  | unknown w =>
    rw [toList_unknown]
    intro c hc
    rcases List.mem_cons.1 hc with rfl | hc
    · decide
    · rcases List.mem_cons.1 hc with rfl | hc
      · decide
      · exact .of_digits hc
  | arith rule x y =>
    dsimp only [assembly]
    cases rule <;> exact fun c => .of_all (by decide)
  | _ =>
    dsimp only [assembly]
    exact fun c => .of_all (by decide)

/-- What a decoded instruction shows can be told apart in its text. -/
theorem proper_assembly {w : Word} {op : Op} (h : decode w = some op) : op.assembly.Proper := by
  refine ⟨op.isSolid_mnemonic, ?_⟩
  rcases (decode_eq_some_iff.1 h).2 with ⟨listed, -⟩ | ⟨rfl, -⟩
  · cases op with
    | system a => simpa [assembly, Operand.Fits] using listed.1
    | jump a | call a | loadIndex a | jumpOffset a =>
      have fits : a < 0x1000 := listed
      simpa [assembly, Operand.Fits] using fits
    | draw x y n =>
      have fits : n < 0x10 := listed
      simpa [assembly, Operand.Fits] using fits
    | arith rule x y => cases rule <;> simp [assembly, Arith.operands, Operand.Fits]
    | unknown w => exact listed.elim
    | _ => simp [assembly, Operand.Fits]
  · simp [assembly]

/-- **A decoded instruction is read back from its text**, but for the second register of a shift. -/
theorem ofText?_text {w : Word} {op : Op} (h : decode w = some op) :
    ofText? op.assembly.text.toList = some op.shown := by
  rw [ofText?, Assembly.ofText?_text (proper_assembly h)]
  exact op.ofAssembly?_assembly

/-- A line break or a semicolon is in no instruction's text. -/
theorem not_mem_text (op : Op) : '\n' ∉ op.assembly.text.toList ∧ ';' ∉ op.assembly.text.toList := by
  constructor <;> exact fun h => absurd (Assembly.mem_text op.isSolid_mnemonic h) (by decide)

/-! ### Words -/

/-- All of an instruction is shown, unless it is a shift. -/
theorem shown_cases (op : Op) :
    op.shown = op ∨
      ∃ (rule : Arith) (x y : Register), rule.IsShift ∧ op = arith rule x y ∧ op.shown = arith rule x 0 := by
  unfold shown
  split
  · exact Or.inr ⟨_, _, _, Or.inl rfl, rfl, rfl⟩
  · exact Or.inr ⟨_, _, _, Or.inr rfl, rfl, rfl⟩
  · exact Or.inl rfl

/-- Instructions that are shown alike are the same, or shifts of the same register. -/
theorem eq_or_shift_of_shown_eq {p q : Op} (h : p.shown = q.shown) :
    p = q ∨ ∃ (rule : Arith) (x y z : Register),
      rule.IsShift ∧ p = arith rule x y ∧ q = arith rule x z := by
  rcases p.shown_cases with hp | ⟨rule, x, y, shift, rfl, hp⟩ <;>
    rcases q.shown_cases with hq | ⟨rule', x', z, shift', rfl, hq⟩ <;> rw [hp, hq] at h
  · exact Or.inl h
  · exact Or.inr ⟨rule', x', 0, z, shift', h, rfl⟩
  · exact Or.inr ⟨rule, x, y, 0, shift, rfl, h.symm⟩
  · cases h
    exact Or.inr ⟨rule, x, y, z, shift, rfl, rfl⟩

/-- **The text tells the word**, up to the second register of a shift. -/
theorem eq_or_shift_of_text_eq {v w : Word} {p q : Op} (hp : decode v = some p)
    (hq : decode w = some q) (h : p.assembly.text = q.assembly.text) :
    v = w ∨ ∃ (rule : Arith) (x y z : Register),
      rule.IsShift ∧ p = arith rule x y ∧ q = arith rule x z := by
  have shown : p.shown = q.shown := by
    have read := ofText?_text hp
    rw [h, ofText?_text hq] at read
    exact (Option.some.inj read).symm
  refine (eq_or_shift_of_shown_eq shown).imp_left fun same => UInt16.toNat_inj.1 ?_
  rw [← pattern_of_decode hp, ← pattern_of_decode hq, same]

end Op

end ChipEight
