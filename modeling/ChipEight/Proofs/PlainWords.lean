import ChipEight.Yaml.Layout

/-!
# Plain words

A word of lower-case letters, digits and underscores has none of the characters that the layout of a
document is made of. Where such a word begins a token, the token is a plain scalar, and the scalar is
the word if a colon, a line break or the end of the text comes next.
-/

namespace ChipEight.Yaml

/-! ### Characters -/

/-- A lower-case letter, a digit or an underscore. -/
def isWordChar (c : Char) : Bool := c.isLower || c.isDigit || c == '_'

/-- The characters that have a meaning in the layout of a document. -/
def marks : List Char :=
  [' ', '\t', '\n', '\u2028', '\u2029', '[', ']', '\x7b', '\x7d', ',', '-', '.', '?', ':', '#', '&', '*', '!',
    '|', '>', '\'', '"', '%', '@', '\x60']

variable {c : Char}

theorem toNat_of_isWordChar (hc : isWordChar c = true) : 0x30 ≤ c.toNat ∧ c.toNat ≤ 0x7A := by
  have lower : c.isLower = true ↔ 0x61 ≤ c.toNat ∧ c.toNat ≤ 0x7A := by
    have isLower : c.isLower = (decide ('a'.val ≤ c.val) && decide (c.val ≤ 'z'.val)) := rfl
    simp [isLower, UInt32.le_iff_toNat_le]
  have digit : c.isDigit = true ↔ 0x30 ≤ c.toNat ∧ c.toNat ≤ 0x39 := by
    simp [Char.isDigit, UInt32.le_iff_toNat_le]
  rw [isWordChar, Bool.or_eq_true, Bool.or_eq_true, lower, digit, beq_iff_eq] at hc
  obtain (h | h) | rfl := hc
  · omega
  · omega
  · decide

theorem utf8Size_of_isWordChar (hc : isWordChar c = true) : c.utf8Size = 1 := by
  rw [Char.utf8Size_eq_one_iff, UInt32.le_iff_toNat_le]
  exact Nat.le_trans (toNat_of_isWordChar hc).2 (by decide)

theorem isAllowed_of_isWordChar (hc : isWordChar c = true) : isAllowed c = true := by
  have bounds := toNat_of_isWordChar hc
  simp only [isAllowed, Bool.or_eq_true, Bool.and_eq_true, decide_eq_true_eq]
  exact Or.inl (Or.inr (by omega))

theorem ne_of_isWordChar {d : Char} (hc : isWordChar c = true) (hd : isWordChar d = false) : c ≠ d := by
  rintro rfl
  rw [hc] at hd
  cases hd

/-- What is checked for some characters one by one. -/
theorem forall_mem_of_all {cs : List Char} {P : Char → Prop} [DecidablePred P]
    (h : cs.all (fun c => decide (P c)) = true) (c : Char) (hc : c ∈ cs) : P c :=
  of_decide_eq_true (List.all_eq_true.1 h c hc)

theorem beq_mark_of_isWordChar (hc : isWordChar c = true) : ∀ d ∈ marks, (c == d) = false := by
  intro d hd
  have mark := forall_mem_of_all (P := fun d => isWordChar d = false) (by decide) d hd
  exact beq_eq_false_iff_ne.2 (ne_of_isWordChar hc mark)

theorem isSpace_of_isWordChar (hc : isWordChar c = true) : isSpace c = false := by
  have other := beq_mark_of_isWordChar hc
  simp only [marks, List.forall_mem_cons] at other
  simp [isSpace, isBlank, isBreak, other]

theorem isIndicator_of_isWordChar (hc : isWordChar c = true) : isIndicator c = false := by
  have other := beq_mark_of_isWordChar hc
  simp [marks] at other
  simp [isIndicator, isFlowMark, other]

/-! ### Places -/

/-- The place after some characters. -/
def Place.along (p : Place) (cs : List Char) : Place := cs.foldl after p

/-- Within a word the line stays the same, and characters are bytes. -/
theorem Place.along_word {w : List Char} (hw : ∀ c ∈ w, isWordChar c = true) (p : Place) :
    p.along w = ⟨p.line, p.column + w.length, p.offset + w.length⟩ := by
  induction w generalizing p with
  | nil => rfl
  | cons c w ih =>
    rw [List.forall_mem_cons] at hw
    have noBreak : isBreak c = false := (Bool.or_eq_false_iff.1 (isSpace_of_isWordChar hw.1)).2
    have step : p.after c = ⟨p.line, p.column + 1, p.offset + 1⟩ := by
      simp [after, noBreak, utf8Size_of_isWordChar hw.1]
    have along : p.along (c :: w) = (p.after c).along w := rfl
    rw [along, ih hw.2, step]
    simp only [List.length_cons, Nat.add_assoc, Nat.add_comm 1]

/-! ### Scalars -/

variable {s : Surroundings} (p : Place) (before : List Char)

/-- A plain scalar goes on with a word. -/
theorem plainFrom_word (outside : s.inFlow = false) {w : List Char}
    (hw : ∀ c ∈ w, isWordChar c = true) (rest : List Char) :
    plainFrom s before .empty p (w ++ rest) =
      plainFrom s (w.reverse ++ before) .empty (p.along w) rest := by
  induction w generalizing p before with
  | nil => rfl
  | cons c w ih =>
    rw [List.forall_mem_cons] at hw
    have noColon : (c == ':') = false := beq_mark_of_isWordChar hw.1 _ (by decide)
    have step : plainFrom s before .empty p (c :: (w ++ rest)) =
        plainFrom s (c :: before) .empty (p.after c) (w ++ rest) := by
      rw [plainFrom]
      simp [isSpace_of_isWordChar hw.1, outside, endsPlain, noColon, Gap.isBroken, Gap.behind,
        Gap.empty]
    rw [List.cons_append, step, ih _ _ hw.2, List.reverse_cons, List.append_assoc]
    rfl

theorem plainFrom_colon (outside : s.inFlow = false) (rest : List Char) :
    plainFrom s before .empty p (':' :: ' ' :: rest) =
      some ⟨before.reverse, false, ⟨p, ':' :: ' ' :: rest⟩⟩ := by
  have colon : isSpace ':' = false := by decide
  have blank : endsWord (some ' ') = true := by decide
  simp [plainFrom, colon, outside, endsPlain, blank, Gap.isBroken, Gap.empty]

/-- A line that is not indented does not go on with a scalar that should be. -/
theorem plainFrom_break (outside : s.inFlow = false) (indented : s.indent = 1) (rest : List Char)
    (next : ∀ c ∈ rest.head?, isWordChar c = true) :
    plainFrom s before .empty p ('\n' :: rest) = some ⟨before.reverse, true, ⟨p.after '\n', rest⟩⟩ := by
  have broken : (Gap.empty.push '\n').isBroken = true := rfl
  have first : plainFrom s before .empty p ('\n' :: rest) =
      plainFrom s before (Gap.empty.push '\n') (p.after '\n') rest := by
    rw [plainFrom]
    rfl
  rw [first]
  cases rest with
  | nil => simp only [plainFrom, broken]
  | cons c rest =>
    have word : isSpace c = false := isSpace_of_isWordChar (next c rfl)
    have start : (p.after '\n').column = 0 := rfl
    simp [plainFrom, word, broken, outside, indented, start]

/-! ### Tokens -/

theorem isTriple_cons_of_ne {d : Char} (h : c ≠ d) (rest : List Char) :
    isTriple d (c :: rest) = false := by
  have first : (c == d) = false := beq_eq_false_iff_ne.2 h
  rcases rest with _ | ⟨a, _ | ⟨b, rest⟩⟩ <;> simp only [isTriple, first, Bool.false_and]

namespace Layout

theorem gapFrom_blank (inFlow keyAllowed : Bool) (rest : List Char) :
    gapFrom inFlow false keyAllowed p (' ' :: rest) =
      gapFrom inFlow false keyAllowed (p.after ' ') rest := by
  have blank : isBreak ' ' = false := by decide
  simp [gapFrom, blank]

theorem gapFrom_stop (space : isSpace c = false) (comment : c ≠ '#') (mark : c ≠ byteOrderMark)
    (inFlow keyAllowed : Bool) (rest : List Char) :
    gapFrom inFlow false keyAllowed p (c :: rest) = (keyAllowed, ⟨p, c :: rest⟩) := by
  simp only [isSpace, isBlank, Bool.or_eq_false_iff] at space
  simp [gapFrom, space, comment, mark]

theorem gapFrom_word (hc : isWordChar c = true) (inFlow keyAllowed : Bool) (rest : List Char) :
    gapFrom inFlow false keyAllowed p (c :: rest) = (keyAllowed, ⟨p, c :: rest⟩) :=
  gapFrom_stop p (isSpace_of_isWordChar hc) (ne_of_isWordChar hc rfl) (ne_of_isWordChar hc rfl) inFlow
    keyAllowed rest

/-- A word begins a plain scalar. -/
theorem token_word (hc : isWordChar c = true) (rest : List Char) (l : Layout) :
    l.token? c rest = l.plain? := by
  have other := beq_mark_of_isWordChar hc
  simp [marks] at other
  have begins : beginsPlain l.inFlow (c :: rest) = true := by
    simp [beginsPlain, isSpace_of_isWordChar hc, isIndicator_of_isWordChar hc]
  have dashes : isTriple '-' (c :: rest) = false := isTriple_cons_of_ne (ne_of_isWordChar hc rfl) rest
  have dots : isTriple '.' (c :: rest) = false := isTriple_cons_of_ne (ne_of_isWordChar hc rfl) rest
  simp [token?, other, dashes, dots, begins]

/-- A colon that a blank follows belongs to a value. -/
theorem token_colon (rest : List Char) (l : Layout) : l.token? ':' (' ' :: rest) = l.value? := by
  have dashes : isTriple '-' (':' :: ' ' :: rest) = false := isTriple_cons_of_ne (by decide) _
  have dots : isTriple '.' (':' :: ' ' :: rest) = false := isTriple_cons_of_ne (by decide) _
  have ends : endsWord (some ' ') = true := by decide
  simp [token?, dashes, dots, ends]

end Layout

/-! ### Words -/

/-- A word that can stand for itself in a document. -/
structure PlainWord where
  /-- Its characters. -/
  chars : List Char
  /-- There is at least one. -/
  nonempty : chars ≠ []
  /-- They are letters, digits and underscores. -/
  isWordChar_of_mem : ∀ c ∈ chars, isWordChar c = true

namespace PlainWord

/-- The word as a text. -/
def text (w : PlainWord) : String := String.ofList w.chars

/-- The token of a word. -/
def token (w : PlainWord) : Token := .scalar .plain w.text

theorem exists_cons (w : PlainWord) : ∃ c rest, w.chars = c :: rest ∧ isWordChar c = true := by
  obtain ⟨c, rest, chars⟩ := List.exists_cons_of_ne_nil w.nonempty
  exact ⟨c, rest, chars, w.isWordChar_of_mem c (chars ▸ List.mem_cons_self)⟩

end PlainWord

/-- A text that is a word. -/
def IsWord (s : String) : Prop := s.toList ≠ [] ∧ s.toList.all isWordChar = true

instance (s : String) : Decidable (IsWord s) := inferInstanceAs (Decidable (_ ∧ _))

/-- The word that a text is. -/
def IsWord.word {s : String} (h : IsWord s) : PlainWord := ⟨s.toList, h.1, List.all_eq_true.1 h.2⟩

theorem IsWord.text_word {s : String} (h : IsWord s) : h.word.text = s := String.ofList_toList

end ChipEight.Yaml
