/-!
# Splitting text

Text is cut at every character of some kind, as a path is at its slashes. There is always
one piece more than there are cuts.
-/

namespace ChipEight.Split

/-- Put a character in front of the first piece. -/
def extend (c : Char) : List (List Char) → List (List Char)
  | [] => [[c]]
  | piece :: rest => (c :: piece) :: rest

/-- The pieces between the characters at which to cut. -/
def pieces (cut : Char → Bool) : List Char → List (List Char)
  | [] => [[]]
  | c :: rest => if cut c then [] :: pieces cut rest else extend c (pieces cut rest)

theorem pieces_ne_nil (cut : Char → Bool) (cs : List Char) : pieces cut cs ≠ [] := by
  cases cs with
  | nil => simp [pieces]
  | cons c rest =>
    rw [pieces]
    split
    · simp
    · cases pieces cut rest <;> simp [extend]

/-- Where there is no cut, there is one piece. -/
theorem pieces_of_forall {cut : Char → Bool} {piece : List Char} (h : ∀ a ∈ piece, cut a = false) :
    pieces cut piece = [piece] := by
  induction piece with
  | nil => rfl
  | cons a piece ih =>
    have ha : cut a = false := h a (by simp)
    rw [pieces, ih fun b hb => h b (by simp [hb])]
    simp [ha, extend]

/-- A piece without cuts is split off whole. -/
theorem pieces_append_cons {cut : Char → Bool} {piece : List Char} {c : Char}
    (h : ∀ a ∈ piece, cut a = false) (hc : cut c = true) (rest : List Char) :
    pieces cut (piece ++ c :: rest) = piece :: pieces cut rest := by
  induction piece with
  | nil => simp [pieces, hc]
  | cons a piece ih =>
    have ha : cut a = false := h a (by simp)
    rw [List.cons_append, pieces, ih fun b hb => h b (by simp [hb])]
    simp [ha, extend]

end ChipEight.Split
