import ChipEight.Yaml.Cursor

/-!
# Scalars by indentation

A scalar may be the lines below a mark, as far as these are indented. How far that is
follows from the first line with a text, or it is written after the mark. The line
breaks of a literal scalar stand for themselves; in a folded one, a single line break
between two lines stands for a blank, unless one of the lines begins with a blank.
-/

namespace ChipEight.Yaml

/-- What becomes of the line breaks at the end of a scalar by indentation. -/
inductive Chomping
  /-- They are left out. -/
  | strip
  /-- The first one stays. -/
  | clip
  /-- All of them stay. -/
  | keep
  deriving DecidableEq, Repr

/-- What the line with the mark says about a scalar by indentation. -/
structure IndentedHeader where
  /-- What becomes of the line breaks at its end. -/
  chomping : Chomping
  /-- How much further than its surroundings it is indented, if that is written. -/
  increment? : Option Nat
  deriving DecidableEq, Repr

/-- The treatment of line breaks that a character asks for. -/
def chomping? (c : Char) : Option Chomping :=
  if c == '+' then some .keep else if c == '-' then some .strip else none

/-- The indentation that a character asks for. -/
def increment? (c : Char) : Option Nat := if '1' ≤ c ∧ c ≤ '9' then some (c.toNat - 48) else none

/-- The header under a cursor, of at most two characters in any order, and the cursor in the line
below it. -/
def indentedHeader? (cur : Cursor) : Option (IndentedHeader × Cursor) :=
  let (marks, cur) := cur.span fun c => c == '+' || c == '-' || c.isDigit
  let header? : Option IndentedHeader :=
    match marks with
    | [] => some ⟨.clip, none⟩
    | [a] =>
      match chomping? a with
      | some chomping => some ⟨chomping, none⟩
      | none => (increment? a).map fun n => ⟨.clip, some n⟩
    | [a, b] =>
      match chomping? a with
      | some chomping => (increment? b).map fun n => ⟨chomping, some n⟩
      | none => (increment? a).bind fun n => (chomping? b).map fun chomping => ⟨chomping, some n⟩
    | _ => none
  header?.bind fun header => cur.skipLine?.map fun cur => (header, cur)

/-- A scalar by indentation as far as it was read. Its characters are kept in reverse. -/
structure IndentedText where
  /-- The lines so far, without the break of the last one. -/
  text : List Char := []
  /-- The break of the last line with a text, if there is one. -/
  lastBreak : Option Char := none
  /-- The breaks of the lines without a text after it. -/
  emptyLines : List Char := []
  /-- Whether the last line with a text begins with a blank. -/
  beginsBlank : Bool := false
  deriving DecidableEq, Repr

namespace IndentedText

/-- Begin a new line with its first character. -/
def beginLine (folded : Bool) (c : Char) (t : IndentedText) : IndentedText :=
  let joins := folded && t.lastBreak == some '\n' && !t.beginsBlank && !isBlank c
  let seam := if !joins then t.lastBreak.toList else if t.emptyLines.isEmpty then [' '] else []
  { text := c :: (t.emptyLines ++ seam ++ t.text), beginsBlank := isBlank c }

/-- The characters of a scalar that ends here. -/
def finish (chomping : Chomping) (t : IndentedText) : List Char :=
  let tail :=
    match chomping with
    | .strip => []
    | .clip => t.lastBreak.toList
    | .keep => t.emptyLines ++ t.lastBreak.toList
  (tail ++ t.text).reverse

end IndentedText

/-- How a scalar by indentation is read. -/
structure IndentedRule where
  /-- Whether single line breaks stand for blanks. -/
  folded : Bool
  /-- The least indentation that it can have. -/
  floor : Nat
  deriving DecidableEq, Repr

/-- The lines of a scalar. The indentation is none as long as there is no line with a text, and
`widest` is then how far the widest line is indented. Reading is inside a line or in front of its
text. -/
def indentedFrom (rule : IndentedRule) (indent? : Option Nat) (widest : Nat) (inLine : Bool)
    (t : IndentedText) (p : Place) : List Char → Option (IndentedText × Cursor)
  | [] => some (t, ⟨p, []⟩)
  | c :: rest =>
    let inMargin := indent?.all fun n => decide (p.column < n)
    if inLine then
      if isBreak c then
        indentedFrom rule indent? widest false { t with lastBreak := some c } (p.after c) rest
      else indentedFrom rule indent? widest true { t with text := c :: t.text } (p.after c) rest
    else if isBreak c then
      let t := { t with emptyLines := c :: t.emptyLines }
      indentedFrom rule indent? widest false t (p.after c) rest
    else if c == ' ' && inMargin then
      indentedFrom rule indent? (max widest (p.column + 1)) false t (p.after c) rest
    else if c == '\t' && inMargin then none
    else
      let indent := indent?.getD (max widest (max rule.floor 1))
      if p.column = indent then
        indentedFrom rule (some indent) widest true (t.beginLine rule.folded c) (p.after c) rest
      else some (t, ⟨p, c :: rest⟩)

/-- The scalar by indentation under a cursor, which stands behind its mark, inside surroundings with
some indentation. -/
def indented? (folded : Bool) (surroundings? : Option Nat) (cur : Cursor) :
    Option (List Char × Cursor) :=
  (indentedHeader? cur).bind fun (header, cur) =>
    let floor := surroundings?.elim 0 (· + 1)
    let indent? := header.increment?.map fun n => surroundings?.getD 0 + n
    (indentedFrom ⟨folded, floor⟩ indent? 0 false {} cur.place cur.rest).map fun (t, cur) =>
      (t.finish header.chomping, cur)

end ChipEight.Yaml
