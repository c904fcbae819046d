import ChipEight.Yaml.Character

/-!
# Places in a document

Where a character stands decides what it means, so that reading keeps track of its
place: the line, the column in it, and the number of bytes before it. A cursor is a
place together with the characters from there on.
-/

namespace ChipEight.Yaml

/-- A place in a document. -/
structure Place where
  /-- How many lines end before it. -/
  line : Nat := 0
  /-- How many characters come before it in its line. -/
  column : Nat := 0
  /-- How many bytes come before it. -/
  offset : Nat := 0
  deriving DecidableEq, Repr

namespace Place

/-- The place after a character. -/
def after (p : Place) (c : Char) : Place :=
  if isBreak c then ⟨p.line + 1, 0, p.offset + c.utf8Size⟩
  else ⟨p.line, p.column + 1, p.offset + c.utf8Size⟩

/-- How many bytes a key may be away from its colon. -/
def reach : Nat := 1024

/-- Whether a colon at a place can still belong to a key that begins here. -/
def reaches (p q : Place) : Bool := p.line == q.line && q.offset ≤ p.offset + reach

end Place

/-- A place in a document and what follows it. -/
structure Cursor where
  /-- Where reading stands. -/
  place : Place
  /-- The characters from there on. -/
  rest : List Char
  deriving DecidableEq, Repr

namespace Cursor

/-- The beginning of a document. -/
def start (cs : List Char) : Cursor := ⟨{}, cs⟩

/-- One character on, if there is one. -/
def next (cur : Cursor) : Cursor :=
  match cur.rest with
  | [] => cur
  | c :: rest => ⟨cur.place.after c, rest⟩

/-- Several characters on. -/
def skip : Nat → Cursor → Cursor
  | 0, cur => cur
  | n + 1, cur => skip n cur.next

/-- The characters of a kind from a place on, and the cursor after them. -/
def spanFrom (p : Char → Bool) (place : Place) : List Char → List Char × Cursor
  | [] => ([], ⟨place, []⟩)
  | c :: rest =>
    if p c then
      let (cs, cur) := spanFrom p (place.after c) rest
      (c :: cs, cur)
    else ([], ⟨place, c :: rest⟩)

/-- The characters of a kind under the cursor, and the cursor after them. -/
def span (p : Char → Bool) (cur : Cursor) : List Char × Cursor := spanFrom p cur.place cur.rest

/-- Without the characters of a kind. -/
def skipWhile (p : Char → Bool) (cur : Cursor) : Cursor := (cur.span p).2

/-- After the rest of a line on which nothing more is said, and after its end. -/
def skipLine? (cur : Cursor) : Option Cursor :=
  let cur := cur.skipWhile isBlank
  let cur := if cur.rest.head? = some '#' then cur.skipWhile fun c => !isBreak c else cur
  if cur.rest.head?.all isBreak then some cur.next else none

end Cursor

end ChipEight.Yaml
