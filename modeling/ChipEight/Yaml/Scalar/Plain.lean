import ChipEight.Yaml.Cursor
import ChipEight.Yaml.Scalar.Gap

/-!
# Plain scalars

A scalar without quotes ends before a comment, before a colon that a word ends with, and
before a line that is not indented enough; between brackets it also ends before brackets
and commas, and indentation does not matter.
-/

namespace ChipEight.Yaml

/-- Where a plain scalar stands. -/
structure Surroundings where
  /-- Whether it stands between brackets. -/
  inFlow : Bool
  /-- How far its further lines have to be indented. -/
  indent : Nat
  deriving DecidableEq, Repr

/-- A plain scalar that was read. -/
structure PlainScalar where
  /-- Its characters. -/
  text : List Char
  /-- Whether lines end between it and what follows. -/
  endsLine : Bool
  /-- What follows. -/
  cursor : Cursor
  deriving DecidableEq, Repr

/-- Whether a plain scalar begins with these characters. An indicator begins one only if it is a
dash, question mark or colon that a word goes on after, the last two not between brackets. -/
def beginsPlain (inFlow : Bool) : List Char → Bool
  | [] => false
  | c :: rest =>
    (!isSpace c && !isIndicator c) ||
      ((c == '-' || (!inFlow && (c == '?' || c == ':'))) && !endsWord rest.head?)

/-- A colon that cannot stand in a plain scalar between brackets, since it neither ends a word nor
stands inside one. -/
def isStrayColon (c : Char) (next : Option Char) : Bool :=
  c == ':' && next.any fun d => d == '?' || isFlowMark d

/-- A character that cannot stand in a plain scalar, so that the scalar ends before it. -/
def endsPlain (inFlow : Bool) (c : Char) (next : Option Char) : Bool :=
  (c == ':' && endsWord next) || (inFlow && isFlowMark c)

/-- A plain scalar from some place on, after a part of its characters in reverse and a gap. A tab
cannot stand for indentation. -/
def plainFrom (s : Surroundings) (text : List Char) (gap : Gap) (p : Place) :
    List Char → Option PlainScalar
  | [] => some ⟨text.reverse, gap.isBroken, ⟨p, []⟩⟩
  | c :: rest =>
    if isSpace c then
      if gap.isBroken && c == '\t' && p.column < s.indent then none
      else plainFrom s text (gap.push c) (p.after c) rest
    else if (gap.isBroken && ((!s.inFlow && p.column < s.indent) ||
        (p.column == 0 && isDocumentMark (c :: rest)))) || (gap != .empty && c == '#') then
      some ⟨text.reverse, gap.isBroken, ⟨p, c :: rest⟩⟩
    else if s.inFlow && isStrayColon c rest.head? then none
    else if endsPlain s.inFlow c rest.head? then
      some ⟨text.reverse, gap.isBroken, ⟨p, c :: rest⟩⟩
    else plainFrom s (c :: gap.behind text) .empty (p.after c) rest

/-- The plain scalar under a cursor. -/
def plain? (s : Surroundings) (cur : Cursor) : Option PlainScalar :=
  plainFrom s [] .empty cur.place cur.rest

end ChipEight.Yaml
