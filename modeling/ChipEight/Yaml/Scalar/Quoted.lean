import ChipEight.Text.Numeral
import ChipEight.Yaml.Cursor
import ChipEight.Yaml.Scalar.Gap

/-!
# Quoted scalars

In single quotes every character stands for itself, and a quote is written twice. In
double quotes a backslash begins an escape: a letter for a character, a number in base
sixteen, or a line break that stands for nothing. Quoted scalars may go on over several
lines however these are indented, unless one of them begins with the mark of a document.
-/

namespace ChipEight.Yaml

/-- A scalar in single quotes, after a part of its characters in reverse and a gap. -/
def singleQuotedFrom (text : List Char) (gap : Gap) (p : Place) :
    List Char → Option (List Char × Cursor)
  | [] => none
  | '\'' :: '\'' :: rest =>
    singleQuotedFrom ('\'' :: gap.behind text) .empty ((p.after '\'').after '\'') rest
  | c :: rest =>
    if c == '\'' then some ((gap.behind text).reverse, ⟨p.after c, rest⟩)
    else if isSpace c then singleQuotedFrom text (gap.push c) (p.after c) rest
    else if p.column == 0 && isDocumentMark (c :: rest) then none
    else singleQuotedFrom (c :: gap.behind text) .empty (p.after c) rest

/-- The character that a letter behind a backslash stands for. -/
def escaped? : Char → Option Char
  | '0' => some '\x00'
  | 'a' => some '\x07'
  | 'b' => some '\x08'
  | 't' => some '\t'
  | '\t' => some '\t'
  | 'n' => some '\n'
  | 'v' => some '\x0b'
  | 'f' => some '\x0c'
  | 'r' => some '\r'
  | 'e' => some '\x1b'
  | ' ' => some ' '
  | '"' => some '"'
  | '/' => some '/'
  | '\\' => some '\\'
  | 'N' => some '\x85'
  | '_' => some '\xa0'
  | 'L' => some '\u2028'
  | 'P' => some '\u2029'
  | _ => none

/-- How many digits in base sixteen follow a letter behind a backslash. -/
def escapeWidth? : Char → Option Nat
  | 'x' => some 2
  | 'u' => some 4
  | 'U' => some 8
  | _ => none

/-- The character with a number, if there is one. -/
def character? (n : Nat) : Option Char := if n.isValidChar then some (Char.ofNat n) else none

/-- The character of an escape, after its backslash, and the cursor behind the escape. -/
def escape? (cur : Cursor) : Option (Char × Cursor) :=
  match cur.rest with
  | [] => none
  | c :: rest =>
    match escapeWidth? c with
    | some width =>
      if width ≤ rest.length then
        ((Numeral.read? 16 (rest.take width)).bind character?).map fun a =>
          (a, cur.skip (width + 1))
      else none
    | none => (escaped? c).map fun a => (a, cur.next)

/-- A scalar in double quotes in at most `fuel` parts, after a part of its characters in reverse and
a gap. -/
def doubleQuotedFrom : Nat → List Char → Gap → Cursor → Option (List Char × Cursor)
  | 0, _, _, _ => none
  | fuel + 1, text, gap, cur =>
    match cur.rest with
    | [] => none
    | c :: rest =>
      if c == '"' then some ((gap.behind text).reverse, cur.next)
      else if isSpace c then doubleQuotedFrom fuel text (gap.push c) cur.next
      else if cur.place.column == 0 && isDocumentMark (c :: rest) then none
      else if c == '\\' then
        if rest.head?.any isBreak then
          doubleQuotedFrom fuel (gap.behind text) .escapedBreak cur.next.next
        else
          (escape? cur.next).bind fun (a, cur) =>
            doubleQuotedFrom fuel (a :: gap.behind text) .empty cur
      else doubleQuotedFrom fuel (c :: gap.behind text) .empty cur.next

/-- The quoted scalar under a cursor, which stands at its opening quote. -/
def quoted? (cur : Cursor) : Option (List Char × Cursor) :=
  let inner := cur.next
  if cur.rest.head? = some '"' then doubleQuotedFrom (inner.rest.length + 1) [] .empty inner
  else singleQuotedFrom [] .empty inner.place inner.rest

end ChipEight.Yaml
