import ChipEight.Text.Numeral
import ChipEight.Yaml.Token

/-!
# Names in a document

Nodes can have a name of their own, by which they are referred to later, and a tag,
which names their type. A tag is a handle, which stands for the beginning of a name,
and a suffix; or it is a whole name in angle brackets. Directives at the beginning of a
document say what handles stand for, and which version of the rules applies.
-/

namespace ChipEight.Yaml

/-! ### Anchors -/

/-- The name of a node under a cursor, behind its mark. -/
def anchorName? (cur : Cursor) : Option (String × Cursor) :=
  let (name, after) := cur.span isNameChar
  let next := after.rest.head?
  if name.isEmpty then none
  else if endsWord next || next.any fun c => "?:,]\x7d%@`".toList.contains c then
    some (String.ofList name, after)
  else none

/-! ### Tags -/

/-- A character of a name of a type. -/
def isTagChar (verbatim : Bool) (c : Char) : Bool :=
  isNameChar c || ";/?:@&=+$.%!~*'()".toList.contains c ||
    (verbatim && (c == ',' || c == '[' || c == ']'))

/-- How many bytes a character has that begins with a byte. -/
def byteCount? (b : Nat) : Option Nat :=
  if b < 0x80 then some 1
  else if 0xC0 ≤ b ∧ b < 0xE0 then some 2
  else if 0xE0 ≤ b ∧ b < 0xF0 then some 3
  else if 0xF0 ≤ b ∧ b < 0xF8 then some 4
  else none

/-- How many bytes of the same character follow a byte, where `left` were to follow before it. -/
def bytesLeft? (left b : Nat) : Option Nat :=
  if left = 0 then (byteCount? b).map (· - 1)
  else if 0x80 ≤ b ∧ b < 0xC0 then some (left - 1)
  else none

/-- The characters of a name of a type, with bytes that are written as two digits behind a percent
sign. The bytes of a character that has several must not be separated. -/
def tagTextFrom (verbatim : Bool) (left : Nat) (p : Place) : List Char → Option (List Char × Cursor)
  | '%' :: a :: b :: rest =>
    (Numeral.read? 16 [a, b]).bind fun n =>
      (bytesLeft? left n).bind fun left =>
        (tagTextFrom verbatim left (((p.after '%').after a).after b) rest).map fun (text, cur) =>
          (Char.ofNat n :: text, cur)
  | cs =>
    if left ≠ 0 then none
    else
      match cs with
      | c :: rest =>
        if c == '%' then none
        else if isTagChar verbatim c then
          (tagTextFrom verbatim 0 (p.after c) rest).map fun (text, cur) => (c :: text, cur)
        else some ([], ⟨p, c :: rest⟩)
      | [] => some ([], ⟨p, []⟩)

/-- The characters of a name of a type under a cursor. -/
def tagText? (verbatim : Bool) (cur : Cursor) : Option (List Char × Cursor) :=
  tagTextFrom verbatim 0 cur.place cur.rest

/-- The same where there has to be at least one character. -/
def someTagText? (verbatim : Bool) (cur : Cursor) : Option (List Char × Cursor) :=
  (tagText? verbatim cur).filter fun (text, _) => !text.isEmpty

/-- What characters say as a part of the name of a type, which ends before the first character with
the number zero. -/
def tagPart (text : List Char) : List Char := text.takeWhile (· != '\x00')

/-- The handle under a cursor that stands at an exclamation mark: a name between two of these, or
what there is of it. -/
def handleText (cur : Cursor) : List Char × Cursor :=
  let (name, after) := cur.next.span isNameChar
  if after.rest.head? = some '!' then ('!' :: name ++ ['!'], after.next) else ('!' :: name, after)

/-- Handles end with an exclamation mark, and it is not the one they begin with. -/
def isHandle (text : List Char) : Bool := 1 < text.length && text.getLast? == some '!'

/-- The tag under a cursor that stands at an exclamation mark. -/
def anyTag? (cur : Cursor) : Option (Tag × Cursor) :=
  if cur.next.rest.head? = some '<' then
    (someTagText? true (cur.skip 2)).bind fun (text, cur) =>
      if cur.rest.head? = some '>' then some (⟨"", String.ofList (tagPart text)⟩, cur.next)
      else none
  else
    let (handle, after) := handleText cur
    if isHandle handle then
      (someTagText? false after).map fun (text, cur) =>
        (⟨String.ofList handle, String.ofList (tagPart text)⟩, cur)
    else
      (tagText? false after).map fun (text, cur) =>
        match tagPart (handle.drop 1 ++ text) with
        | [] => (⟨"", "!"⟩, cur)
        | suffix => (⟨"!", String.ofList suffix⟩, cur)

/-- A tag ends with a word, or with a comma between brackets. -/
def tag? (inFlow : Bool) (cur : Cursor) : Option (Tag × Cursor) :=
  (anyTag? cur).filter fun (_, cur) =>
    endsWord cur.rest.head? || (inFlow && cur.rest.head? == some ',')

/-! ### Directives -/

/-- A number of at most nine digits. -/
def versionNumber? (cur : Cursor) : Option (Nat × Cursor) :=
  let (digits, cur) := cur.span Char.isDigit
  if digits.length ≤ 9 then (Numeral.read? 10 digits).map fun n => (n, cur) else none

/-- A version: two numbers with a point between them. -/
def version? (cur : Cursor) : Option (Token × Cursor) :=
  (versionNumber? (cur.skipWhile isBlank)).bind fun (major, cur) =>
    if cur.rest.head? = some '.' then
      (versionNumber? cur.next).map fun (minor, cur) => (.version major minor, cur)
    else none

/-- A handle and what it stands for, with blanks between them. -/
def meaning? (cur : Cursor) : Option (Token × Cursor) :=
  let cur := cur.skipWhile isBlank
  if cur.rest.head? = some '!' then
    let (handle, cur) := handleText cur
    if (isHandle handle || handle == ['!']) && cur.rest.head?.any isBlank then
      (someTagText? true (cur.skipWhile isBlank)).bind fun (text, cur) =>
        if endsWord cur.rest.head? then
          some (.handle (String.ofList handle) (String.ofList (tagPart text)), cur)
        else none
    else none
  else none

/-- The directive at whose percent sign a cursor stands, and the cursor in the line below. -/
def directive? (cur : Cursor) : Option (Token × Cursor) :=
  let (name, cur) := cur.next.span isNameChar
  let read? :=
    if !endsWord cur.rest.head? then none
    else if name == "YAML".toList then version? cur
    else if name == "TAG".toList then meaning? cur
    else none
  read?.bind fun (token, cur) => cur.skipLine?.map fun cur => (token, cur)

end ChipEight.Yaml
