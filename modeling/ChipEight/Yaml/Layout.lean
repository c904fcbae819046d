import ChipEight.Yaml.Scalar.Indented
import ChipEight.Yaml.Scalar.Plain
import ChipEight.Yaml.Scalar.Quoted
import ChipEight.Yaml.Token.Name

/-!
# Layout

`tokens?` divides a text into tokens. Outside brackets, the columns in which the entries
of a collection begin tell the collections apart: a new column further to the right
opens one, and a column further to the left closes those that begin to the right of it.

A key is only seen to be one at the colon behind it, which must stand in the same line
and not too far away. So the tokens since the place where a key may begin are kept
apart; when the colon comes, the token for the key goes in front of them, and if no
colon comes in time, nothing does.
-/

namespace ChipEight.Yaml

/-- A place where a key may begin. -/
structure KeyStart where
  /-- Where it is. -/
  place : Place
  /-- Whether a key has to begin there, since the entries of a mapping do. -/
  required : Bool
  deriving DecidableEq, Repr

/-- What was read on one level of brackets. The tokens are kept in reverse. -/
structure Level where
  /-- The tokens before the place where a key may begin. -/
  before : List Token := []
  /-- The tokens since. -/
  since : List Token := []
  /-- The place itself, as long as a key may begin there. -/
  keyStart? : Option KeyStart := none
  deriving DecidableEq, Repr

namespace Level

/-- All tokens of a level. -/
def all (l : Level) : List Token := l.since ++ l.before

/-- One more token. -/
def push (t : Token) (l : Level) : Level := { l with since := t :: l.since }

/-- Give up the key that may have begun, which fails if there has to be one. -/
def dropKey? (l : Level) : Option Level :=
  if l.keyStart?.any KeyStart.required then none else some { l with keyStart? := none }

/-- Give up a key whose colon would come too late at a place. -/
def dropStale? (p : Place) (l : Level) : Option Level :=
  if l.keyStart?.any fun k => !k.place.reaches p then l.dropKey? else some l

/-- Put tokens, in reverse, in front of those since the key began, which it now has. -/
def insertKey (ts : List Token) (l : Level) : Level := { before := l.since ++ ts ++ l.before }

end Level

/-- A text that is being divided into tokens. -/
structure Layout where
  /-- Where reading stands. -/
  cursor : Cursor
  /-- Whether a key may begin here. -/
  keyAllowed : Bool := true
  /-- The columns of the open collections outside brackets, the innermost one first. -/
  columns : List Nat := []
  /-- The innermost level of brackets. -/
  inner : Level := {}
  /-- The levels around it, from the inside outwards. -/
  outer : List Level := []
  deriving DecidableEq, Repr

namespace Layout

/-- Whether reading stands between brackets. -/
def inFlow (l : Layout) : Bool := !l.outer.isEmpty

/-- How far lines have to be indented that go on with a scalar. -/
def indent (l : Layout) : Nat := l.columns.head?.elim 0 (· + 1)

/-- One more token. -/
def push (t : Token) (l : Layout) : Layout := { l with inner := l.inner.push t }

/-- The same text from another place on. -/
def moveTo (cur : Cursor) (l : Layout) : Layout := { l with cursor := cur }

/-- The same text where a key may begin, or not. -/
def allowKey (allowed : Bool) (l : Layout) : Layout := { l with keyAllowed := allowed }

/-! ### Between tokens -/

/-- Pass over blanks, comments and line breaks. After a line break outside brackets a key may begin,
and where it may, tabs do not count as blanks there. A byte order mark in front of a line says
nothing, but it is a character of the line. -/
def gapFrom (inFlow inComment keyAllowed : Bool) (p : Place) : List Char → Bool × Cursor
  | [] => (keyAllowed, ⟨p, []⟩)
  | c :: rest =>
    if isBreak c then gapFrom inFlow false (keyAllowed || !inFlow) (p.after c) rest
    else if inComment || c == ' ' || (c == '\t' && (inFlow || !keyAllowed)) then
      gapFrom inFlow inComment keyAllowed (p.after c) rest
    else if c == '#' then gapFrom inFlow true keyAllowed (p.after c) rest
    else if c == byteOrderMark && p.column == 0 then
      gapFrom inFlow inComment keyAllowed (p.after c) rest
    else (keyAllowed, ⟨p, c :: rest⟩)

/-- In front of the next token. -/
def skipGap (l : Layout) : Layout :=
  let (keyAllowed, cur) := gapFrom l.inFlow false l.keyAllowed l.cursor.place l.cursor.rest
  { l with keyAllowed := keyAllowed, cursor := cur }

/-! ### Keys -/

/-- Give up the key that may have begun on this level. -/
def dropKey? (l : Layout) : Option Layout :=
  l.inner.dropKey?.map fun inner => { l with inner := inner }

/-- Give up the keys whose colons would come too late. -/
def dropStale? (l : Layout) : Option Layout :=
  (l.inner.dropStale? l.cursor.place).bind fun inner =>
    (l.outer.mapM (Level.dropStale? l.cursor.place)).map fun outer =>
      { l with inner := inner, outer := outer }

/-- Remember that a key may begin here, if it may. -/
def beginKey? (l : Layout) : Option Layout :=
  if l.keyAllowed then
    l.inner.dropKey?.map fun inner =>
      let required := !l.inFlow && l.columns.head? == some l.cursor.place.column
      { l with inner := { before := inner.all, keyStart? := some ⟨l.cursor.place, required⟩ } }
  else some l

/-! ### Indentation -/

/-- Whether a column opens a new collection. -/
def opensAt (column : Nat) (l : Layout) : Bool :=
  !l.inFlow && l.columns.head?.all fun outer => decide (outer < column)

/-- A collection by indentation at the current column, unless it is open already. -/
def openBlock (t : Token) (l : Layout) : Layout :=
  let column := l.cursor.place.column
  if l.opensAt column then { l.push t with columns := column :: l.columns } else l

/-- Close the collections that begin in some of the columns. -/
def closeWhile (closes : Nat → Bool) (l : Layout) : Layout :=
  if l.inFlow then l
  else
    let closed := (l.columns.takeWhile closes).length
    { l with
      columns := l.columns.drop closed
      inner := { l.inner with since := List.replicate closed .closeBlock ++ l.inner.since } }

/-- Close the collections that begin to the right of the current column. -/
def closeRight (l : Layout) : Layout :=
  l.closeWhile fun column => decide (l.cursor.place.column < column)

/-- Close all collections. -/
def closeAll (l : Layout) : Layout := l.closeWhile fun _ => true

/-! ### Tokens of one kind each -/

/-- A directive of the document. -/
def directive? (l : Layout) : Option Layout :=
  l.closeAll.dropKey?.bind fun l =>
    (Yaml.directive? l.cursor).map fun (t, cur) => ((l.push t).moveTo cur).allowKey false

/-- The mark of three characters at which a document begins or ends. -/
def documentMark? (t : Token) (l : Layout) : Option Layout :=
  l.closeAll.dropKey?.map fun l => ((l.push t).moveTo (l.cursor.skip 3)).allowKey false

/-- A bracket that opens a collection, which can be a key. -/
def openBracket? (t : Token) (l : Layout) : Option Layout :=
  l.beginKey?.map fun l =>
    { l.moveTo l.cursor.next with
      keyAllowed := true, inner := {}, outer := l.inner.push t :: l.outer }

/-- A bracket that closes a collection. -/
def closeBracket? (t : Token) (l : Layout) : Option Layout :=
  l.dropKey?.map fun l =>
    let l := (l.moveTo l.cursor.next).allowKey false
    match l.outer with
    | [] => l.push t
    | level :: outer =>
      { l with inner := { level with since := t :: (l.inner.all ++ level.since) }, outer := outer }

/-- A comma. -/
def comma? (l : Layout) : Option Layout :=
  l.dropKey?.map fun l => ((l.push .comma).moveTo l.cursor.next).allowKey true

/-- The dash of an item. -/
def dash? (l : Layout) : Option Layout :=
  if l.inFlow || l.keyAllowed then
    (l.openBlock .openBlockSequence).dropKey?.map fun l =>
      ((l.push .dash).moveTo l.cursor.next).allowKey true
  else none

/-- The question mark of a key. -/
def key? (l : Layout) : Option Layout :=
  if l.inFlow || l.keyAllowed then
    (l.openBlock .openBlockMapping).dropKey?.map fun l =>
      ((l.push .key).moveTo l.cursor.next).allowKey !l.inFlow
  else none

/-- The colon of a value. It makes a key of what stands in front of it, or else there was a question
mark. -/
def value? (l : Layout) : Option Layout :=
  match l.inner.keyStart? with
  | some k =>
    let opens := l.opensAt k.place.column
    let marks : List Token := if opens then [.key, .openBlockMapping] else [.key]
    let columns := if opens then k.place.column :: l.columns else l.columns
    let l := { l with inner := l.inner.insertKey marks, columns := columns }
    some (((l.push .value).moveTo l.cursor.next).allowKey false)
  | none =>
    if l.inFlow || l.keyAllowed then
      let l := l.openBlock .openBlockMapping
      some (((l.push .value).moveTo l.cursor.next).allowKey !l.inFlow)
    else none

/-- A name that refers to a node or names one. -/
def name? (t : String → Token) (l : Layout) : Option Layout :=
  l.beginKey?.bind fun l =>
    (anchorName? l.cursor.next).map fun (name, cur) => ((l.push (t name)).moveTo cur).allowKey false

/-- The tag of a node. -/
def tag? (l : Layout) : Option Layout :=
  l.beginKey?.bind fun l =>
    (Yaml.tag? l.inFlow l.cursor).map fun (tag, cur) =>
      ((l.push (.tag tag)).moveTo cur).allowKey false

/-- A scalar by indentation. -/
def indented? (folded : Bool) (l : Layout) : Option Layout :=
  l.dropKey?.bind fun l =>
    (Yaml.indented? folded l.columns.head? l.cursor.next).map fun (text, cur) =>
      let style : Style := if folded then .folded else .literal
      ((l.push (.scalar style (String.ofList text))).moveTo cur).allowKey true

/-- A scalar in quotes. -/
def quoted? (l : Layout) : Option Layout :=
  l.beginKey?.bind fun l =>
    (Yaml.quoted? l.cursor).map fun (text, cur) =>
      ((l.push (.scalar .quoted (String.ofList text))).moveTo cur).allowKey false

/-- A scalar without quotes. -/
def plain? (l : Layout) : Option Layout :=
  l.beginKey?.bind fun l =>
    (Yaml.plain? ⟨l.inFlow, l.indent⟩ l.cursor).map fun s =>
      ((l.push (.scalar .plain (String.ofList s.text))).moveTo s.cursor).allowKey s.endsLine

/-! ### All tokens -/

/-- The next token, which begins with a character under the cursor. -/
def token? (c : Char) (rest : List Char) (l : Layout) : Option Layout :=
  let isFirst := l.cursor.place.column == 0
  if isFirst && c == '%' then l.directive?
  else if isFirst && isTriple '-' (c :: rest) then l.documentMark? .documentStart
  else if isFirst && isTriple '.' (c :: rest) then l.documentMark? .documentEnd
  else if c == '[' then l.openBracket? .openSequence
  else if c == '\x7b' then l.openBracket? .openMapping
  else if c == ']' then l.closeBracket? .closeSequence
  else if c == '\x7d' then l.closeBracket? .closeMapping
  else if c == ',' then l.comma?
  else if c == '-' && endsWord rest.head? then l.dash?
  else if c == '?' && (l.inFlow || endsWord rest.head?) then l.key?
  else if c == ':' && (l.inFlow || endsWord rest.head?) then l.value?
  else if c == '*' then l.name? .reference
  else if c == '&' then l.name? .anchor
  else if c == '!' then l.tag?
  else if c == '|' && !l.inFlow then l.indented? false
  else if c == '>' && !l.inFlow then l.indented? true
  else if c == '\'' || c == '"' then l.quoted?
  else if beginsPlain l.inFlow (c :: rest) then l.plain?
  else none

/-- The tokens of a text that ends here. No bracket may be open. -/
def finish? (l : Layout) : Option (List Token) :=
  if l.inFlow then none else l.closeAll.dropKey?.map fun l => l.inner.all.reverse

/-- The tokens of a text, of which at most `fuel` are left. -/
def tokensFrom? : Nat → Layout → Option (List Token)
  | 0, _ => none
  | fuel + 1, l =>
    l.skipGap.dropStale?.bind fun l =>
      let l := l.closeRight
      match l.cursor.rest with
      | [] => l.finish?
      | c :: rest => (l.token? c rest).bind (tokensFrom? fuel)

end Layout

/-- The tokens of a text; none if it has a character or a layout that is not allowed. -/
def tokens? (s : String) : Option (List Token) :=
  let cs := s.toList
  if cs.all isAllowed then
    Layout.tokensFrom? (cs.length + 1) { cursor := Cursor.start (unifyBreaks cs) }
  else none

end ChipEight.Yaml
