/-!
# Characters of a document

The classes of characters that the layout of a document is made of. Line breaks are
written in several ways; `unifyBreaks` leaves one of them, and two more that stand for
themselves.
-/

namespace ChipEight.Yaml

/-- A blank inside a line. -/
def isBlank (c : Char) : Bool := c == ' ' || c == '\t'

/-- A character that ends a line. -/
def isBreak (c : Char) : Bool := c == '\n' || c == '\u2028' || c == '\u2029'

/-- A blank or a line break. -/
def isSpace (c : Char) : Bool := isBlank c || isBreak c

/-- The mark by which a file may show the order of its bytes. -/
def byteOrderMark : Char := '\ufeff'

/-- Whether a word ends before the next character, if there is one. -/
def endsWord (next : Option Char) : Bool := next.all isSpace

/-- A letter, a digit, a dash or an underscore: what names are made of. -/
def isNameChar (c : Char) : Bool := c.isAlphanum || c == '-' || c == '_'

/-- A bracket or a comma, which bracketed collections are made of. -/
def isFlowMark (c : Char) : Bool := c == ',' || c == '[' || c == ']' || c == '\x7b' || c == '\x7d'

/-- A character that has a meaning of its own at the start of a node. -/
def isIndicator (c : Char) : Bool :=
  isFlowMark c || "-?:#&*!|>'\"%@`".toList.contains c

/-- A character that may stand in a document. -/
def isAllowed (c : Char) : Bool :=
  let n := c.toNat
  c == '\t' || c == '\n' || c == '\r' || c == '\x85' ||
    (0x20 ≤ n && n < 0x7F) || (0xA0 ≤ n && n != 0xFFFE && n != 0xFFFF)

/-- Carriage returns end a line by themselves or together with the line feed after them, and so does
the control character for the next line. -/
def unifyBreaks : List Char → List Char
  | [] => []
  | '\r' :: '\n' :: rest => '\n' :: unifyBreaks rest
  | '\r' :: rest => '\n' :: unifyBreaks rest
  | '\x85' :: rest => '\n' :: unifyBreaks rest
  | c :: rest => c :: unifyBreaks rest

/-- Three marks of a kind that stand by themselves. -/
def isTriple (mark : Char) : List Char → Bool
  | a :: b :: c :: rest => a == mark && b == mark && c == mark && endsWord rest.head?
  | _ => false

/-- The marks by which a document begins or ends. -/
def isDocumentMark (cs : List Char) : Bool := isTriple '-' cs || isTriple '.' cs

end ChipEight.Yaml
