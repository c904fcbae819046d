import ChipEight.Text.Numeral
import ChipEight.Yaml.Node

/-!
# Values

The ways in which a scalar stands for nothing or for an unsigned number. A number may
have a plus sign; it is hexadecimal, octal or binary behind `0x`, `0o` or `0b`, and
decimal otherwise. A decimal number has no leading zeros. In quotes or by indentation a
scalar is text, unless it is literal and has the type of numbers.
-/

namespace ChipEight.Yaml

/-- The spellings of nothing. -/
def isNull (s : String) : Bool := s == "~" || s == "null" || s == "Null" || s == "NULL"

/-- A decimal numeral without leading zeros. -/
def decimal? : List Char → Option Nat
  | '0' :: _ :: _ => none
  | cs => Numeral.read? 10 cs

/-- The number that a numeral stands for. -/
def unsigned? (s : String) : Option Nat :=
  match Numeral.dropPlus s.toList with
  | '0' :: 'x' :: rest => Numeral.read? 16 rest
  | '0' :: 'o' :: rest => Numeral.read? 8 rest
  | '0' :: 'b' :: rest => Numeral.read? 2 rest
  | cs => decimal? cs

namespace Scalar

/-- The type of numbers. -/
def numberType : String := "tag:yaml.org,2002:int"

/-- The type of nothing. -/
def nullType : String := "tag:yaml.org,2002:null"

/-- Whether a scalar can stand for a number. -/
def isNumeric (s : Scalar) : Bool :=
  s.style == .plain || (s.style == .literal && s.tag? == some numberType)

/-- The number of 64 bits that a scalar stands for. -/
def wide? (s : Scalar) : Option UInt64 :=
  if s.isNumeric then (unsigned? s.text).bind Numeral.wide? else none

/-- Whether a scalar stands for nothing, as an empty place does. A scalar with the type of nothing
has to be one of its spellings. -/
def isNothing? (s : Scalar) : Option Bool :=
  if s.style != .plain then some false
  else
    match s.tag? with
    | none => some (s.text == "" || isNull s.text)
    | some type =>
      if type != nullType then some false else if isNull s.text then some true else none

/-- The number of 64 bits that a scalar stands for, where it may also stand for nothing. -/
def optionalWide? (s : Scalar) : Option (Option UInt64) :=
  s.isNothing?.bind fun isNothing => if isNothing then some none else s.wide?.map some

end Scalar

namespace Node

/-- The number of 64 bits that a node stands for. -/
def wide? (n : Node) : Option UInt64 := n.scalar?.bind Scalar.wide?

/-- The number of 64 bits that a node stands for, where it may also stand for nothing. -/
def optionalWide? (n : Node) : Option (Option UInt64) := n.scalar?.bind Scalar.optionalWide?

end Node

end ChipEight.Yaml
