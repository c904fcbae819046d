import ChipEight.Text.Printable

/-!
# Quoted text

Text taken from outside is shown between double quotes, with the characters escaped that
would not be seen or would end the quotation: the quote and the backslash behind a
backslash, the common controls by their letters, and what else cannot be seen by its
number in base sixteen.
-/

namespace ChipEight.Quoted

/-- A character as it stands between quotes. -/
def escape (c : Char) : List Char :=
  if c = '"' then ['\\', '"']
  else if c = '\\' then ['\\', '\\']
  else if c = '\n' then ['\\', 'n']
  else if c = '\t' then ['\\', 't']
  else if c = '\r' then ['\\', 'r']
  else if c = '\x00' then ['\\', '0']
  else if Printable.isPrintable c then [c]
  else ['\\', 'u', '\x7b'] ++ Nat.toDigits 16 c.toNat ++ ['\x7d']

/-- Text between quotes. -/
def text (s : String) : String := String.ofList (['"'] ++ s.toList.flatMap escape ++ ['"'])

end ChipEight.Quoted
