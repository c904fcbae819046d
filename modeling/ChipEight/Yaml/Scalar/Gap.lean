import ChipEight.Yaml.Character

/-!
# Gaps between words

A scalar may go on over several lines. Blanks between two words of a line belong to the
scalar; where lines end between two words, the blanks around the line break do not, a
single line break stands for a blank, and of several the first one is left out.
-/

namespace ChipEight.Yaml

/-- What stands between two words of a scalar. Its characters are kept in reverse. -/
inductive Gap
  /-- Blanks within a line. -/
  | blanks (reversed : List Char)
  /-- Line breaks; the first one is absent if it was escaped. -/
  | breaks (first : Option Char) (reversed : List Char)
  deriving DecidableEq, Repr

namespace Gap

/-- Nothing at all. -/
def empty : Gap := blanks []

/-- An escaped line break. -/
def escapedBreak : Gap := breaks none []

/-- Whether lines end in a gap. -/
def isBroken : Gap → Bool
  | blanks _ => false
  | breaks _ _ => true

/-- A gap with one more blank or line break at its end. -/
def push (c : Char) : Gap → Gap
  | blanks reversed => if isBreak c then breaks (some c) [] else blanks (c :: reversed)
  | breaks first reversed =>
    if isBreak c then breaks first (c :: reversed) else breaks first reversed

/-- What a gap adds to a scalar, whose characters so far are given in reverse. -/
def behind (text : List Char) : Gap → List Char
  | blanks reversed => reversed ++ text
  | breaks none reversed => reversed ++ text
  | breaks (some '\n') [] => ' ' :: text
  | breaks (some '\n') reversed => reversed ++ text
  | breaks (some c) reversed => reversed ++ c :: text

end Gap

end ChipEight.Yaml
