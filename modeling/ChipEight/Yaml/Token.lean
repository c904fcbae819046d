import ChipEight.Yaml.Cursor

/-!
# Tokens

A document is a sequence of tokens. Indentation has become brackets like the others, and
keys have a token in front, so that what a document says no longer depends on where its
parts stand.
-/

namespace ChipEight.Yaml

/-- How a scalar is written. -/
inductive Style
  /-- Without quotes. -/
  | plain
  /-- In quotes of either kind. -/
  | quoted
  /-- By indentation, with its line breaks. -/
  | literal
  /-- By indentation, with line breaks that stand for blanks. -/
  | folded
  deriving DecidableEq, Repr

/-- What is said about the type of a node. -/
structure Tag where
  /-- The handle, which stands for the beginning of the name. -/
  handle : String
  /-- The rest of the name. -/
  suffix : String
  deriving DecidableEq, Repr

/-- A token of a document. -/
inductive Token
  /-- The version of the rules that a document follows. -/
  | version (major minor : Nat)
  /-- What a handle stands for. -/
  | handle (name meaning : String)
  /-- The mark before a document. -/
  | documentStart
  /-- The mark after a document. -/
  | documentEnd
  /-- The beginning of a sequence by indentation. -/
  | openBlockSequence
  /-- The beginning of a mapping by indentation. -/
  | openBlockMapping
  /-- The end of a collection by indentation. -/
  | closeBlock
  /-- The beginning of a sequence between brackets. -/
  | openSequence
  /-- The end of a sequence between brackets. -/
  | closeSequence
  /-- The beginning of a mapping between brackets. -/
  | openMapping
  /-- The end of a mapping between brackets. -/
  | closeMapping
  /-- What divides the members of a collection between brackets. -/
  | comma
  /-- What begins an item of a sequence by indentation. -/
  | dash
  /-- What begins a key. -/
  | key
  /-- What begins the value of a key. -/
  | value
  /-- A node that was given a name before. -/
  | reference (name : String)
  /-- The name of the node that follows. -/
  | anchor (name : String)
  /-- The type of the node that follows. -/
  | tag (tag : Tag)
  /-- A scalar. -/
  | scalar (style : Style) (text : String)
  deriving DecidableEq, Repr

end ChipEight.Yaml
