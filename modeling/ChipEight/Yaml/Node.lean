import ChipEight.Yaml.Token

/-!
# Document trees

What a document says, once its layout is gone. Scalars keep how they were written, since
only some of them can stand for a number or for nothing; an empty place is the plain
scalar without characters. A node that has a name is marked with the number of the name,
and a reference to it has the same number.
-/

namespace ChipEight.Yaml

/-- A scalar. -/
structure Scalar where
  /-- Its characters. -/
  text : String
  /-- How it was written. -/
  style : Style
  /-- The name of its type, if one was given. -/
  tag? : Option String := none
  deriving DecidableEq, Repr

/-- A part of a document. -/
inductive Node
  /-- A scalar. -/
  | scalar (value : Scalar)
  /-- Items in order. -/
  | sequence (items : List Node)
  /-- Keys with their values, in order. -/
  | mapping (entries : List (Node × Node))
  /-- A node that is referred to by a number. -/
  | anchored (number : Nat) (node : Node)
  /-- A reference to the node with a number. -/
  | reference (number : Nat)

namespace Node

/-- A scalar without quotes. -/
def plain (text : String) : Node := scalar ⟨text, .plain, none⟩

/-- The place where nothing is written. -/
def empty : Node := plain ""

/-- The node itself, without the mark that it is referred to. -/
def bare : Node → Node
  | anchored _ n => n.bare
  | n => n

mutual

/-- The nodes inside a node that have a number, in the order in which they begin. -/
def anchors : Node → List (Nat × Node)
  | scalar _ => []
  | sequence items => anchorsOfItems items
  | mapping entries => anchorsOfEntries entries
  | anchored number n => (number, n) :: n.anchors
  | reference _ => []

/-- The nodes inside some items that have a number. -/
def anchorsOfItems : List Node → List (Nat × Node)
  | [] => []
  | n :: rest => n.anchors ++ anchorsOfItems rest

/-- The nodes inside some entries that have a number. -/
def anchorsOfEntries : List (Node × Node) → List (Nat × Node)
  | [] => []
  | (key, value) :: rest => key.anchors ++ value.anchors ++ anchorsOfEntries rest

end

/-- The node that a number refers to: the last one that has it. -/
def find? (root : Node) (number : Nat) : Option Node :=
  (root.anchors.reverse.find? fun a => a.1 == number).map fun a => a.2.bare

/-- What a node in a document stands for: itself or, if it is a reference, the node it refers to. -/
def target (root : Node) (n : Node) : Node :=
  match n.bare with
  | reference number => (root.find? number).getD (reference number)
  | n => n

/-- The scalar that a node is, if it is one. -/
def scalar? : Node → Option Scalar
  | scalar s => some s
  | _ => none

end Node

end ChipEight.Yaml
