import ChipEight.Yaml.Layout
import ChipEight.Yaml.Node

/-!
# Documents

`parse` reads a whole text, which holds at most one document: the tokens of the text are
put together to a tree. A place where a node could stand and none does is empty.
-/

namespace ChipEight.Yaml

/-- The tokens that are left of a document, and what is known from those before. -/
structure Input where
  /-- The tokens that are left. -/
  tokens : List Token
  /-- What the handles of tags stand for. -/
  handles : List (String × String)
  /-- The names that nodes were given, each once, with the numbers of the nodes. -/
  names : List (String × Nat) := []
  deriving DecidableEq, Repr

/-- What is said about a node in front of it. -/
structure Description where
  /-- The number of its name. -/
  number? : Option Nat
  /-- The name of its type. -/
  type? : Option String
  deriving DecidableEq, Repr

/-! ### Names and types -/

/-- A name and a tag in front of a node, in any order, and the tokens after them. -/
def properties : List Token → Option String × Option Tag × List Token
  | .anchor name :: .tag t :: rest => (some name, some t, rest)
  | .tag t :: .anchor name :: rest => (some name, some t, rest)
  | .anchor name :: rest => (some name, none, rest)
  | .tag t :: rest => (none, some t, rest)
  | rest => (none, none, rest)

namespace Input

/-- What a tag means; none if its handle stands for nothing. -/
def typeName? (i : Input) (t : Tag) : Option String :=
  if t.handle = "" then some t.suffix
  else (i.handles.lookup t.handle).map fun meaning => meaning ++ t.suffix

/-- Give a name to a node. Its number is how many different names were given before. -/
def giveName (name : String) (i : Input) : Input :=
  { i with names := (name, i.names.length) :: i.names.filter fun n => n.1 != name }

/-- What is said about the next node, and the input after that. -/
def describe? (i : Input) : Option (Description × Input) :=
  let (name?, tag?, rest) := properties i.tokens
  let type? := match tag? with
    | none => some none
    | some t => (i.typeName? t).map some
  type?.map fun type? =>
    match name? with
    | none => (⟨none, type?⟩, { i with tokens := rest })
    | some name => (⟨some i.names.length, type?⟩, { i.giveName name with tokens := rest })

end Input

namespace Description

/-- A scalar with the type that it was given. -/
def scalar (d : Description) (style : Style) (text : String) : Node :=
  .scalar ⟨text, style, d.type?⟩

/-- The node where a node is described and none stands. -/
def empty? (d : Description) : Option Node :=
  if d.number?.isNone && d.type?.isNone then none else some (.scalar ⟨"", .plain, d.type?⟩)

/-- A node with the number of its name. -/
def name (d : Description) (n : Node) : Node :=
  match d.number? with
  | none => n
  | some number => .anchored number n

end Description

/-! ### Empty places -/

/-- A token before which an item is empty. In a sequence that has the indentation of a key, the next
entry ends it too. -/
def endsItem (loose : Bool) : Token → Bool
  | .dash | .closeBlock => true
  | .key | .value => loose
  | _ => false

/-- A token before which a key or a value is empty. -/
def endsEntry : Token → Bool
  | .key | .value | .closeBlock => true
  | _ => false

/-- A token before which a value between brackets is empty. -/
def endsFlowValue (close : Token) (t : Token) : Bool := t == .comma || t == close

/-- A token before which a key between brackets is empty. -/
def endsFlowKey (close : Token) (t : Token) : Bool := t == .value || endsFlowValue close t

/-- The tokens of the next member between brackets, which has a comma in front unless it is the
first one. -/
def nextMember? (first : Bool) (ts : List Token) : Option (List Token) :=
  if first then some ts
  else
    match ts with
    | .comma :: rest => some rest
    | _ => none

/-! ### Nodes -/

mutual

/-- A node, in at most `fuel` steps. A collection by indentation cannot stand between brackets, and
one with the indentation of a key only behind that key. -/
def node : Nat → Bool → Bool → Input → Option (Node × Input)
  | 0, _, _, _ => none
  | fuel + 1, inBlock, loose, i =>
    match i.tokens with
    | .reference name :: rest =>
      (i.names.lookup name).map fun number => (.reference number, { i with tokens := rest })
    | _ =>
      i.describe?.bind fun (d, i) =>
        (content fuel inBlock loose d i).map fun (n, i) => (d.name n, i)

/-- A node without what is said about it. -/
def content : Nat → Bool → Bool → Description → Input → Option (Node × Input)
  | 0, _, _, _, _ => none
  | fuel + 1, inBlock, loose, d, i =>
    match i.tokens with
    | .scalar style text :: rest => some (d.scalar style text, { i with tokens := rest })
    | .openSequence :: rest =>
      (flowItems fuel true { i with tokens := rest }).map fun (items, i) => (.sequence items, i)
    | .openMapping :: rest =>
      (flowEntries fuel true { i with tokens := rest }).map fun (entries, i) =>
        (.mapping entries, i)
    | .openBlockSequence :: rest =>
      if inBlock then
        (blockItems fuel false { i with tokens := rest }).map fun (items, i) => (.sequence items, i)
      else d.empty?.map fun n => (n, i)
    | .openBlockMapping :: rest =>
      if inBlock then
        (blockEntries fuel { i with tokens := rest }).map fun (entries, i) => (.mapping entries, i)
      else d.empty?.map fun n => (n, i)
    | .dash :: _ =>
      if loose then (blockItems fuel true i).map fun (items, i) => (.sequence items, i)
      else d.empty?.map fun n => (n, i)
    | _ => d.empty?.map fun n => (n, i)

/-- A place for a node, which is empty before tokens of some kind. -/
def place : Nat → Bool → Bool → (Token → Bool) → Input → Option (Node × Input)
  | 0, _, _, _, _ => none
  | fuel + 1, inBlock, loose, ends, i =>
    if i.tokens.head?.any ends then some (.empty, i) else node fuel inBlock loose i

/-- The place behind a colon, if there is one. -/
def valuePlace : Nat → Bool → (Token → Bool) → Input → Option (Node × Input)
  | 0, _, _, _ => none
  | fuel + 1, inBlock, ends, i =>
    match i.tokens with
    | .value :: rest => place fuel inBlock inBlock ends { i with tokens := rest }
    | _ => some (.empty, i)

/-- The items of a sequence by indentation. If it has the indentation of a key, no token ends it. -/
def blockItems : Nat → Bool → Input → Option (List Node × Input)
  | 0, _, _ => none
  | fuel + 1, loose, i =>
    match i.tokens with
    | .dash :: rest =>
      (place fuel true false (endsItem loose) { i with tokens := rest }).bind fun (item, i) =>
        (blockItems fuel loose i).map fun (items, i) => (item :: items, i)
    | .closeBlock :: rest => some ([], if loose then i else { i with tokens := rest })
    | _ => if loose then some ([], i) else none

/-- The entries of a mapping by indentation. -/
def blockEntries : Nat → Input → Option (List (Node × Node) × Input)
  | 0, _ => none
  | fuel + 1, i =>
    match i.tokens with
    | .key :: rest =>
      (place fuel true true endsEntry { i with tokens := rest }).bind fun (key, i) =>
        (valuePlace fuel true endsEntry i).bind fun (value, i) =>
          (blockEntries fuel i).map fun (entries, i) => ((key, value) :: entries, i)
    | .closeBlock :: rest => some ([], { i with tokens := rest })
    | _ => none

/-- An entry that is an item between brackets. If there is no key behind the question mark, the
token that shows this is passed over. -/
def flowPair : Nat → Input → Option (Node × Input)
  | 0, _ => none
  | fuel + 1, i =>
    let key? :=
      if i.tokens.head?.any (endsFlowKey .closeSequence) then
        some (Node.empty, { i with tokens := i.tokens.drop 1 })
      else node fuel false false i
    key?.bind fun (key, i) =>
      (valuePlace fuel false (endsFlowValue .closeSequence) i).map fun (value, i) =>
        (.mapping [(key, value)], i)

/-- The items of a sequence between brackets. -/
def flowItems : Nat → Bool → Input → Option (List Node × Input)
  | 0, _, _ => none
  | fuel + 1, first, i =>
    match i.tokens with
    | .closeSequence :: rest => some ([], { i with tokens := rest })
    | ts =>
      (nextMember? first ts).bind fun ts =>
        match ts with
        | .closeSequence :: rest => some ([], { i with tokens := rest })
        | .key :: rest =>
          (flowPair fuel { i with tokens := rest }).bind fun (item, i) =>
            (flowItems fuel false i).map fun (items, i) => (item :: items, i)
        | ts =>
          (node fuel false false { i with tokens := ts }).bind fun (item, i) =>
            (flowItems fuel false i).map fun (items, i) => (item :: items, i)

/-- The entries of a mapping between brackets. A node that is not shown to be a key is one without a
value. -/
def flowEntries : Nat → Bool → Input → Option (List (Node × Node) × Input)
  | 0, _, _ => none
  | fuel + 1, first, i =>
    match i.tokens with
    | .closeMapping :: rest => some ([], { i with tokens := rest })
    | ts =>
      (nextMember? first ts).bind fun ts =>
        match ts with
        | .closeMapping :: rest => some ([], { i with tokens := rest })
        | .key :: rest =>
          (place fuel false false (endsFlowKey .closeMapping) { i with tokens := rest }).bind
            fun (key, i) =>
              (valuePlace fuel false (endsFlowValue .closeMapping) i).bind fun (value, i) =>
                (flowEntries fuel false i).map fun (entries, i) => ((key, value) :: entries, i)
        | ts =>
          (node fuel false false { i with tokens := ts }).bind fun (key, i) =>
            (flowEntries fuel false i).map fun (entries, i) => ((key, .empty) :: entries, i)

end

/-! ### Documents -/

/-- The handles that stand for something in every document. -/
def commonHandles : List (String × String) := [("!", "!"), ("!!", "tag:yaml.org,2002:")]

/-- What the directives in front of a document say about handles, and the tokens of the document.
There is one version at most, and a handle is explained once at most. -/
def directives? (versioned : Bool) (handles : List (String × String)) :
    List Token → Option (List (String × String) × List Token)
  | .version major minor :: rest =>
    if versioned || major != 1 || (minor != 1 && minor != 2) then none
    else directives? true handles rest
  | .handle name meaning :: rest =>
    if (handles.lookup name).isSome then none
    else directives? versioned ((name, meaning) :: handles) rest
  | .documentStart :: rest => some (handles, rest)
  | _ => none

/-- A token that stands in front of a document. -/
def startsDocument : Token → Bool
  | .version _ _ | .handle _ _ | .documentStart => true
  | _ => false

/-- A token before which a document is empty. -/
def endsDocument (t : Token) : Bool := t == .documentEnd || startsDocument t

/-- The node of a document, behind which nothing may stand but the marks for its end. -/
def root? (i : Input) : Option Node :=
  (node (5 * i.tokens.length + 5) true false i).bind fun (n, i) =>
    if i.tokens.all (· == .documentEnd) then some n else none

/-- The node of a document behind the mark for its beginning, which may be empty. -/
def rootOrEmpty? (i : Input) : Option Node :=
  if i.tokens.head?.all endsDocument then
    if i.tokens.all (· == .documentEnd) then some .empty else none
  else root? i

/-- The node of the only document in some tokens. -/
def Node.ofTokens? (ts : List Token) : Option Node :=
  if ts.isEmpty then some .empty
  else if ts.head?.any startsDocument then
    (directives? false [] ts).bind fun (handles, rest) =>
      rootOrEmpty? { tokens := rest, handles := handles ++ commonHandles }
  else root? { tokens := ts, handles := commonHandles }

/-- The node that a text holds; none if the text is no document. -/
def parse (s : String) : Option Node := (tokens? s).bind Node.ofTokens?

end ChipEight.Yaml
