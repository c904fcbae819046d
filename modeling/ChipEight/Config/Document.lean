import ChipEight.Config
import ChipEight.Yaml.Document
import ChipEight.Yaml.Value

/-!
# Configuration documents

A configuration is written as a mapping with three fields. A document may leave fields
out, which then keep their defaults, and may have fields that nobody knows, which are
passed over; a known field must not come twice. An empty document configures nothing.
-/

namespace ChipEight.Config

/-- A field of a configuration. -/
inductive Field
  /-- The frequency of the instruction clock. -/
  | clockFrequency
  /-- The frequency of the timer clock. -/
  | timerFrequency
  /-- The seed of the random words. -/
  | seed
  deriving DecidableEq, Repr

/-- The key of a field. -/
def Field.name : Field → String
  | clockFrequency => "clock_frequency"
  | timerFrequency => "timer_frequency"
  | seed => "rng_seed"

/-- The field with a key, if it is a known one. -/
def Field.ofName? (name : String) : Option Field :=
  [clockFrequency, timerFrequency, seed].find? fun f => f.name == name

/-- Why a document is no configuration. -/
inductive DocumentError
  /-- The text is no document. -/
  | malformed
  /-- The document is no mapping. -/
  | notMapping
  /-- A key is not a scalar. -/
  | badKey
  /-- A field comes twice. -/
  | duplicate (field : Field)
  /-- A field has a value that it cannot have. -/
  | badValue (field : Field)
  deriving DecidableEq, Repr

/-- What is said about a document that is no configuration. The wording is this library's own: it
stands in the place of the message that a YAML parser would give, and does not agree with it word for word. -/
def DocumentError.message : DocumentError → String
  | malformed => "not a well-formed document"
  | notMapping => "expected a mapping"
  | badKey => "expected a field name"
  | duplicate f => "duplicate field " ++ f.name
  | badValue f => f.name ++ ": expected an unsigned number of 64 bits"

/-- The configuration with a field set to what a node says. -/
def setField? (c : Config) (f : Field) (value : Yaml.Node) : Option Config :=
  match f with
  | .clockFrequency => value.optionalWide?.map fun v => { c with clockFrequency := v }
  | .timerFrequency => value.wide?.map fun v => { c with timerFrequency := v }
  | .seed => value.optionalWide?.map fun v => { c with seed := v }

/-- Take over the entries of a document one after the other, after the fields in `seen`. -/
def ofEntries (root : Yaml.Node) (c : Config) (seen : List Field) :
    List (Yaml.Node × Yaml.Node) → Except DocumentError Config
  | [] => .ok c
  | (key, value) :: rest =>
    match (root.target key).scalar? with
    | none => .error .badKey
    | some name =>
      match Field.ofName? name.text with
      | none => ofEntries root c seen rest
      | some f =>
        if f ∈ seen then .error (.duplicate f)
        else
          match c.setField? f (root.target value) with
          | none => .error (.badValue f)
          | some c => ofEntries root c (f :: seen) rest

/-- The configuration that a document holds. -/
def ofNode (root : Yaml.Node) : Except DocumentError Config :=
  match root.bare with
  | .scalar s => if s.text = "" ∧ s.style = .plain then .ok default else .error .notMapping
  | .mapping entries => ofEntries root default [] entries
  | _ => .error .notMapping

/-- The configuration that a text holds. -/
def read (s : String) : Except DocumentError Config :=
  match Yaml.parse s with
  | some node => ofNode node
  | none => .error .malformed

/-- An optional number as it is written in a document. -/
def optionText : Option UInt64 → String
  | none => "null"
  | some n => toString n.toNat

/-- A line of a document. -/
def fieldLine (f : Field) (value : String) : String := f.name ++ ": " ++ value ++ "\n"

/-- A configuration as a document, with all its fields. -/
def text (c : Config) : String :=
  fieldLine .clockFrequency (optionText c.clockFrequency) ++
    fieldLine .timerFrequency (toString c.timerFrequency.toNat) ++
    fieldLine .seed (optionText c.seed)

end ChipEight.Config
