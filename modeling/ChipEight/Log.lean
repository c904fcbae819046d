/-!
# Log entries

What is logged has a level and a message. An entry is written with its level in front.
-/

namespace ChipEight

/-- How much an entry matters. -/
inductive Level
  /-- For finding out what happens inside. -/
  | debug
  /-- For knowing what is done. -/
  | info
  /-- Something looks wrong and is passed over. -/
  | warn
  /-- Something could not be done. -/
  | error
  deriving DecidableEq, Repr

/-- The name of a level. -/
def Level.text : Level → String
  | debug => "DEBUG"
  | info => "INFO"
  | warn => "WARN"
  | error => "ERROR"

/-- Something to be logged. -/
structure Entry where
  /-- How much it matters. -/
  level : Level
  /-- What it says. -/
  message : String
  deriving DecidableEq, Repr

/-- An entry as it is written. -/
def Entry.text (e : Entry) : String := e.level.text ++ " " ++ e.message

end ChipEight
