/-!
# Configuration values

Settings come from places that can say more than settings need: a value may be a text, a flag,
a number, a moment in time, a list of values, or a level of named values. Numbers and moments are
never used, so they are kept as they are written.

## Main definitions

* `ConfigValue` — a value
* `ConfigValue.Fields` — the named values of a level
-/

namespace KeyCustody

/-- A value in a configuration. -/
inductive ConfigValue
  | text (s : String)
  | flag (b : Bool)
  | number (written : String)
  | moment (written : String)
  | list (l : List ConfigValue)
  | level (fields : List (String × ConfigValue))
deriving Inhabited, Repr

namespace ConfigValue

/-- Named values. -/
abbrev Fields := List (String × ConfigValue)

end ConfigValue

end KeyCustody
