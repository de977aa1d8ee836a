import KeyCustody.Settings.Value
import KeyCustody.Settings.Variable

/-!
# Layers of configuration

Each place that settings come from is a layer of named values, and layers are put on top of each
other: a value hides the one below, but two levels of the same name are joined, name by name.

## Main definitions

* `ConfigValue.overlay`, `ConfigValue.overFields` — one layer on top of another
* `ConfigValue.ofPath` — a layer that gives one value
* `ConfigValue.ofEnvironment` — the layer of the environment
-/

namespace KeyCustody.ConfigValue

/-- Puts a value under a name, instead of the one that is there. -/
def setField (name : String) (v : ConfigValue) : Fields → Fields
  | [] => [(name, v)]
  | (n, w) :: rest => if n = name then (name, v) :: rest else (n, w) :: setField name v rest

mutual

/-- A value on top of another, if there is another. -/
def overlay (lower : Option ConfigValue) : ConfigValue → ConfigValue
  | .level upper =>
    match lower with
    | some (.level fields) => .level (overFields fields upper)
    | _ => .level (overFields [] upper)
  | .text s => .text s
  | .flag b => .flag b
  | .number s => .number s
  | .moment s => .moment s
  | .list l => .list l

/-- Named values on top of others. -/
def overFields (lower : Fields) : Fields → Fields
  | [] => lower
  | (name, v) :: rest => overFields (setField name (overlay (lower.lookup name) v) lower) rest

end

/-- The named values that give one value, at the end of a path. -/
def ofPath : List String → ConfigValue → ConfigValue
  | [], v => v
  | name :: path, v => .level [(name, ofPath path v)]

/-- The named values that one variable gives. -/
def ofVariable (name written : String) : Fields :=
  match Variable.path? name with
  | some (first :: path) => [(first, ofPath path (Variable.value written))]
  | _ => []

/-- The named values that the variables of an environment give, later ones on top. -/
def ofEnvironment (environment : List (String × String)) : Fields :=
  environment.foldl (fun fields (name, written) => overFields fields (ofVariable name written)) []

end KeyCustody.ConfigValue
