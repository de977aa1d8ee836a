import KeyCustody.Settings.Value

/-!
# Tables in TOML

A document builds one tree of tables. A table may come up on the way to another one, in a header
or in a key with dots, before it gets a header of its own; each table gets at most one. Keys with
dots may add to what such keys have begun, but not to a table with a header, and a header cannot
take over what keys with dots have begun. Values, and tables and lists that are written as values,
are closed. A header in double brackets adds another table to a list of tables, and the last of
them is the one that later headers and keys lead into.

## Main definitions

* `Toml.Node`, `Toml.Origin` — a tree under construction, and how a table in it came up
* `Toml.addField`, `Toml.addHeader`, `Toml.addListHeader` — what the lines of a document add
* `Toml.Node.toValue` — the finished tree
-/

namespace KeyCustody.Toml

/-- How a table came up. -/
inductive Origin
  /-- It has a header, or it is the whole document. -/
  | header
  /-- It was on the way in a header. -/
  | headerPath
  /-- It was on the way in a key with dots. -/
  | keyPath
deriving DecidableEq, Repr

/-- A tree under construction. -/
inductive Node
  /-- A closed value. -/
  | value (v : ConfigValue)
  | table (origin : Origin) (fields : List (String × Node))
  /-- A list of tables that have headers, the last one first. -/
  | tables (elements : List (List (String × Node)))

/-- The nodes of a table, by name. -/
abbrev Nodes := List (String × Node)

/-- Puts a node under a name, instead of the one that is there. -/
def setNode (name : String) (node : Node) : Nodes → Nodes
  | [] => [(name, node)]
  | (n, m) :: rest => if n = name then (name, node) :: rest else (n, m) :: setNode name node rest

/-- Changes the table that a path leads to. Tables that are missing on the way come up with the
origin given for such a path. Neither path leads through a value, and the path of a key does not
lead through a table with a header of its own. -/
def changeAt (way : Origin) (change : Origin → Nodes → Option Nodes) :
    List String → Origin → Nodes → Option Nodes
  | [], origin, fields => change origin fields
  | name :: path, _, fields =>
    match fields.lookup name with
    | none =>
      (changeAt way change path way []).map fun f => setNode name (.table way f) fields
    | some (.value _) => none
    | some (.table origin inner) =>
      if way = .keyPath ∧ origin = .header then none
      else
        (changeAt way change path origin inner).map fun f =>
          setNode name (.table origin f) fields
    | some (.tables []) => none
    | some (.tables (last :: earlier)) =>
      (changeAt way change path .header last).map fun f =>
        setNode name (.tables (f :: earlier)) fields

/-- Adds a value under a new name to a table. A key with dots may add only to a table that such
keys have begun, and a key without dots only to another. -/
def addValue (dotted : Bool) (name : String) (v : ConfigValue) (origin : Origin) (fields : Nodes) :
    Option Nodes :=
  if (origin = .keyPath ↔ dotted) ∧ (fields.lookup name).isNone then
    some (setNode name (.value v) fields)
  else none

/-- Adds a value under a key to the table that a header leads to. -/
def addField (header key : List String) (v : ConfigValue) (root : Nodes) : Option Nodes :=
  match key.getLast? with
  | none => none
  | some name =>
    let path := key.dropLast
    let add := addValue (path ≠ []) name v
    changeAt .headerPath (changeAt .keyPath add path) header .header root

/-- Gives a table of a table its header. -/
def openTable (name : String) (_ : Origin) (fields : Nodes) : Option Nodes :=
  match fields.lookup name with
  | none => some (setNode name (.table .header []) fields)
  | some (.table .headerPath inner) => some (setNode name (.table .header inner) fields)
  | some _ => none

/-- Adds another table to a list of tables. -/
def openElement (name : String) (_ : Origin) (fields : Nodes) : Option Nodes :=
  match fields.lookup name with
  | none => some (setNode name (.tables [[]]) fields)
  | some (.tables elements) => some (setNode name (.tables ([] :: elements)) fields)
  | some _ => none

/-- Adds a header. -/
def addHeader (path : List String) (root : Nodes) : Option Nodes :=
  match path.getLast? with
  | none => none
  | some name => changeAt .headerPath (openTable name) path.dropLast .header root

/-- Adds a header in double brackets. -/
def addListHeader (path : List String) (root : Nodes) : Option Nodes :=
  match path.getLast? with
  | none => none
  | some name => changeAt .headerPath (openElement name) path.dropLast .header root

mutual

/-- The value that a finished tree is. -/
def Node.toValue : Node → ConfigValue
  | .value v => v
  | .table _ fields => .level (valuesOfFields fields)
  | .tables elements => .list (valuesOfElements elements).reverse

/-- The named values of a finished table. -/
def valuesOfFields : Nodes → ConfigValue.Fields
  | [] => []
  | (name, node) :: rest => (name, node.toValue) :: valuesOfFields rest

/-- The levels that finished tables are. -/
def valuesOfElements : List Nodes → List ConfigValue
  | [] => []
  | fields :: rest => .level (valuesOfFields fields) :: valuesOfElements rest

end

end KeyCustody.Toml
