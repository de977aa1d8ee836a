import KeyCustody.Toml.Number
import KeyCustody.Toml.Table
import KeyCustody.Toml.Text

/-!
# Documents in TOML

A document is a sequence of lines. A line is blank, or a header, or a key with a value, and may
end in a comment. A value may itself hold values, down to a limited depth.

## Main definitions

* `Toml.value` — values
* `Toml.Line`, `Toml.lines` — the lines of a document
* `Toml.parse` — the named values of a document
-/

namespace KeyCustody.Toml

/-! ## Values -/

/-- A character of a value without quotes or brackets. -/
def isBareValueCharacter (c : Char) : Bool :=
  c.isAlphanum || c == '_' || c == '+' || c == '-' || c == '.' || c == ':'

/-- The value of a run of such characters. -/
def bareValue? (s : List Char) : Option ConfigValue :=
  if s = ['t', 'r', 'u', 'e'] then some (.flag true)
  else if s = ['f', 'a', 'l', 's', 'e'] then some (.flag false)
  else if isInteger s || isDecimal s then some (.number (String.ofList s))
  else if isDate s || isTime s || isDateTime s then some (.moment (String.ofList s))
  else none

/-- A value without quotes or brackets. A blank may stand between a date and a time of day. -/
def bareValue : Reader ConfigValue := fun s => do
  let run := s.takeWhile isBareValueCharacter
  let rest := s.dropWhile isBareValueCharacter
  match rest with
  | ' ' :: later =>
    let second := later.takeWhile isBareValueCharacter
    if isDate run ∧ isOffsetTime second then
      some (.moment (String.ofList (run ++ ' ' :: second)),
        later.dropWhile isBareValueCharacter)
    else (bareValue? run).map (·, rest)
  | _ => (bareValue? run).map (·, rest)

/-- A key and its value in a table that is written as a value. -/
def inlineField (value : Reader ConfigValue) : Reader (List String × ConfigValue) := fun s => do
  let (k, rest) ← key s
  match rest with
  | '=' :: later =>
    let (v, rest) ← value (skipBlanks later)
    some ((k, v), rest)
  | _ => none

/-- The level that keys and values make on their own. -/
def inlineTable? (fields : List (List String × ConfigValue)) : Option ConfigValue := do
  let nodes ← fields.foldlM (fun nodes (k, v) => addField [] k v nodes) []
  some (.level (valuesOfFields nodes))

/-- A value, whose lists and tables hold values of the given kind, if any at all. -/
def valueOf (inner : Option (Reader ConfigValue)) : Reader ConfigValue
  | '[' :: rest => do
    let (l, rest) ← Reader.delimited skipLines true (← inner) ']' rest
    some (.list l, rest)
  | '{' :: rest => do
    let (l, rest) ← Reader.delimited skipBlanks false (inlineField (← inner)) '}' rest
    some (← inlineTable? l, rest)
  | '"' :: rest => (string ('"' :: rest)).map fun (t, rest) => (.text t, rest)
  | '\'' :: rest => (string ('\'' :: rest)).map fun (t, rest) => (.text t, rest)
  | s => bareValue s

/-- A value, in which lists and tables are nested up to the given depth. -/
def valueWithin : Nat → Reader ConfigValue
  | 0 => valueOf none
  | depth + 1 => valueOf (some (valueWithin depth))

/-- A value. -/
def value : Reader ConfigValue := valueWithin (depthLimit - 1)

/-! ## Lines -/

/-- A line that is not blank. -/
inductive Line
  | header (path : List String)
  | listHeader (path : List String)
  | field (key : List String) (v : ConfigValue)

/-- A line, without what may stand before and after it. -/
def line : Reader Line
  | '[' :: '[' :: rest => do
    let (path, rest) ← key rest
    match rest with
    | ']' :: ']' :: rest => some (.listHeader path, rest)
    | _ => none
  | '[' :: rest => do
    let (path, rest) ← key rest
    match rest with
    | ']' :: rest => some (.header path, rest)
    | _ => none
  | s => do
    let ((k, v), rest) ← inlineField value s
    some (.field k v, rest)

/-- The lines of a document that are not blank, gathered in reverse. -/
def linesFrom? (gathered : List Line) (s : List Char) : Option (List Line) :=
  match skipLines s with
  | [] => some gathered.reverse
  | start =>
    match line start with
    | none => none
    | some (l, rest) =>
      match endOfLine? rest with
      | none => none
      | some later =>
        if later.length < s.length then linesFrom? (l :: gathered) later else none
termination_by s.length

/-- The lines of a document that are not blank. A mark of byte order may stand in front. -/
def lines? (s : List Char) : Option (List Line) :=
  match s with
  | c :: rest => linesFrom? [] (if c.toNat = 0xfeff then rest else s)
  | [] => some []

/-! ## Documents -/

/-- What a document has built, and the header that its next line stands under. -/
structure Building where
  header : List String
  nodes : Nodes

/-- Adds a line. -/
def Building.add (b : Building) : Line → Option Building
  | .header path => (addHeader path b.nodes).map (⟨path, ·⟩)
  | .listHeader path => (addListHeader path b.nodes).map (⟨path, ·⟩)
  | .field key v => (addField b.header key v b.nodes).map (⟨b.header, ·⟩)

/-- The named values of a document. -/
def parse (s : String) : Option ConfigValue.Fields := do
  let l ← lines? s.toList
  let b ← l.foldlM Building.add ⟨[], []⟩
  some (valuesOfFields b.nodes)

end KeyCustody.Toml
