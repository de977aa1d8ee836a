import KeyCustody.Settings.Value
import KeyCustody.Text.Reader
import KeyCustody.Text.Segments
import KeyCustody.Text.Whitespace

/-!
# Environment variables as settings

A variable whose name begins with a fixed mark names a setting: the rest of its name is a path,
two underscores or a dot between its parts, and letter case does not matter. Its text is read as
a flag, a number, a list in brackets, a level in braces or a quoted text if it is one as a whole;
any other text stands for itself.

## Main definitions

* `Variable.path?` — the setting that a variable names
* `Variable.value` — the value that its text is
-/

namespace KeyCustody.Variable

/-! ## Names -/

/-- What the name of a setting's variable begins with, in any letter case. -/
def mark : List Char := "kmsign_".toList

/-- Replaces every two underscores by a dot. -/
def dotted : List Char → List Char
  | '_' :: '_' :: rest => '.' :: dotted rest
  | c :: rest => c :: dotted rest
  | [] => []

/-- The path that a variable names. A path with an empty part names nothing. -/
def path? (name : String) : Option (List String) :=
  let lower := name.toList.map Char.toLower
  if mark.isPrefixOf lower then
    let parts := Segments.cut '.' (dotted (lower.drop mark.length))
    if parts.contains [] then none else some (parts.map String.ofList)
  else none

/-! ## Texts without quotes or brackets -/

/-- One beyond the largest number without sign. -/
def unsignedLimit : Nat := 0x10000000000000000

/-- The size of the smallest number, which is below zero. -/
def signedLimit : Nat := 0x8000000000000000

/-- Whether a text is a whole number of 64 bits, with a sign or without. -/
def isWhole : List Char → Bool
  | '-' :: digits => within (signedLimit + 1) digits
  | '+' :: digits => within unsignedLimit digits
  | digits => within unsignedLimit digits
where
  /-- Whether digits are below a limit. -/
  within (limit : Nat) (digits : List Char) : Bool :=
    match Reader.natural? 10 digits with
    | some n => n < limit
    | none => false

/-- Whether a text is an exponent, or nothing. -/
def isExponent : List Char → Bool
  | [] => true
  | c :: rest =>
    let digits := match rest with
      | '+' :: r => r
      | '-' :: r => r
      | r => r
    (c == 'e' || c == 'E') && digits != [] && digits.all Char.isDigit

/-- Whether a text is a number with a point, which may have an exponent. There has to be a digit
on one side of the point. -/
def isPointed (s : List Char) : Bool :=
  let s := match s with
    | '+' :: r => r
    | '-' :: r => r
    | r => r
  match s.dropWhile Char.isDigit with
  | '.' :: fraction =>
    (s.head?.any Char.isDigit || fraction.head?.any Char.isDigit) &&
      isExponent (fraction.dropWhile Char.isDigit)
  | _ => false

/-- The value of a text without quotes or brackets. -/
def plain (s : List Char) : ConfigValue :=
  let s := Whitespace.trim s
  if isWhole s || isPointed s then .number (String.ofList s) else .text (String.ofList s)

/-! ## Texts with structure -/

/-- Drops ASCII whitespace. -/
def skip (s : List Char) : List Char := s.dropWhile Whitespace.isAscii

/-- A character that ends no value. -/
def isContent (c : Char) : Bool := c != ',' && c != '{' && c != '}' && c != '[' && c != ']'

/-- A character that a text in quotes may hold as it is. -/
def isQuotable (c : Char) : Bool := c == '\t' || (0x20 ≤ c.toNat && c.toNat != 0x7f)

/-- The characters of a quoted text up to the closing quote, gathered in reverse. -/
def quotedFrom (gathered : List Char) (s : List Char) : Option (String × List Char) :=
  match s with
  | [] => none
  | '"' :: rest => some (String.ofList gathered.reverse, rest)
  | '\\' :: rest =>
    match Reader.escape? rest with
    | some (c, later) =>
      if later.length ≤ rest.length then quotedFrom (c :: gathered) later else none
    | none => none
  | c :: rest => if isQuotable c then quotedFrom (c :: gathered) rest else none
termination_by s.length

/-- A name in a level: a quoted text, or letters, digits, hyphens and underscores. -/
def fieldName : Reader String
  | '"' :: rest => quotedFrom [] rest
  | s =>
    let bare := s.takeWhile fun c => c.isAlphanum || c == '_' || c == '-'
    if bare = [] then none else some (String.ofList bare, s.drop bare.length)

/-- A name and a value in a level. -/
def field (value : Reader ConfigValue) : Reader (String × ConfigValue) := fun s => do
  let (name, rest) ← fieldName (skip s)
  match skip rest with
  | '=' :: later =>
    let (v, rest) ← value (skip later)
    some ((name, v), skip rest)
  | _ => none

/-- A value, in which lists and levels are nested up to the given depth. -/
def valueWithin : Nat → Reader ConfigValue
  | 0 => fun _ => none
  | depth + 1 => fun s => do
    let (v, rest) ← match skip s with
      | 't' :: 'r' :: 'u' :: 'e' :: rest => some (.flag true, rest)
      | 'f' :: 'a' :: 'l' :: 's' :: 'e' :: rest => some (.flag false, rest)
      | '{' :: rest =>
        (Reader.delimited id true (field (valueWithin depth)) '}' rest).map fun (l, rest) =>
          (.level l, rest)
      | '[' :: rest =>
        (Reader.delimited id true (valueWithin depth) ']' rest).map fun (l, rest) =>
          (.list l, rest)
      | '"' :: rest => (quotedFrom [] rest).map fun (t, rest) => (.text t, rest)
      | start => some (plain (start.takeWhile isContent), start.dropWhile isContent)
    some (v, skip rest)

/-- The value that the text of a variable is. -/
def value (text : String) : ConfigValue :=
  let s := Whitespace.trim text.toList
  match valueWithin (s.length + 1) s with
  | some (v, []) => v
  | _ => .text (String.ofList s)

end KeyCustody.Variable
