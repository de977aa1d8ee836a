import KeyCustody.Text.Reader

/-!
# Blanks, keys and strings in TOML

A string is basic, between double quotes and with escapes, or literal, between single quotes and
as it stands. Either kind may stand between three quotes instead of one and then go over many
lines: a line end right after the opening is dropped, every other is a line feed, and one or two
quotes at a time are characters of the string, also right before the closing. In a basic string
over many lines a backslash at the end of a line drops the line end and all blanks and line ends
after it.

A key is a sequence of names between dots; a name is a string on one line, or a run of letters,
digits, hyphens and underscores.

## Main definitions

* `Toml.basicString`, `Toml.literalString`, `Toml.string` — strings
* `Toml.key` — keys
* `Toml.skipBlanks`, `Toml.skipLines` — what may stand between the parts of a document
-/

namespace KeyCustody.Toml

/-! ## Blanks and comments -/

/-- A space or a tab. -/
def isBlank (c : Char) : Bool := c == ' ' || c == '\t'

/-- A character that a line may hold: any but the control characters other than the tab. -/
def isLineCharacter (c : Char) : Bool := c == '\t' || (0x20 ≤ c.toNat && c.toNat != 0x7f)

/-- Drops spaces and tabs. -/
def skipBlanks (s : List Char) : List Char := s.dropWhile isBlank

/-- Strips a line end off the front: a line feed, or a carriage return with one. -/
def afterLineEnd? : List Char → Option (List Char)
  | '\n' :: rest => some rest
  | '\r' :: '\n' :: rest => some rest
  | _ => none

/-- Drops a comment, up to the end of the line. -/
def skipComment : List Char → List Char
  | '#' :: rest => rest.dropWhile isLineCharacter
  | s => s

/-- Drops blanks, line ends and comments; inside a comment only the line end matters. -/
def skipLinesFrom (inComment : Bool) : List Char → List Char
  | [] => []
  | '\n' :: rest => skipLinesFrom false rest
  | '\r' :: '\n' :: rest => skipLinesFrom false rest
  | c :: rest =>
    if inComment then if isLineCharacter c then skipLinesFrom true rest else c :: rest
    else if isBlank c then skipLinesFrom false rest
    else if c = '#' then skipLinesFrom true rest
    else c :: rest

/-- Drops blanks, line ends and comments. -/
def skipLines (s : List Char) : List Char := skipLinesFrom false s

/-- Strips blanks, a comment and the end of the line or of the document off the front. -/
def endOfLine? (s : List Char) : Option (List Char) :=
  match skipComment (skipBlanks s) with
  | [] => some []
  | rest => afterLineEnd? rest

/-! ## Strings on one line -/

/-- The characters of a basic string up to its closing quote, gathered in reverse. -/
def basicFrom (gathered : List Char) (s : List Char) : Option (String × List Char) :=
  match s with
  | [] => none
  | '"' :: rest => some (String.ofList gathered.reverse, rest)
  | '\\' :: rest =>
    match Reader.escape? rest with
    | some (c, later) =>
      if later.length ≤ rest.length then basicFrom (c :: gathered) later else none
    | none => none
  | c :: rest => if isLineCharacter c then basicFrom (c :: gathered) rest else none
termination_by s.length

/-- A basic string on one line. -/
def basicString : Reader String
  | '"' :: rest => basicFrom [] rest
  | _ => none

/-- A literal string on one line. -/
def literalString : Reader String
  | '\'' :: rest =>
    let content := rest.takeWhile fun c => isLineCharacter c && c != '\''
    match rest.dropWhile fun c => isLineCharacter c && c != '\'' with
    | '\'' :: later => some (String.ofList content, later)
    | _ => none
  | _ => none

/-! ## Strings over many lines -/

/-- Drops blanks and line ends. -/
def skipLineEnds : List Char → List Char
  | '\n' :: rest => skipLineEnds rest
  | '\r' :: '\n' :: rest => skipLineEnds rest
  | c :: rest => if isBlank c then skipLineEnds rest else c :: rest
  | [] => []

/-- What a backslash at the end of a line leaves: the text from the next character that is
neither blank nor a line end. -/
def afterFoldedLine? (s : List Char) : Option (List Char) :=
  (afterLineEnd? (skipBlanks s)).map skipLineEnds

/-- The characters of a string over many lines up to its closing quotes, gathered in reverse.
Escapes are read if the string is basic. -/
def linesFrom (quote : Char) (basic : Bool) (gathered : List Char) (s : List Char) :
    Option (String × List Char) :=
  match s with
  | [] => none
  | c :: rest =>
    if c = quote then
      let quotes := 1 + ((rest.take 4).takeWhile (· == quote)).length
      if 3 ≤ quotes then
        some (String.ofList (List.replicate (quotes - 3) quote ++ gathered).reverse,
          s.drop quotes)
      else linesFrom quote basic (c :: gathered) rest
    else if basic ∧ c = '\\' then
      match afterFoldedLine? rest with
      | some later =>
        if later.length ≤ rest.length then linesFrom quote basic gathered later else none
      | none =>
        match Reader.escape? rest with
        | some (d, later) =>
          if later.length ≤ rest.length then linesFrom quote basic (d :: gathered) later else none
        | none => none
    else
      match afterLineEnd? s with
      | some later =>
        if later.length ≤ rest.length then linesFrom quote basic ('\n' :: gathered) later
        else none
      | none => if isLineCharacter c then linesFrom quote basic (c :: gathered) rest else none
termination_by s.length

/-- A string over many lines, after its opening quotes. -/
def linesString (quote : Char) (basic : Bool) (s : List Char) : Option (String × List Char) :=
  linesFrom quote basic [] ((afterLineEnd? s).getD s)

/-- A string of any kind. -/
def string : Reader String
  | '"' :: '"' :: '"' :: rest => linesString '"' true rest
  | '\'' :: '\'' :: '\'' :: rest => linesString '\'' false rest
  | '"' :: rest => basicString ('"' :: rest)
  | s => literalString s

/-! ## Keys -/

/-- A character of a name without quotes. -/
def isBareCharacter (c : Char) : Bool := c.isAlphanum || c == '-' || c == '_'

/-- A name in a key. -/
def name : Reader String
  | '"' :: rest => basicString ('"' :: rest)
  | '\'' :: rest => literalString ('\'' :: rest)
  | s =>
    let bare := s.takeWhile isBareCharacter
    if bare = [] then none else some (String.ofList bare, s.dropWhile isBareCharacter)

/-- Names between dots, with blanks around them. -/
def names (s : List Char) : Option (List String × List Char) :=
  match name (skipBlanks s) with
  | none => none
  | some (n, rest) =>
    match skipBlanks rest with
    | '.' :: later =>
      if later.length < s.length then (names later).map fun (l, end_) => (n :: l, end_) else none
    | later => some ([n], later)
termination_by s.length

/-- One beyond the most names in a key, and one beyond the deepest nesting of values. -/
def depthLimit : Nat := 80

/-- A key. -/
def key : Reader (List String) := fun s => do
  let (l, rest) ← names s
  guard (l.length < depthLimit)
  some (l, rest)

end KeyCustody.Toml
