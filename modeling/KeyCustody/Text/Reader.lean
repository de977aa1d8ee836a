/-!
# Reading from the front of a text

A reader takes something off the front of a text and leaves the rest, or refuses. Where
something is repeated, reading ends as soon as an item takes nothing off, so that it always ends.

## Main definitions

* `Reader` — a partial function from a text to a result and the rest
* `Reader.escape?` — the character behind a backslash
* `Reader.delimited` — items between separators, up to a closing character
* `Reader.natural?` — the value of digits in a base
-/

namespace KeyCustody

/-- A way to read from the front of a text. -/
abbrev Reader (α : Type) := List Char → Option (α × List Char)

namespace Reader

/-! ## Numbers -/

/-- The value of a digit in bases up to sixteen. -/
def digitValue? (c : Char) : Option Nat :=
  if '0' ≤ c ∧ c ≤ '9' then some (c.toNat - 48)
  else if 'a' ≤ c ∧ c ≤ 'f' then some (c.toNat - 87)
  else if 'A' ≤ c ∧ c ≤ 'F' then some (c.toNat - 55)
  else none

/-- The value of digits in a base, the value so far being given. -/
def naturalFrom (base value : Nat) : List Char → Option Nat
  | [] => some value
  | c :: rest =>
    match digitValue? c with
    | some d => if d < base then naturalFrom base (value * base + d) rest else none
    | none => none

/-- The value of digits in a base. There has to be a digit. -/
def natural? (base : Nat) (s : List Char) : Option Nat :=
  if s = [] then none else naturalFrom base 0 s

/-! ## Escapes -/

/-- The character of a code point, which may not be one of a surrogate. -/
def codePoint? (n : Nat) : Option Char :=
  if n.isValidChar then some (Char.ofNat n) else none

/-- The character that is written as a backslash and what stands here: a letter for one of five
control characters, a quote, a backslash, or a code point in four or eight digits. -/
def escape? : Reader Char
  | 'b' :: rest => some (Char.ofNat 0x08, rest)
  | 't' :: rest => some ('\t', rest)
  | 'n' :: rest => some ('\n', rest)
  | 'f' :: rest => some (Char.ofNat 0x0c, rest)
  | 'r' :: rest => some ('\r', rest)
  | '"' :: rest => some ('"', rest)
  | '\\' :: rest => some ('\\', rest)
  | 'u' :: rest => codePoint 4 rest
  | 'U' :: rest => codePoint 8 rest
  | _ => none
where
  /-- A code point in a fixed number of hexadecimal digits. -/
  codePoint (digits : Nat) (s : List Char) : Option (Char × List Char) := do
    guard (digits ≤ s.length)
    let c ← natural? 16 (s.take digits) >>= codePoint?
    some (c, s.drop digits)

/-! ## Repetition -/

/-- Reads items between commas, up to a closing character. Whatever `skip` drops may stand around
the commas, and a comma may follow the last item if `trailing` is set. -/
def items {α : Type} (skip : List Char → List Char) (trailing : Bool) (item : Reader α)
    (close : Char) (s : List Char) : Option (List α × List Char) :=
  match item s with
  | none => none
  | some (a, rest) =>
    match skip rest with
    | [] => none
    | c :: later =>
      if c = close then some ([a], later)
      else if c = ',' then
        let later := skip later
        if trailing ∧ later.head? = some close then some ([a], later.tail)
        else if later.length < s.length then
          (items skip trailing item close later).map fun (l, end_) => (a :: l, end_)
        else none
      else none
termination_by s.length

/-- Reads items as `items` does; there may be none. -/
def delimited {α : Type} (skip : List Char → List Char) (trailing : Bool) (item : Reader α)
    (close : Char) (s : List Char) : Option (List α × List Char) :=
  let s := skip s
  if s.head? = some close then some ([], s.tail) else items skip trailing item close s

end Reader

end KeyCustody
