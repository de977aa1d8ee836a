import KeyCustody.Text.Visible

/-!
# Quoted text

Names that may hold anything are reported between double quotes. A quote and a backslash are
preceded by a backslash, four control characters have short forms, and every other character
without a shape of its own is written by its code point in hexadecimal between braces.

## Main definitions

* `Quoted.escape` — the written form of one character
* `Quoted.encode` — a text between quotes
-/

namespace KeyCustody.Quoted

/-- The code point of a character in hexadecimal, after a backslash and `u`, between braces. -/
def codePoint (c : Char) : List Char :=
  ['\\', 'u', '{'] ++ Nat.toDigits 16 c.toNat ++ ['}']

/-- The written form of one character. -/
def escape (c : Char) : List Char :=
  if c = '"' ∨ c = '\\' then ['\\', c]
  else if c = '\t' then ['\\', 't']
  else if c = '\r' then ['\\', 'r']
  else if c = '\n' then ['\\', 'n']
  else if c.toNat = 0 then ['\\', '0']
  else if Visible.isVisible c then [c]
  else codePoint c

/-- A text between quotes. -/
def encode (s : String) : String :=
  String.ofList ('"' :: (s.toList.flatMap escape ++ ['"']))

end KeyCustody.Quoted
