import KeyCustody.Text.Hex

/-!
# Strings in JSON

A string in JSON stands between double quotes. A quote and a backslash are preceded by a
backslash, and so are the letters that stand for the five common control characters; the other
control characters are written by their code in four hexadecimal digits.

## Main definitions

* `JsonString.escape` — the written form of one character
* `JsonString.encode` — a text between quotes
-/

namespace KeyCustody.JsonString

/-- The written form of one character. -/
def escape (c : Char) : List Char :=
  if c = '"' ∨ c = '\\' then ['\\', c]
  else if c = '\n' then ['\\', 'n']
  else if c = '\r' then ['\\', 'r']
  else if c = '\t' then ['\\', 't']
  else if c.toNat = 0x08 then ['\\', 'b']
  else if c.toNat = 0x0c then ['\\', 'f']
  else if c.toNat < 0x20 then
    ['\\', 'u', '0', '0', Hex.digit (c.toNat / 16), Hex.digit (c.toNat % 16)]
  else [c]

/-- A text between quotes. -/
def encode (s : String) : String :=
  String.ofList ('"' :: (s.toList.flatMap escape ++ ['"']))

end KeyCustody.JsonString
