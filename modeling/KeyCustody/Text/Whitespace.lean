/-!
# Whitespace

Two notions of whitespace are in use: the five blank characters of ASCII, and every character
that Unicode counts as white space.

## Main definitions

* `Whitespace.isAscii`, `Whitespace.isUnicode` — the two notions
* `Whitespace.trim` — a text without the white space around it
-/

namespace KeyCustody.Whitespace

/-- Tab, line feed, form feed, carriage return and space. -/
def isAscii (c : Char) : Bool :=
  c == ' ' || c == '\t' || c == '\n' || c == '\r' || c.toNat == 0x0c

/-- The characters with the Unicode property `White_Space`. -/
def isUnicode (c : Char) : Bool :=
  let n := c.toNat
  (0x09 ≤ n && n ≤ 0x0d) || n == 0x20 || n == 0x85 || n == 0xa0 || n == 0x1680 ||
    (0x2000 ≤ n && n ≤ 0x200a) || n == 0x2028 || n == 0x2029 || n == 0x202f || n == 0x205f ||
    n == 0x3000

/-- A text without the white space before and after it. -/
def trim (s : List Char) : List Char :=
  ((s.dropWhile isUnicode).reverse.dropWhile isUnicode).reverse

end KeyCustody.Whitespace
