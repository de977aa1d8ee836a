import KeyCustody.Octets

/-!
# Hexadecimal text

Each octet is written as two lowercase hexadecimal digits, the high one first. Fingerprints
and the first octets of a signature are shown this way.

## Main definitions

* `Hex.digit`, `Hex.digitValue?` — a digit and its value
* `Hex.encode`, `Hex.decode?` — writing octets, and reading lowercase text back
-/

namespace KeyCustody.Hex

/-- The lowercase digit of a value below sixteen. -/
def digit (n : Nat) : Char :=
  if n < 10 then Char.ofNat (48 + n) else Char.ofNat (87 + n)

/-- The value of a lowercase digit. -/
def digitValue? (c : Char) : Option Nat :=
  if '0' ≤ c ∧ c ≤ '9' then some (c.toNat - 48)
  else if 'a' ≤ c ∧ c ≤ 'f' then some (c.toNat - 87)
  else none

/-- The digits of an octet string. -/
def encodeChars (b : Octets) : List Char :=
  b.flatMap fun x => [digit (x.toNat / 16), digit (x.toNat % 16)]

/-- The hexadecimal text of an octet string. -/
def encode (b : Octets) : String :=
  String.ofList (encodeChars b)

/-- Reads pairs of digits, gathering the octets in reverse. -/
def decodeFrom (gathered : Octets) : List Char → Option Octets
  | [] => some gathered.reverse
  | h :: l :: rest => do
    let high ← digitValue? h
    let low ← digitValue? l
    decodeFrom (UInt8.ofNat (high * 16 + low) :: gathered) rest
  | [_] => none

/-- Reads lowercase hexadecimal text; an odd digit or any other character is refused. -/
def decode? (s : String) : Option Octets :=
  decodeFrom [] s.toList

end KeyCustody.Hex
