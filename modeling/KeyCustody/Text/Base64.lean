import KeyCustody.Octets

/-!
# Base64 text

Three octets make four characters of a 64-letter alphabet; the last group is filled up with
`=`. Reading is strict: the fill characters are required, and the bits that a short last
group leaves over are zero, so every octet string has exactly one written form.

The codec works on octet strings of ASCII characters, because the armored documents it
serves are themselves read octet by octet.

## Main definitions

* `Base64.encode`, `Base64.decode?` — writing and strict reading
-/

namespace KeyCustody.Base64

/-- The fill character `=`. -/
def fill : UInt8 := 61

/-- The character of a value below 64. -/
def letter (n : Nat) : UInt8 :=
  if n < 26 then UInt8.ofNat (65 + n)
  else if n < 52 then UInt8.ofNat (71 + n)
  else if n < 62 then UInt8.ofNat (n - 4)
  else if n = 62 then 43 else 47

/-- The value of a character of the alphabet. -/
def value? (c : UInt8) : Option Nat :=
  if 65 ≤ c ∧ c ≤ 90 then some (c.toNat - 65)
  else if 97 ≤ c ∧ c ≤ 122 then some (c.toNat - 71)
  else if 48 ≤ c ∧ c ≤ 57 then some (c.toNat + 4)
  else if c = 43 then some 62
  else if c = 47 then some 63
  else none

/-- Writes groups of three octets, gathering the characters in reverse. -/
def encodeFrom (gathered : Octets) : Octets → Octets
  | a :: b :: c :: rest =>
    let n := (a.toNat * 256 + b.toNat) * 256 + c.toNat
    encodeFrom (letter (n % 64) :: letter (n / 64 % 64) :: letter (n / 4096 % 64) ::
      letter (n / 262144) :: gathered) rest
  | [a, b] =>
    let n := (a.toNat * 256 + b.toNat) * 4
    (fill :: letter (n % 64) :: letter (n / 64 % 64) :: letter (n / 4096) :: gathered).reverse
  | [a] =>
    let n := a.toNat * 16
    (fill :: fill :: letter (n % 64) :: letter (n / 64) :: gathered).reverse
  | [] => gathered.reverse

/-- The base64 characters of an octet string, with fill. -/
def encode (b : Octets) : Octets :=
  encodeFrom [] b

/-- Reads groups of four characters, gathering the octets in reverse. Fill is admitted in the
last group only, and only over zero bits. -/
def decodeFrom (gathered : Octets) : Octets → Option Octets
  | [] => some gathered.reverse
  | [a, b, c, d] => do
    let x ← value? a
    let y ← value? b
    if c = fill then
      if d = fill ∧ y % 16 = 0 then
        some (UInt8.ofNat (x * 4 + y / 16) :: gathered).reverse
      else none
    else
      let z ← value? c
      if d = fill then
        if z % 4 = 0 then
          let n := (x * 64 + y) * 16 + z / 4
          some (UInt8.ofNat n :: UInt8.ofNat (n / 256) :: gathered).reverse
        else none
      else
        let w ← value? d
        let n := ((x * 64 + y) * 64 + z) * 64 + w
        some (UInt8.ofNat n :: UInt8.ofNat (n / 256) :: UInt8.ofNat (n / 65536) :: gathered).reverse
  | a :: b :: c :: d :: rest => do
    let x ← value? a
    let y ← value? b
    let z ← value? c
    let w ← value? d
    let n := ((x * 64 + y) * 64 + z) * 64 + w
    decodeFrom (UInt8.ofNat n :: UInt8.ofNat (n / 256) :: UInt8.ofNat (n / 65536) :: gathered) rest
  | _ => none

/-- The octets that strict base64 text stands for. -/
def decode? (text : Octets) : Option Octets :=
  decodeFrom [] text

/-- How many characters the base64 text of `n` octets takes. -/
def encodedLength (n : Nat) : Nat :=
  (n + 2) / 3 * 4

end KeyCustody.Base64
