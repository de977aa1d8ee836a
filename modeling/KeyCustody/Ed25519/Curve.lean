import KeyCustody.Residue
import KeyCustody.Octets

/-!
# The curve edwards25519

The points of `-x² + y² = 1 + d x² y²` over the residues modulo `2 ^ 255 - 19` form a group
under one addition law without exceptions. Multiples of the base point form a subgroup of prime
order.

A point is written in 32 octets, least significant first: the second coordinate, with the parity
of the first as the top bit. Reading reduces the coordinate, so a few points have two forms.

## Main definitions

* `Ed25519.Point`, `Ed25519.Point.add`, `Ed25519.Point.multiply` — the group
* `Ed25519.basePoint`, `Ed25519.order` — the base point and its order
* `Ed25519.Point.encode`, `Ed25519.Point.decode?` — written forms
-/

namespace KeyCustody.Ed25519

/-- The prime of the coordinate field. -/
def fieldSize : Nat := 0x7fffffffffffffffffffffffffffffffffffffffffffffffffffffffffffffed

/-- The order of the base point. -/
def order : Nat := 0x1000000000000000000000000000000014def9dea2f79cd65812631a5cf5d3ed

instance : @NeZero Nat Zero.ofOfNat0 fieldSize := ⟨by decide⟩

/-- A coordinate. -/
abbrev Coordinate := Fin fieldSize

/-- The coefficient `d` of the curve's equation, `-121665 / 121666`. -/
def coefficient : Coordinate :=
  Fin.ofNat _ 0x52036cee2b6ffe738cc740797779e89800700a4d4141d8ab75eb4dca135978a3

/-- A square root of minus one. -/
def rootOfMinusOne : Coordinate :=
  Fin.ofNat _ 0x2b8324804fc1df0b2b4d00993dfbd7a72f431806ad2fe478c4ee1b274a0ea0b0

/-- A point in affine coordinates. -/
structure Point where
  x : Coordinate
  y : Coordinate
deriving DecidableEq, Repr

namespace Point

/-- The neutral point. -/
def zero : Point := ⟨0, 1⟩

/-- The sum of two points. -/
def add (s t : Point) : Point :=
  let product := coefficient * s.x * t.x * s.y * t.y
  ⟨Residue.quotient (s.x * t.y + t.x * s.y) (1 + product),
   Residue.quotient (s.y * t.y + s.x * t.x) (1 - product)⟩

/-- The inverse of a point. -/
def neg (s : Point) : Point := ⟨0 - s.x, s.y⟩

/-- A multiple of a point, by doubling along the binary digits. -/
def multiply (k : Nat) (s : Point) : Point :=
  if k = 0 then zero
  else
    let half := multiply (k / 2) (s.add s)
    if k % 2 = 1 then s.add half else half
termination_by k
decreasing_by omega

/-- The written form of a point. -/
def encode (s : Point) : Octets :=
  (Octets.ofNatWidth 32 (s.y.val + (s.x.val % 2) <<< 255)).reverse

/-- A root of `u / v`, if it is a square. The prime is five modulo eight, so one power gives a
root up to a root of minus one. -/
def squareRoot? (u v : Coordinate) : Option Coordinate :=
  let cube := v * v * v
  let root := u * cube * Residue.power (u * cube * cube * v) ((fieldSize - 5) / 8)
  if v * root * root = u then some root
  else if v * root * root = 0 - u then some (root * rootOfMinusOne)
  else none

/-- Reads a point from 32 octets. -/
def decode? (b : Octets) : Option Point := do
  guard (b.length = 32)
  let n := Octets.toNat b.reverse
  let y : Coordinate := Fin.ofNat _ (n % (1 <<< 255))
  let x ← squareRoot? (y * y - 1) (coefficient * y * y + 1)
  some ⟨Residue.withParity x (n >>> 255 == 1), y⟩

end Point

/-- The base point. -/
def basePoint : Point :=
  ⟨Fin.ofNat _ 0x216936d3cd6e53fec0a4e231fdd6dc5c692cc7609525a7b2c9562d608f25d51a,
   Fin.ofNat _ 0x6666666666666666666666666666666666666666666666666666666666666658⟩

end KeyCustody.Ed25519
