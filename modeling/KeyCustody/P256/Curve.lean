import KeyCustody.Residue
import KeyCustody.Octets

/-!
# The curve P-256

The points of `y² = x³ - 3x + b` over the residues modulo a 256-bit prime, together with one
point at infinity, form a group of prime order under the chord and tangent construction. The
operations are the textbook formulas in affine coordinates.

Points are written with a leading mark: both coordinates after `04`, or the first alone after
`02` or `03`, by the parity of the second.

## Main definitions

* `P256.Point`, `P256.Point.add`, `P256.Point.multiply` — the group
* `P256.generator`, `P256.order` — the point that multiples are taken of, and its order
* `P256.Point.encode`, `P256.Point.compress`, `P256.Point.decode?` — written forms
-/

namespace KeyCustody.P256

/-- The prime of the coordinate field. -/
def fieldSize : Nat := 0xffffffff00000001000000000000000000000000ffffffffffffffffffffffff

/-- The order of the group. -/
def order : Nat := 0xffffffff00000000ffffffffffffffffbce6faada7179e84f3b9cac2fc632551

instance : @NeZero Nat Zero.ofOfNat0 fieldSize := ⟨by decide⟩

instance : @NeZero Nat Zero.ofOfNat0 order := ⟨by decide⟩

/-- A coordinate. -/
abbrev Coordinate := Fin fieldSize

/-- A residue modulo the order of the group. -/
abbrev Scalar := Fin order

/-- The constant term of the curve's equation. -/
def constantTerm : Coordinate :=
  Fin.ofNat _ 0x5ac635d8aa3a93e7b3ebbd55769886bc651d06b0cc53b0f63bce3c3e27d2604b

/-- A point in affine coordinates, or the point at infinity. -/
inductive Point
  | infinity
  | affine (x y : Coordinate)
deriving DecidableEq, Repr

/-- The right-hand side of the curve's equation. -/
def cubic (x : Coordinate) : Coordinate := x * x * x - 3 * x + constantTerm

/-- Whether coordinates satisfy the curve's equation. -/
def isOnCurve (x y : Coordinate) : Bool := y * y == cubic x

namespace Point

/-- The third point on a line of the given slope, reflected: the sum of two points with first
coordinates `x₁` and `x₂` on that line, of which `(x₁, y₁)` is one. -/
def onLine (slope x₁ y₁ x₂ : Coordinate) : Point :=
  let x := slope * slope - x₁ - x₂
  affine x (slope * (x₁ - x) - y₁)

/-- The sum of two points. -/
def add : Point → Point → Point
  | infinity, t => t
  | s, infinity => s
  | affine x₁ y₁, affine x₂ y₂ =>
    if x₁ = x₂ then
      if y₁ + y₂ = 0 then infinity
      else onLine (Residue.quotient (3 * x₁ * x₁ - 3) (2 * y₁)) x₁ y₁ x₂
    else onLine (Residue.quotient (y₂ - y₁) (x₂ - x₁)) x₁ y₁ x₂

/-- A multiple of a point, by doubling along the binary digits. -/
def multiply (k : Nat) (s : Point) : Point :=
  if k = 0 then infinity
  else
    let half := multiply (k / 2) (s.add s)
    if k % 2 = 1 then s.add half else half
termination_by k
decreasing_by omega

/-- Both coordinates after the mark `04`; infinity is a single zero octet. -/
def encode : Point → Octets
  | infinity => [0x00]
  | affine x y => 0x04 :: (Octets.ofNatWidth 32 x.val ++ Octets.ofNatWidth 32 y.val)

/-- The first coordinate after `02` or `03`, by the parity of the second. -/
def compress : Point → Octets
  | infinity => [0x00]
  | affine x y => (if y.val % 2 = 0 then 0x02 else 0x03) :: Octets.ofNatWidth 32 x.val

end Point

/-- The coordinate that 32 octets spell, if it is below the prime. -/
def coordinate? (b : Octets) : Option Coordinate :=
  if h : Octets.toNat b < fieldSize then some ⟨Octets.toNat b, h⟩ else none

/-- The point with the given first coordinate whose second has the given parity. The prime is
three modulo four, so a root is found by one power. -/
def Point.withFirst? (x : Coordinate) (odd : Bool) : Option Point :=
  let y := Residue.power (cubic x) ((fieldSize + 1) / 4)
  if isOnCurve x y then some (.affine x (Residue.withParity y odd)) else none

/-- Reads a point other than infinity. The mark `05` stands before a first coordinate alone and
for the even second one. -/
def Point.decode? : Octets → Option Point
  | [] => none
  | mark :: rest =>
    if mark = 0x04 ∧ rest.length = 64 then do
      let x ← coordinate? (rest.take 32)
      let y ← coordinate? (rest.drop 32)
      if isOnCurve x y then some (affine x y) else none
    else if (mark = 0x02 ∨ mark = 0x03 ∨ mark = 0x05) ∧ rest.length = 32 then do
      let x ← coordinate? rest
      withFirst? x (mark == 0x03)
    else none

/-- The point whose multiples are the group. -/
def generator : Point :=
  .affine (Fin.ofNat _ 0x6b17d1f2e12c4247f8bce6e563a440f277037d812deb33a0f4a13945d898c296)
    (Fin.ofNat _ 0x4fe342e2fe1a7f9b8ee7eb4a7c0f9e162bce33576b315ececbb6406837bf51f5)

end KeyCustody.P256
