import KeyCustody.Proofs.Ed25519.Group

/-!
# Multiples on edwards25519 without divisions

With a third coordinate that collects the divisors, a multiple takes a single division at its end.
The multiple of the base point by its order is evaluated in this form.

## Main definitions

* `Ed25519.Homogeneous`, `Ed25519.Homogeneous.Represents` — points in homogeneous coordinates, and
  what they stand for
* `Ed25519.Homogeneous.add`, `Ed25519.Homogeneous.multiply` — sums and multiples

## Main results

* `Ed25519.Homogeneous.Represents.add`, `Ed25519.Homogeneous.Represents.multiply` — sums and
  multiples stand for those on the curve
* `Ed25519.order_nsmul_base` — the multiple of the base point by its order is neutral
-/

namespace KeyCustody.Ed25519

open scoped Fin.CommRing Residue

/-- A point in homogeneous coordinates: the first two are to be divided by the third. -/
structure Homogeneous where
  x : Coordinate
  y : Coordinate
  z : Coordinate
deriving DecidableEq, Repr

namespace Homogeneous

/-- Homogeneous coordinates stand for a point of the curve. -/
structure Represents (s : Homogeneous) (p : curve.Point) : Prop where
  z_ne_zero : s.z ≠ 0
  x_eq : s.x = p.x * s.z
  y_eq : s.y = p.y * s.z

/-- The neutral point. -/
def zero : Homogeneous := ⟨0, 1, 1⟩

/-- The sum of two points. -/
def add (s t : Homogeneous) : Homogeneous :=
  let z := s.z * t.z
  let x := s.x * t.x
  let y := s.y * t.y
  let product := coefficient * x * y
  let minus := z * z - product
  let plus := z * z + product
  ⟨z * minus * (s.x * t.y + t.x * s.y), z * plus * (y + x), minus * plus⟩

/-- A multiple of a point, by doubling along the binary digits. -/
def multiply (k : Nat) (s : Homogeneous) : Homogeneous :=
  if k = 0 then zero
  else
    let half := multiply (k / 2) (s.add s)
    if k % 2 = 1 then s.add half else half
termination_by k
decreasing_by omega

theorem isDoubling_multiply : IsDoubling zero add multiply := by
  intro k s
  rw [multiply]

variable {s t : Homogeneous} {p q : curve.Point}

theorem represents_zero : zero.Represents 0 :=
  ⟨one_ne_zero, (zero_mul 1).symm, (one_mul 1).symm⟩

/-- The numerators and denominators of a sum are multiplied by powers of the third coordinates. -/
theorem Represents.add (hs : s.Represents p) (ht : t.Represents q) :
    (s.add t).Represents (p + q) := by
  have hminus : s.z * t.z * (s.z * t.z) - coefficient * (s.x * t.x) * (s.y * t.y) =
      (s.z * t.z) ^ 2 * (1 - curve.product p.x p.y q.x q.y) := by
    rw [hs.x_eq, hs.y_eq, ht.x_eq, ht.y_eq, Edwards.product, d_curve]
    ring
  have hplus : s.z * t.z * (s.z * t.z) + coefficient * (s.x * t.x) * (s.y * t.y) =
      (s.z * t.z) ^ 2 * (1 + curve.product p.x p.y q.x q.y) := by
    rw [hs.x_eq, hs.y_eq, ht.x_eq, ht.y_eq, Edwards.product, d_curve]
    ring
  have hweight := pow_ne_zero 2 (mul_ne_zero hs.z_ne_zero ht.z_ne_zero)
  have hx := p.contains.sumX_mul q.contains
  have hy := p.contains.sumY_mul q.contains
  refine ⟨?_, ?_, ?_⟩
  · simp only [Homogeneous.add, hminus, hplus]
    exact mul_ne_zero (mul_ne_zero hweight (p.contains.one_sub_product_ne_zero q.contains))
      (mul_ne_zero hweight (p.contains.one_add_product_ne_zero q.contains))
  · simp only [Homogeneous.add, hminus, hplus, Edwards.Point.x_add]
    rw [hs.x_eq, hs.y_eq, ht.x_eq, ht.y_eq]
    linear_combination -(s.z * t.z) ^ 4 * (1 - curve.product p.x p.y q.x q.y) * hx
  · simp only [Homogeneous.add, hminus, hplus, Edwards.Point.y_add]
    rw [hs.x_eq, hs.y_eq, ht.x_eq, ht.y_eq]
    linear_combination -(s.z * t.z) ^ 4 * (1 + curve.product p.x p.y q.x q.y) * hy

theorem Represents.multiply (hs : s.Represents p) (k : Nat) :
    (s.multiply k).Represents (k • p) :=
  isDoubling_multiply.related isDoubling_nsmul (R := Represents) represents_zero Represents.add k hs

/-- The base point. -/
def base : Homogeneous := ⟨basePoint.x, basePoint.y, 1⟩

theorem represents_base : base.Represents Ed25519.base :=
  ⟨one_ne_zero, (mul_one _).symm, (mul_one _).symm⟩

/-- Coordinates that stand for the neutral point stand for no other. -/
theorem Represents.eq_zero (hs : s.Represents p) (hx : s.x = 0) (hy : s.y = s.z) : p = 0 := by
  have hx' : p.x * s.z = 0 * s.z := by rw [← hs.x_eq, hx, zero_mul]
  have hy' : p.y * s.z = 1 * s.z := by rw [← hs.y_eq, hy, one_mul]
  exact Edwards.Point.ext (mul_right_cancel₀ hs.z_ne_zero hx')
    (mul_right_cancel₀ hs.z_ne_zero hy')

end Homogeneous

/-- The multiple of the base point by its order is neutral. -/
theorem order_nsmul_base : order • base = 0 := by
  have hzero : (Homogeneous.base.multiply order).x = 0 ∧
      (Homogeneous.base.multiply order).y = (Homogeneous.base.multiply order).z := by
    decide +kernel
  exact (Homogeneous.represents_base.multiply order).eq_zero hzero.1 hzero.2

end KeyCustody.Ed25519
