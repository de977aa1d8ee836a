import KeyCustody.Proofs.Doubling
import KeyCustody.Proofs.Ed25519.Field
import KeyCustody.Proofs.Edwards

/-!
# Multiples on edwards25519

Minus one is a square and the coefficient of the curve is none, so the addition law has no
exceptions. The computed sum, negative and multiple are those of the group of the curve's points.

## Main definitions

* `Ed25519.curve`, `Ed25519.ofCurve` — the curve, and the computed form of its points
* `Ed25519.base` — the base point on the curve

## Main results

* `Ed25519.coefficient_not_square` — the coefficient is no square
* `Ed25519.ofCurve_add`, `Ed25519.ofCurve_neg`, `Ed25519.ofCurve_nsmul` — sums, negatives and
  multiples are computed
-/

namespace KeyCustody.Ed25519

open scoped Fin.CommRing Residue

theorem rootOfMinusOne_mul_self : rootOfMinusOne * rootOfMinusOne = -1 := by decide

/-- Half the order of the multiplicative group takes the coefficient to minus one. -/
theorem coefficient_pow : coefficient ^ ((fieldSize - 1) / 2) = -1 := by
  rw [← Residue.power_eq_pow]
  decide +kernel

theorem two_ne_zero : (2 : Coordinate) ≠ 0 := by decide

/-- The coefficient is no square: the same power of a square is one. -/
theorem coefficient_not_square (r : Coordinate) : r * r ≠ coefficient := by
  intro h
  have hpow := coefficient_pow
  by_cases hr : r = 0
  · have hne : coefficient ≠ 0 := by decide
    simp [hr] at h
    exact hne h.symm
  · have hexponent : 2 * ((fieldSize - 1) / 2) = fieldSize - 1 := by decide
    rw [← h, ← pow_two, ← pow_mul, hexponent, Residue.pow_sub_one_eq_one hr] at hpow
    exact absurd hpow (by decide)

/-- The curve `-x² + y² = 1 + d x² y²`. -/
def curve : Edwards Coordinate where
  d := coefficient
  i := rootOfMinusOne
  two_ne_zero := two_ne_zero
  sq_i := rootOfMinusOne_mul_self
  not_square := coefficient_not_square

@[simp] theorem d_curve : curve.d = coefficient := rfl

/-- The form in which a point of the curve is computed with. -/
def ofCurve (s : curve.Point) : Point := ⟨s.x, s.y⟩

@[simp] theorem x_ofCurve (s : curve.Point) : (ofCurve s).x = s.x := rfl

@[simp] theorem y_ofCurve (s : curve.Point) : (ofCurve s).y = s.y := rfl

theorem ofCurve_zero : ofCurve 0 = Point.zero := rfl

theorem ofCurve_add (s t : curve.Point) : ofCurve (s + t) = (ofCurve s).add (ofCurve t) := rfl

theorem ofCurve_neg (s : curve.Point) : ofCurve (-s) = (ofCurve s).neg := by
  rw [Point.neg, zero_sub]
  rfl

theorem isDoubling_multiply : IsDoubling Point.zero Point.add Point.multiply := by
  intro k s
  rw [Point.multiply]

/-- Doubling along the binary digits computes the multiple of the group. -/
theorem ofCurve_nsmul (k : Nat) (s : curve.Point) : ofCurve (k • s) = (ofCurve s).multiply k := by
  apply isDoubling_nsmul.related isDoubling_multiply (R := fun s t => ofCurve s = t) ofCurve_zero
  · rintro s t _ _ rfl rfl
    exact ofCurve_add s t
  · rfl

/-- The base point as a point of the curve. -/
def base : curve.Point := ⟨basePoint.x, basePoint.y, by
  unfold Edwards.Contains
  decide⟩

theorem ofCurve_base : ofCurve base = basePoint := rfl

end KeyCustody.Ed25519
