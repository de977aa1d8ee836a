import KeyCustody.Proofs.Doubling
import KeyCustody.Proofs.P256.Field
import Mathlib.AlgebraicGeometry.EllipticCurve.Affine.Point

/-!
# Multiples on P-256

The sum of points is computed by the textbook formulas, which are those of the group of points on
an elliptic curve. Points of that group are mapped to the points that are computed with, and the
computed sum, multiple and generator are images. So whatever is known of multiples in a group is
known of the computed ones.

## Main definitions

* `P256.curve`, `P256.ofCurve` — the curve, and the computed form of its points
* `P256.base` — the point on the curve that the generator stands for

## Main results

* `P256.ofCurve_add`, `P256.ofCurve_nsmul` — sums and multiples are computed
* `P256.isOnCurve_of_ofCurve` — computed points satisfy the equation of the curve
-/

namespace KeyCustody.P256

open WeierstrassCurve
open scoped Fin.CommRing Residue

/-- The curve `y² = x³ - 3x + b`. -/
def curve : WeierstrassCurve.Affine Coordinate :=
  { a₁ := 0, a₂ := 0, a₃ := 0, a₄ := -3, a₆ := constantTerm }

/-- The form in which a point of the curve is computed with. -/
def ofCurve : curve.Point → Point
  | .zero => .infinity
  | .some x y _ => .affine x y

theorem ofCurve_zero : ofCurve 0 = .infinity := rfl

theorem ofCurve_injective : Function.Injective ofCurve := by
  intro s t h
  cases s <;> cases t <;> simp_all [ofCurve]

theorem negY_curve (x y : Coordinate) : curve.negY x y = -y := by
  simp [Affine.negY, curve]

theorem onLine_slope (slope x₁ y₁ x₂ : Coordinate) : Point.onLine slope x₁ y₁ x₂ =
    .affine (curve.addX x₁ x₂ slope) (curve.addY x₁ x₂ y₁ slope) := by
  have hx : slope * slope - x₁ - x₂ = curve.addX x₁ x₂ slope := by
    simp only [Affine.addX, curve]
    ring
  have hy : slope * (x₁ - curve.addX x₁ x₂ slope) - y₁ = curve.addY x₁ x₂ y₁ slope := by
    rw [Affine.addY, negY_curve, Affine.negAddY]
    ring
  rw [Point.onLine, hx, hy]

theorem slope_tangent {x y₁ y₂ : Coordinate} (hy : y₁ ≠ curve.negY x y₂) :
    Residue.quotient (3 * x * x - 3) (2 * y₁) = curve.slope x x y₁ y₂ := by
  have hrise : 3 * x ^ 2 + 2 * curve.a₂ * x + curve.a₄ - curve.a₁ * y₁ = 3 * x * x - 3 := by
    simp only [curve]
    ring
  have hrun : y₁ - curve.negY x y₁ = 2 * y₁ := by
    rw [negY_curve]
    ring
  rw [Affine.slope_of_Y_ne rfl hy, hrise, hrun]
  rfl

theorem slope_chord {x₁ x₂ : Coordinate} (y₁ y₂ : Coordinate) (hx : x₁ ≠ x₂) :
    Residue.quotient (y₂ - y₁) (x₂ - x₁) = curve.slope x₁ x₂ y₁ y₂ := by
  rw [Affine.slope_of_X_ne hx, Residue.quotient_eq_mul_inv, div_eq_mul_inv, ← neg_sub y₁,
    ← neg_sub x₁, inv_neg, neg_mul_neg]

theorem ofCurve_add (s t : curve.Point) : ofCurve (s + t) = (ofCurve s).add (ofCurve t) := by
  cases s with
  | zero => rfl
  | some x₁ y₁ h₁ =>
    cases t with
    | zero => rfl
    | some x₂ y₂ h₂ =>
      have hopposite : y₁ = curve.negY x₂ y₂ ↔ y₁ + y₂ = 0 := by
        rw [negY_curve, eq_neg_iff_add_eq_zero]
      by_cases hx : x₁ = x₂
      · subst hx
        by_cases hy : y₁ + y₂ = 0
        · rw [Affine.Point.add_of_Y_eq rfl (hopposite.mpr hy)]
          simp [ofCurve, Point.add, hy]
        · have hne : y₁ ≠ curve.negY x₁ y₂ := mt hopposite.mp hy
          rw [Affine.Point.add_of_Y_ne hne]
          simp [ofCurve, Point.add, hy, slope_tangent hne, onLine_slope]
      · rw [Affine.Point.add_of_X_ne hx]
        simp [ofCurve, Point.add, hx, slope_chord y₁ y₂ hx, onLine_slope]

theorem isDoubling_multiply : IsDoubling Point.infinity Point.add Point.multiply := by
  intro k s
  rw [Point.multiply]

/-- Doubling along the binary digits computes the multiple of the group. -/
theorem ofCurve_nsmul (k : Nat) (s : curve.Point) : ofCurve (k • s) = (ofCurve s).multiply k := by
  apply isDoubling_nsmul.related isDoubling_multiply (R := fun s t => ofCurve s = t) ofCurve_zero
  · rintro s t _ _ rfl rfl
    exact ofCurve_add s t
  · rfl

/-! ## Points of the curve -/

theorem isOnCurve_iff {x y : Coordinate} : isOnCurve x y = true ↔ curve.Equation x y := by
  rw [isOnCurve, beq_iff_eq, Affine.equation_iff, ← sub_eq_zero, ← sub_eq_zero (a := y ^ 2 + _ + _)]
  apply Eq.congr_left
  simp only [cubic, curve]
  ring

theorem isOnCurve_of_ofCurve {s : curve.Point} {x y : Coordinate} (h : ofCurve s = .affine x y) :
    isOnCurve x y = true := by
  cases s with
  | zero => cases h
  | some x' y' hs =>
    obtain ⟨rfl, rfl⟩ := Point.affine.inj h
    exact isOnCurve_iff.mpr hs.1

/-- The first coordinate of the generator. -/
def generatorX : Coordinate :=
  Fin.ofNat _ 0x6b17d1f2e12c4247f8bce6e563a440f277037d812deb33a0f4a13945d898c296

/-- The second coordinate of the generator. -/
def generatorY : Coordinate :=
  Fin.ofNat _ 0x4fe342e2fe1a7f9b8ee7eb4a7c0f9e162bce33576b315ececbb6406837bf51f5

theorem nonsingular_generator : curve.Nonsingular generatorX generatorY := by
  refine (Affine.nonsingular_iff _ _).mpr ⟨isOnCurve_iff.mp (by decide), .inr ?_⟩
  have hne : generatorY ≠ -generatorY := by decide
  simpa [curve] using hne

/-- The point of the curve that the generator stands for. -/
def base : curve.Point := .some _ _ nonsingular_generator

theorem ofCurve_base : ofCurve base = generator := rfl

theorem base_ne_zero : base ≠ 0 := Affine.Point.some_ne_zero _

end KeyCustody.P256
