import KeyCustody.Proofs.P256.Group

/-!
# Multiples on P-256 without divisions

A division is by far the most expensive step in a sum of points. With a third coordinate that
collects the divisors, a multiple takes a single division at its end. Multiples of large factors
are evaluated in this form, among them that of the generator by its order.

## Main definitions

* `P256.Weighted`, `P256.Weighted.Represents` — points in weighted coordinates, and what they stand
  for
* `P256.Weighted.add`, `P256.Weighted.multiply` — sums and multiples

## Main results

* `P256.Weighted.Represents.add`, `P256.Weighted.Represents.multiply` — sums and multiples stand for
  those on the curve
* `P256.order_nsmul_base`, `P256.addOrderOf_base` — the order of the generator
-/

namespace KeyCustody.P256

open WeierstrassCurve
open scoped Fin.CommRing Residue

/-- A point in weighted coordinates: the first is to be divided by the square of the third, and the
second by its cube. If the third is zero, the point is at infinity. -/
structure Weighted where
  x : Coordinate
  y : Coordinate
  z : Coordinate
deriving DecidableEq, Repr

namespace Weighted

/-- Weighted coordinates stand for a point. -/
def Represents (s : Weighted) : Point → Prop
  | .infinity => s.z = 0
  | .affine x y => s.z ≠ 0 ∧ s.x = x * s.z ^ 2 ∧ s.y = y * s.z ^ 3

instance (s : Weighted) : (p : Point) → Decidable (s.Represents p)
  | .infinity => inferInstanceAs (Decidable (s.z = 0))
  | .affine x y => inferInstanceAs
      (Decidable (s.z ≠ 0 ∧ s.x = x * s.z ^ 2 ∧ s.y = y * s.z ^ 3))

/-- The point at infinity. -/
def infinity : Weighted := ⟨1, 1, 0⟩

/-- Twice a point. -/
def double (s : Weighted) : Weighted :=
  let square := s.y * s.y
  let weight := s.z * s.z
  let rise := 3 * (s.x - weight) * (s.x + weight)
  let shift := 4 * s.x * square
  let x := rise * rise - 2 * shift
  ⟨x, rise * (shift - x) - 8 * square * square, 2 * s.y * s.z⟩

/-- The sum of two points. -/
def add (s t : Weighted) : Weighted :=
  if s.z = 0 then t
  else if t.z = 0 then s
  else
    let weight₁ := s.z * s.z
    let weight₂ := t.z * t.z
    let x₁ := s.x * weight₂
    let y₁ := s.y * weight₂ * t.z
    let run := t.x * weight₁ - x₁
    let rise := t.y * weight₁ * s.z - y₁
    if run = 0 then
      if rise = 0 then s.double else infinity
    else
      let square := run * run
      let cube := square * run
      let x := rise * rise - cube - 2 * x₁ * square
      ⟨x, rise * (x₁ * square - x) - y₁ * cube, s.z * t.z * run⟩

/-- A multiple of a point, by doubling along the binary digits. -/
def multiply (k : Nat) (s : Weighted) : Weighted :=
  if k = 0 then infinity
  else
    let half := multiply (k / 2) (s.add s)
    if k % 2 = 1 then s.add half else half
termination_by k
decreasing_by omega

theorem isDoubling_multiply : IsDoubling infinity add multiply := by
  intro k s
  rw [multiply]

variable {s t : Weighted}

theorem two_ne_zero : (2 : Coordinate) ≠ 0 := by decide

theorem Represents.double {x y : Coordinate} (h : s.Represents (.affine x y)) (hy : y ≠ 0) :
    s.double.Represents (.onLine (Residue.quotient (3 * x * x - 3) (2 * y)) x y x) := by
  obtain ⟨hz, hsx, hsy⟩ := h
  generalize hslope : Residue.quotient (3 * x * x - 3) (2 * y) = slope
  have hline : 3 * x * x - 3 = slope * (2 * y) := by
    rw [← hslope, Residue.quotient_eq_mul_inv, inv_mul_cancel_right₀ (mul_ne_zero two_ne_zero hy)]
  refine ⟨?_, ?_, ?_⟩
  · have hne : y * s.z ^ 3 ≠ 0 := mul_ne_zero hy (pow_ne_zero 3 hz)
    rw [Weighted.double, hsy]
    exact mul_ne_zero (mul_ne_zero two_ne_zero hne) hz
  · simp only [Weighted.double, hsx, hsy]
    linear_combination s.z ^ 8 * (3 * x * x - 3 + slope * (2 * y)) * hline
  · simp only [Weighted.double, hsx, hsy]
    linear_combination s.z ^ 12 * (12 * x * y ^ 2 - (3 * x * x - 3) ^ 2 -
      (3 * x * x - 3) * (slope * (2 * y)) - (slope * (2 * y)) ^ 2) * hline

/-- The differences that the sum starts from, in terms of the coordinates that are stood for. -/
theorem run_eq {x₁ x₂ : Coordinate} (hs : s.x = x₁ * s.z ^ 2) (ht : t.x = x₂ * t.z ^ 2) :
    t.x * (s.z * s.z) - s.x * (t.z * t.z) = (x₂ - x₁) * (s.z * t.z) ^ 2 := by
  rw [hs, ht]
  ring

theorem rise_eq {y₁ y₂ : Coordinate} (hs : s.y = y₁ * s.z ^ 3) (ht : t.y = y₂ * t.z ^ 3) :
    t.y * (s.z * s.z) * s.z - s.y * (t.z * t.z) * t.z = (y₂ - y₁) * (s.z * t.z) ^ 3 := by
  rw [hs, ht]
  ring

theorem Represents.chord {x₁ y₁ x₂ y₂ : Coordinate} (hs : s.Represents (.affine x₁ y₁))
    (ht : t.Represents (.affine x₂ y₂)) (hx : x₁ ≠ x₂) :
    (s.add t).Represents (.onLine (Residue.quotient (y₂ - y₁) (x₂ - x₁)) x₁ y₁ x₂) := by
  obtain ⟨hsz, hsx, hsy⟩ := hs
  obtain ⟨htz, htx, hty⟩ := ht
  have hdx : x₂ - x₁ ≠ 0 := sub_ne_zero.mpr hx.symm
  -- Of the slope nothing is used but its product with the run, so no division is left.
  generalize hslope : Residue.quotient (y₂ - y₁) (x₂ - x₁) = slope
  have hline : y₂ - y₁ = slope * (x₂ - x₁) := by
    rw [← hslope, Residue.quotient_eq_mul_inv, inv_mul_cancel_right₀ hdx]
  have hrun : (x₂ - x₁) * (s.z * t.z) ^ 2 ≠ 0 :=
    mul_ne_zero hdx (pow_ne_zero 2 (mul_ne_zero hsz htz))
  have hadd : s.add t =
      let run := (x₂ - x₁) * (s.z * t.z) ^ 2
      let rise := (y₂ - y₁) * (s.z * t.z) ^ 3
      let x := rise * rise - run * run * run - 2 * (s.x * (t.z * t.z)) * (run * run)
      ⟨x, rise * (s.x * (t.z * t.z) * (run * run) - x) -
        s.y * (t.z * t.z) * t.z * (run * run * run), s.z * t.z * run⟩ := by
    simp only [Weighted.add, if_neg hsz, if_neg htz, run_eq hsx htx, rise_eq hsy hty, if_neg hrun]
  rw [hadd]
  refine ⟨mul_ne_zero (mul_ne_zero hsz htz) hrun, ?_, ?_⟩
  · simp only [hsx]
    linear_combination (s.z * t.z) ^ 6 * (y₂ - y₁ + slope * (x₂ - x₁)) * hline
  · simp only [hsx, hsy]
    linear_combination (s.z * t.z) ^ 9 * ((x₂ - x₁) ^ 2 * (2 * x₁ + x₂) - (y₂ - y₁) ^ 2 -
      (y₂ - y₁) * (slope * (x₂ - x₁)) - (slope * (x₂ - x₁)) ^ 2) * hline

/-- Points with the same first coordinate, which are equal or opposite on the curve. -/
theorem Represents.vertical {x y₁ y₂ : Coordinate} (hs : s.Represents (.affine x y₁))
    (ht : t.Represents (.affine x y₂)) (hy : y₁ = y₂ ∨ y₁ = -y₂) :
    (s.add t).Represents (Point.add (.affine x y₁) (.affine x y₂)) := by
  obtain ⟨hsz, hsx, hsy⟩ := id hs
  obtain ⟨htz, htx, hty⟩ := ht
  have hadd : s.add t = if (y₂ - y₁) * (s.z * t.z) ^ 3 = 0 then s.double else infinity := by
    simp only [Weighted.add, if_neg hsz, if_neg htz, run_eq hsx htx, rise_eq hsy hty, sub_self,
      zero_mul, if_true]
  have hrise : (y₂ - y₁) * (s.z * t.z) ^ 3 = 0 ↔ y₁ = y₂ := by
    rw [mul_eq_zero_iff_right (pow_ne_zero 3 (mul_ne_zero hsz htz)), sub_eq_zero, eq_comm]
  have hsum : Point.add (.affine x y₁) (.affine x y₂) = if y₁ + y₂ = 0 then .infinity else
      .onLine (Residue.quotient (3 * x * x - 3) (2 * y₁)) x y₁ x := by
    simp only [Point.add, if_true]
  rw [hadd, hsum]
  simp only [hrise]
  -- Both tell doubling from cancelling, one by the difference and the other by the sum.
  by_cases hequal : y₁ = y₂
  · subst hequal
    rw [if_pos rfl]
    by_cases hzero : y₁ = 0
    · -- A point of order two, whose double has the weight zero.
      rw [hzero, if_pos (add_zero 0)]
      change 2 * s.y * s.z = 0
      rw [hsy, hzero]
      ring
    · have hne : y₁ + y₁ ≠ 0 := by
        rw [← two_mul]
        exact mul_ne_zero two_ne_zero hzero
      rw [if_neg hne]
      exact hs.double hzero
  · have hopposite : y₁ + y₂ = 0 := by
      rw [hy.resolve_left hequal, neg_add_cancel]
    rw [if_neg hequal, if_pos hopposite]
    rfl

theorem Represents.add {p q : curve.Point} (hs : s.Represents (ofCurve p))
    (ht : t.Represents (ofCurve q)) : (s.add t).Represents (ofCurve (p + q)) := by
  rw [ofCurve_add]
  cases p with
  | zero =>
    have hadd : s.add t = t := if_pos hs
    rw [hadd]
    exact ht
  | some x₁ y₁ h₁ =>
    have hsz : s.z ≠ 0 := hs.1
    cases q with
    | zero =>
      have htz : t.z = 0 := ht
      rw [Weighted.add, if_neg hsz, if_pos htz]
      exact hs
    | some x₂ y₂ h₂ =>
      by_cases hx : x₁ = x₂
      · subst hx
        have hy := Affine.Y_eq_of_X_eq h₁.1 h₂.1 rfl
        rw [negY_curve] at hy
        exact hs.vertical ht hy
      · have hsum : Point.add (.affine x₁ y₁) (.affine x₂ y₂) =
            .onLine (Residue.quotient (y₂ - y₁) (x₂ - x₁)) x₁ y₁ x₂ := if_neg hx
        exact hsum ▸ hs.chord ht hx

theorem Represents.multiply {p : curve.Point} (hs : s.Represents (ofCurve p)) (k : Nat) :
    (s.multiply k).Represents (ofCurve (k • p)) := by
  apply isDoubling_multiply.related isDoubling_nsmul
    (R := fun s p => Represents s (ofCurve p)) _ _ k hs
  · exact (rfl : infinity.z = 0)
  · exact Represents.add

/-- Weighted coordinates stand for one point only. -/
theorem Represents.unique {p q : Point} (hp : s.Represents p) (hq : s.Represents q) : p = q := by
  cases p with
  | infinity =>
    cases q with
    | infinity => rfl
    | affine x y => exact absurd hp hq.1
  | affine x y =>
    cases q with
    | infinity => exact absurd hq hp.1
    | affine x' y' =>
      obtain ⟨hz, hx, hy⟩ := hp
      obtain ⟨-, hx', hy'⟩ := hq
      have hfirst := mul_right_cancel₀ (pow_ne_zero 2 hz) (hx.symm.trans hx')
      have hsecond := mul_right_cancel₀ (pow_ne_zero 3 hz) (hy.symm.trans hy')
      rw [hfirst, hsecond]

/-- The generator. -/
def generator : Weighted := ⟨generatorX, generatorY, 1⟩

theorem represents_generator : generator.Represents (ofCurve base) := by
  refine ⟨one_ne_zero, ?_, ?_⟩ <;> simp [generator]

/-- A multiple of the generator is evaluated in weighted coordinates. -/
theorem multiply_generator {k : Nat} {p : Point} (h : (generator.multiply k).Represents p) :
    P256.generator.multiply k = p := by
  rw [← ofCurve_base, ← ofCurve_nsmul]
  exact (represents_generator.multiply k).unique h

end Weighted

theorem multiply_order_generator : generator.multiply order = .infinity := by
  have hweight : (Weighted.generator.multiply order).z = 0 := by decide +kernel
  exact Weighted.multiply_generator hweight

/-- The multiple of the generator by its order is the point at infinity. -/
theorem order_nsmul_base : order • base = 0 := by
  apply ofCurve_injective
  rw [ofCurve_nsmul, ofCurve_base, ofCurve_zero, multiply_order_generator]

theorem addOrderOf_base : addOrderOf base = order :=
  addOrderOf_eq_prime (p := order) order_nsmul_base base_ne_zero

end KeyCustody.P256
