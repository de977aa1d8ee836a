import Mathlib.Algebra.Field.Basic
import Mathlib.Tactic.LinearCombination
import Mathlib.Tactic.Ring

/-!
# Twisted Edwards curves

The curve `-x² + y² = 1 + d x² y²` over a field in which minus one is a square and `d` is none.
The denominators of its addition law never vanish, so the law is one pair of formulas without
exceptions, and the points form a group under it.

Associativity is the only axiom that takes more than a glance. After clearing denominators it is
an identity between polynomials that holds modulo the equations of the three points. The cofactors
that show it are short if they are written with the products `x y` of the points and with the signed
sums of the eight products that take one coordinate from each point.

## Main definitions

* `Edwards` — a field with such a curve
* `Edwards.Point` — the points of the curve, with the structure of a group

## Main results

* `Edwards.Contains.one_add_product_ne_zero`, `Edwards.Contains.one_sub_product_ne_zero` — the
  denominators do not vanish
* `Edwards.Contains.add` — sums lie on the curve
* `Edwards.sumX_assoc`, `Edwards.sumY_assoc` — associativity
-/

namespace KeyCustody

/-- A coefficient that is no square, in a field where minus one is a square. -/
structure Edwards (K : Type*) [Field K] where
  d : K
  i : K
  two_ne_zero : (2 : K) ≠ 0
  sq_i : i * i = -1
  not_square : ∀ r, r * r ≠ d

namespace Edwards

variable {K : Type*} [Field K] (c : Edwards K)

/-- The equation of the curve. -/
def Contains (x y : K) : Prop := y * y - x * x = 1 + c.d * x * x * y * y

/-- The product by which the denominators of a sum differ from one. -/
def product (x₁ y₁ x₂ y₂ : K) : K := c.d * x₁ * x₂ * y₁ * y₂

/-- The first coordinate of a sum. -/
def sumX (x₁ y₁ x₂ y₂ : K) : K := (x₁ * y₂ + x₂ * y₁) / (1 + c.product x₁ y₁ x₂ y₂)

/-- The second coordinate of a sum. -/
def sumY (x₁ y₁ x₂ y₂ : K) : K := (y₁ * y₂ + x₁ * x₂) / (1 - c.product x₁ y₁ x₂ y₂)

variable {c} {x y x₁ y₁ x₂ y₂ x₃ y₃ : K}

/-! ## Denominators -/

/-- If the square of the product were one, `d` would be a square. -/
theorem Contains.product_mul_self_ne_one (h₁ : c.Contains x₁ y₁) (h₂ : c.Contains x₂ y₂) :
    c.product x₁ y₁ x₂ y₂ * c.product x₁ y₁ x₂ y₂ ≠ 1 := by
  intro hone
  unfold Contains at h₁ h₂
  unfold product at hone
  have hne : x₁ * y₁ ≠ 0 ∧ y₂ ≠ 0 := by
    constructor
    · intro hzero
      exact zero_ne_one (by linear_combination hone - c.d ^ 2 * x₁ * x₂ ^ 2 * y₁ * y₂ ^ 2 * hzero)
    · rintro rfl
      simp at hone
  -- A square is `d` times another square, which has to be zero then. This goes for both roots.
  have hroot {j : K} (hj : j * j = -1) : j * x₂ + y₂ = 0 := by
    by_contra hsum
    have hdivisor : x₁ * y₁ * (j * x₂ + y₂) ≠ 0 := mul_ne_zero hne.1 hsum
    apply c.not_square ((j * x₁ + c.d * x₁ * x₂ * y₁ * y₂ * y₁) / (x₁ * y₁ * (j * x₂ + y₂)))
    rw [div_mul_div_comm, div_eq_iff (mul_ne_zero hdivisor hdivisor)]
    linear_combination (x₁ ^ 2 - c.d * x₁ ^ 2 * y₁ ^ 2 * x₂ ^ 2) * hj + (y₁ ^ 2 - 1) * hone + h₁ -
      c.d * x₁ ^ 2 * y₁ ^ 2 * h₂
  have hi := hroot c.sq_i
  have hneg := hroot (j := -c.i) (by rw [neg_mul_neg, c.sq_i])
  have htwice : 2 * y₂ = 0 := by linear_combination hi + hneg
  exact mul_ne_zero c.two_ne_zero hne.2 htwice

theorem Contains.one_add_product_ne_zero (h₁ : c.Contains x₁ y₁) (h₂ : c.Contains x₂ y₂) :
    1 + c.product x₁ y₁ x₂ y₂ ≠ 0 := by
  intro hzero
  have hproduct : c.product x₁ y₁ x₂ y₂ = -1 := by linear_combination hzero
  apply h₁.product_mul_self_ne_one h₂
  rw [hproduct, neg_mul_neg, one_mul]

theorem Contains.one_sub_product_ne_zero (h₁ : c.Contains x₁ y₁) (h₂ : c.Contains x₂ y₂) :
    1 - c.product x₁ y₁ x₂ y₂ ≠ 0 := by
  intro hzero
  have hproduct : c.product x₁ y₁ x₂ y₂ = 1 := by linear_combination -hzero
  apply h₁.product_mul_self_ne_one h₂
  rw [hproduct, one_mul]

/-- The divisor in the square of the first coordinate, as the second determines it. -/
theorem d_mul_sq_add_one_ne_zero (y : K) : c.d * y * y + 1 ≠ 0 := by
  intro hzero
  have hy : y ≠ 0 := by
    rintro rfl
    simp at hzero
  -- Minus one is the square of `i`, so `d` would be the square of `i / y`.
  apply c.not_square (c.i / y)
  rw [div_mul_div_comm, div_eq_iff (mul_ne_zero hy hy)]
  linear_combination c.sq_i - hzero

/-! ## Sums -/

theorem Contains.sumX_mul (h₁ : c.Contains x₁ y₁) (h₂ : c.Contains x₂ y₂) :
    c.sumX x₁ y₁ x₂ y₂ * (1 + c.product x₁ y₁ x₂ y₂) = x₁ * y₂ + x₂ * y₁ :=
  div_mul_cancel₀ _ (h₁.one_add_product_ne_zero h₂)

theorem Contains.sumY_mul (h₁ : c.Contains x₁ y₁) (h₂ : c.Contains x₂ y₂) :
    c.sumY x₁ y₁ x₂ y₂ * (1 - c.product x₁ y₁ x₂ y₂) = y₁ * y₂ + x₁ * x₂ :=
  div_mul_cancel₀ _ (h₁.one_sub_product_ne_zero h₂)

/-- The equation for a sum, with the denominators cleared. -/
theorem Contains.add_cleared (h₁ : c.Contains x₁ y₁) (h₂ : c.Contains x₂ y₂) :
    (y₁ * y₂ + x₁ * x₂) ^ 2 * (1 + c.product x₁ y₁ x₂ y₂) ^ 2 -
        (x₁ * y₂ + x₂ * y₁) ^ 2 * (1 - c.product x₁ y₁ x₂ y₂) ^ 2 =
      (1 + c.product x₁ y₁ x₂ y₂) ^ 2 * (1 - c.product x₁ y₁ x₂ y₂) ^ 2 +
        c.d * (x₁ * y₂ + x₂ * y₁) ^ 2 * (y₁ * y₂ + x₁ * x₂) ^ 2 := by
  unfold Contains at h₁ h₂
  unfold product
  -- Only the differences `y² - x²` matter, which differ by `a₁` and `a₂` from one.
  obtain ⟨a₁, ha₁⟩ : ∃ a₁, a₁ = c.d * x₁ * x₁ * y₁ * y₁ := ⟨_, rfl⟩
  obtain ⟨a₂, ha₂⟩ : ∃ a₂, a₂ = c.d * x₂ * x₂ * y₂ * y₂ := ⟨_, rfl⟩
  have hdifferences : (1 + a₁) * (1 + a₂) * (1 + a₁ * a₂) =
      (1 - a₁ * a₂) ^ 2 + a₁ * (1 + a₂) ^ 2 + a₂ * (1 + a₁) ^ 2 := by ring
  rw [← ha₁] at h₁
  rw [← ha₂] at h₂
  rw [← h₁, ← h₂] at hdifferences
  rw [ha₁, ha₂] at hdifferences
  linear_combination hdifferences

/-- The sum lies on the curve. -/
theorem Contains.add (h₁ : c.Contains x₁ y₁) (h₂ : c.Contains x₂ y₂) :
    c.Contains (c.sumX x₁ y₁ x₂ y₂) (c.sumY x₁ y₁ x₂ y₂) := by
  have hplus := h₁.one_add_product_ne_zero h₂
  have hminus := h₁.one_sub_product_ne_zero h₂
  have hcleared := h₁.add_cleared h₂
  rw [← h₁.sumX_mul h₂, ← h₁.sumY_mul h₂] at hcleared
  unfold Contains
  apply mul_left_cancel₀ (mul_ne_zero (pow_ne_zero 2 hplus) (pow_ne_zero 2 hminus))
  linear_combination hcleared

/-! ## Associativity

Both bracketings of the sum of three points, with all denominators cleared. The abbreviations in the
proofs are the products `s` of the coordinates of each point, the sum of the four products that take
one coordinate from each point, and the two signed sums `α` and `β` by which the numerators
differ. -/

theorem sumX_assoc_cleared (h₁ : c.Contains x₁ y₁) (h₂ : c.Contains x₂ y₂)
    (h₃ : c.Contains x₃ y₃) :
    ((x₁ * y₂ + x₂ * y₁) * (1 - c.product x₁ y₁ x₂ y₂) * y₃ +
        x₃ * ((y₁ * y₂ + x₁ * x₂) * (1 + c.product x₁ y₁ x₂ y₂))) *
      ((1 + c.product x₂ y₂ x₃ y₃) * (1 - c.product x₂ y₂ x₃ y₃) +
        c.d * x₁ * y₁ * (x₂ * y₃ + x₃ * y₂) * (y₂ * y₃ + x₂ * x₃)) =
    (x₁ * ((y₂ * y₃ + x₂ * x₃) * (1 + c.product x₂ y₂ x₃ y₃)) +
        (x₂ * y₃ + x₃ * y₂) * (1 - c.product x₂ y₂ x₃ y₃) * y₁) *
      ((1 + c.product x₁ y₁ x₂ y₂) * (1 - c.product x₁ y₁ x₂ y₂) +
        c.d * x₃ * y₃ * (x₁ * y₂ + x₂ * y₁) * (y₁ * y₂ + x₁ * x₂)) := by
  unfold Contains at h₁ h₂ h₃
  unfold product
  let s₁ := x₁ * y₁
  let s₂ := x₂ * y₂
  let s₃ := x₃ * y₃
  let total := x₁ * x₂ * x₃ + x₁ * y₂ * y₃ + y₁ * x₂ * y₃ + y₁ * y₂ * x₃
  let α := x₁ * y₂ * y₃ + y₁ * x₂ * y₃ - y₁ * y₂ * x₃ - x₁ * x₂ * x₃
  let β := x₁ * y₂ * y₃ + x₁ * x₂ * x₃ - y₁ * x₂ * y₃ - y₁ * y₂ * x₃
  linear_combination c.d * s₂ * s₃ * (β + c.d * s₂ * s₃ * total) * h₁ -
    c.d * s₂ * (c.d * s₁ * s₃ * (s₁ * β + s₃ * α)) * h₂ +
    c.d * s₂ * s₁ * (α - c.d * s₁ * s₂ * total) * h₃

theorem sumY_assoc_cleared (h₁ : c.Contains x₁ y₁) (h₂ : c.Contains x₂ y₂)
    (h₃ : c.Contains x₃ y₃) :
    ((y₁ * y₂ + x₁ * x₂) * (1 + c.product x₁ y₁ x₂ y₂) * y₃ +
        (x₁ * y₂ + x₂ * y₁) * (1 - c.product x₁ y₁ x₂ y₂) * x₃) *
      ((1 + c.product x₂ y₂ x₃ y₃) * (1 - c.product x₂ y₂ x₃ y₃) -
        c.d * x₁ * y₁ * (x₂ * y₃ + x₃ * y₂) * (y₂ * y₃ + x₂ * x₃)) =
    (y₁ * ((y₂ * y₃ + x₂ * x₃) * (1 + c.product x₂ y₂ x₃ y₃)) +
        x₁ * ((x₂ * y₃ + x₃ * y₂) * (1 - c.product x₂ y₂ x₃ y₃))) *
      ((1 + c.product x₁ y₁ x₂ y₂) * (1 - c.product x₁ y₁ x₂ y₂) -
        c.d * x₃ * y₃ * (x₁ * y₂ + x₂ * y₁) * (y₁ * y₂ + x₁ * x₂)) := by
  unfold Contains at h₁ h₂ h₃
  unfold product
  let s₁ := x₁ * y₁
  let s₂ := x₂ * y₂
  let s₃ := x₃ * y₃
  let total := y₁ * y₂ * y₃ + y₁ * x₂ * x₃ + x₁ * y₂ * x₃ + x₁ * x₂ * y₃
  let α := y₁ * y₂ * y₃ + x₁ * x₂ * y₃ - y₁ * x₂ * x₃ - x₁ * y₂ * x₃
  let β := y₁ * y₂ * y₃ + y₁ * x₂ * x₃ - x₁ * y₂ * x₃ - x₁ * x₂ * y₃
  linear_combination c.d * s₂ * s₃ * (β + c.d * s₂ * s₃ * total) * h₁ -
    c.d * s₂ * (c.d * s₁ * s₃ * (s₁ * β - s₃ * α)) * h₂ -
    c.d * s₂ * s₁ * (α + c.d * s₁ * s₂ * total) * h₃

/-- The denominators that are cleared do not vanish. -/
theorem Contains.denominators_ne_zero (h₁ : c.Contains x₁ y₁) (h₂ : c.Contains x₂ y₂)
    (h₃ : c.Contains x₃ y₃) :
    (1 + c.product x₁ y₁ x₂ y₂) * (1 - c.product x₁ y₁ x₂ y₂) *
      ((1 + c.product x₂ y₂ x₃ y₃) * (1 - c.product x₂ y₂ x₃ y₃)) ≠ 0 :=
  mul_ne_zero (mul_ne_zero (h₁.one_add_product_ne_zero h₂) (h₁.one_sub_product_ne_zero h₂))
    (mul_ne_zero (h₂.one_add_product_ne_zero h₃) (h₂.one_sub_product_ne_zero h₃))

theorem sumX_assoc (h₁ : c.Contains x₁ y₁) (h₂ : c.Contains x₂ y₂) (h₃ : c.Contains x₃ y₃) :
    c.sumX (c.sumX x₁ y₁ x₂ y₂) (c.sumY x₁ y₁ x₂ y₂) x₃ y₃ =
      c.sumX x₁ y₁ (c.sumX x₂ y₂ x₃ y₃) (c.sumY x₂ y₂ x₃ y₃) := by
  have hleft := (h₁.add h₂).one_add_product_ne_zero h₃
  have hright := h₁.one_add_product_ne_zero (h₂.add h₃)
  have hcleared := sumX_assoc_cleared h₁ h₂ h₃
  rw [← h₁.sumX_mul h₂, ← h₁.sumY_mul h₂, ← h₂.sumX_mul h₃, ← h₂.sumY_mul h₃] at hcleared
  rw [sumX, sumX.eq_def c x₁ y₁ (c.sumX _ _ _ _), div_eq_div_iff hleft hright]
  apply mul_left_cancel₀ (h₁.denominators_ne_zero h₂ h₃)
  rw [product.eq_def c (c.sumX _ _ _ _), product.eq_def c x₁ y₁ (c.sumX _ _ _ _)]
  linear_combination hcleared

theorem sumY_assoc (h₁ : c.Contains x₁ y₁) (h₂ : c.Contains x₂ y₂) (h₃ : c.Contains x₃ y₃) :
    c.sumY (c.sumX x₁ y₁ x₂ y₂) (c.sumY x₁ y₁ x₂ y₂) x₃ y₃ =
      c.sumY x₁ y₁ (c.sumX x₂ y₂ x₃ y₃) (c.sumY x₂ y₂ x₃ y₃) := by
  have hleft := (h₁.add h₂).one_sub_product_ne_zero h₃
  have hright := h₁.one_sub_product_ne_zero (h₂.add h₃)
  have hcleared := sumY_assoc_cleared h₁ h₂ h₃
  rw [← h₁.sumX_mul h₂, ← h₁.sumY_mul h₂, ← h₂.sumX_mul h₃, ← h₂.sumY_mul h₃] at hcleared
  rw [sumY, sumY.eq_def c x₁ y₁ (c.sumX _ _ _ _), div_eq_div_iff hleft hright]
  apply mul_left_cancel₀ (h₁.denominators_ne_zero h₂ h₃)
  rw [product.eq_def c (c.sumX _ _ _ _), product.eq_def c x₁ y₁ (c.sumX _ _ _ _)]
  linear_combination hcleared

/-! ## The group -/

theorem product_comm : c.product x₁ y₁ x₂ y₂ = c.product x₂ y₂ x₁ y₁ := by
  unfold product
  ring

theorem sumX_comm : c.sumX x₁ y₁ x₂ y₂ = c.sumX x₂ y₂ x₁ y₁ := by
  rw [sumX, sumX, product_comm, add_comm]

theorem sumY_comm : c.sumY x₁ y₁ x₂ y₂ = c.sumY x₂ y₂ x₁ y₁ := by
  rw [sumY, sumY, product_comm, mul_comm y₁, mul_comm x₁]

variable (c) in
/-- A point of the curve. -/
@[ext] structure Point where
  x : K
  y : K
  contains : c.Contains x y

namespace Point

instance : Zero c.Point := ⟨⟨0, 1, by simp [Contains]⟩⟩

instance : Add c.Point := ⟨fun s t => ⟨_, _, s.contains.add t.contains⟩⟩

instance : Neg c.Point := ⟨fun s => ⟨-s.x, s.y, by
  have h := s.contains
  unfold Contains at h ⊢
  linear_combination h⟩⟩

variable (r s t : c.Point)

@[simp] theorem x_zero : (0 : c.Point).x = 0 := rfl
@[simp] theorem y_zero : (0 : c.Point).y = 1 := rfl
@[simp] theorem x_neg : (-s).x = -s.x := rfl
@[simp] theorem y_neg : (-s).y = s.y := rfl
@[simp] theorem x_add : (s + t).x = c.sumX s.x s.y t.x t.y := rfl
@[simp] theorem y_add : (s + t).y = c.sumY s.x s.y t.x t.y := rfl

protected theorem add_assoc : r + s + t = r + (s + t) :=
  Point.ext (sumX_assoc r.contains s.contains t.contains)
    (sumY_assoc r.contains s.contains t.contains)

protected theorem add_comm : s + t = t + s := Point.ext sumX_comm sumY_comm

protected theorem zero_add : 0 + s = s := by
  ext <;> simp [sumX, sumY, product]

protected theorem neg_add_cancel : -s + s = 0 := by
  have hne := (-s).contains.one_sub_product_ne_zero s.contains
  ext
  · simp [sumX]
  · rw [y_add, y_zero, sumY, div_eq_one_iff_eq hne]
    -- What is left is the equation of the curve.
    have h := s.contains
    simp only [Contains, product, x_neg, y_neg] at h ⊢
    linear_combination h

instance : AddCommGroup c.Point where
  add_assoc := Point.add_assoc
  zero_add := Point.zero_add
  add_zero s := by rw [Point.add_comm, Point.zero_add]
  neg_add_cancel := Point.neg_add_cancel
  add_comm := Point.add_comm
  nsmul := nsmulRec
  zsmul := zsmulRec

end Point

end Edwards

end KeyCustody
