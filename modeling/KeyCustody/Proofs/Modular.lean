import KeyCustody.Modular
import Mathlib.Data.Int.GCD
import Mathlib.Data.Int.ModEq
import Mathlib.Tactic.LinearCombination
import Mathlib.Tactic.Ring

/-!
# Powers and inverses modulo a number

Repeated squaring computes the remainder of the power, and Euclid's algorithm finds an inverse
whenever there is one. Along the algorithm each of the two remainders stays congruent to its
factor times the number under inversion; at the end the remainder is the greatest common divisor,
so the factor is an inverse exactly when that is one.

## Main results

* `Modular.pow_eq` — the power, by repeated squaring
* `Modular.euclid_fst`, `Modular.euclid_modEq` — the divisor that Euclid's algorithm ends with, and
  its factor
* `Modular.inverse?_isSome_iff`, `Modular.mul_of_inverse?_eq_some` — which numbers have an inverse,
  and that it is one
-/

namespace KeyCustody.Modular

theorem pow_eq (base exponent modulus : Nat) :
    pow base exponent modulus = base ^ exponent % modulus := by
  induction exponent using Nat.strongRecOn generalizing base with
  | ind exponent ih =>
    by_cases hzero : exponent = 0
    · rw [pow, if_pos hzero, hzero, pow_zero]
    · -- The induction is on the exponent, since the base is squared on the way.
      have hroot : pow (base * base % modulus) (exponent / 2) modulus =
          base ^ (2 * (exponent / 2)) % modulus := by
        rw [ih (exponent / 2) (by omega), ← Nat.pow_mod, ← pow_two, ← pow_mul]
      rw [pow, if_neg hzero]
      dsimp only
      rw [hroot]
      split_ifs with hodd
      · have hexponent : 2 * (exponent / 2) + 1 = exponent := by omega
        rw [Nat.mul_mod_mod, ← pow_succ', hexponent]
      · have hexponent : 2 * (exponent / 2) = exponent := by omega
        rw [hexponent]

theorem pow_lt {modulus : Nat} (hpos : 0 < modulus) (base exponent : Nat) :
    pow base exponent modulus < modulus := by
  rw [pow_eq]
  exact Nat.mod_lt _ hpos

theorem euclid_fst (r₀ r₁ : Nat) (s₀ s₁ : Int) : (euclid r₀ r₁ s₀ s₁).1 = Nat.gcd r₀ r₁ := by
  fun_induction euclid r₀ r₁ s₀ s₁ with
  | case1 r₀ s₀ s₁ => rw [Nat.gcd_zero_right]
  | case2 r₀ r₁ s₀ s₁ _ ih => rw [ih, Nat.gcd_comm r₁, ← Nat.gcd_rec, Nat.gcd_comm]

/-- Both remainders stay congruent to their factor times the number under inversion. -/
theorem euclid_modEq {a m : Int} {r₀ r₁ : Nat} {s₀ s₁ : Int} (h₀ : r₀ ≡ s₀ * a [ZMOD m])
    (h₁ : r₁ ≡ s₁ * a [ZMOD m]) :
    ((euclid r₀ r₁ s₀ s₁).1 : Int) ≡ (euclid r₀ r₁ s₀ s₁).2 * a [ZMOD m] := by
  fun_induction euclid r₀ r₁ s₀ s₁ with
  | case1 r₀ s₀ s₁ => exact h₀
  | case2 r₀ r₁ s₀ s₁ _ ih =>
    apply ih h₁
    have hdivision : ((r₀ % r₁ : Nat) : Int) = r₀ - (r₀ / r₁ : Nat) * r₁ := by
      have h := congrArg (Nat.cast (R := Int)) (Nat.div_add_mod' r₀ r₁)
      rw [Nat.cast_add, Nat.cast_mul] at h
      linear_combination h
    rw [hdivision, sub_mul, mul_assoc]
    exact h₀.sub (h₁.mul_left _)

theorem inverse?_isSome_iff (a m : Nat) : (inverse? a m).isSome ↔ Nat.Coprime a m := by
  have hgcd : (euclid (a % m) m 1 0).1 = Nat.gcd a m := by
    rw [euclid_fst, ← Nat.gcd_rec, Nat.gcd_comm]
  simp only [inverse?, hgcd]
  split_ifs with h
  · simpa using h
  · simpa using h

theorem inverse?_lt {a m x : Nat} (hm : 0 < m) (h : inverse? a m = some x) : x < m := by
  simp only [inverse?] at h
  split_ifs at h
  obtain rfl := Option.some_inj.mp h
  have hpos : (0 : Int) < m := by exact_mod_cast hm
  have hlt := Int.emod_lt_of_pos (euclid (a % m) m 1 0).2 hpos
  omega

/-- The product of a number and its inverse leaves one. -/
theorem mul_of_inverse?_eq_some {a m x : Nat} (hm : 0 < m) (h : inverse? a m = some x) :
    x * a ≡ 1 [MOD m] := by
  simp only [inverse?] at h
  split_ifs at h with hone
  obtain rfl := Option.some_inj.mp h
  -- The algorithm starts from the number itself, with factor one, and the modulus, with factor zero.
  have hstart : ((a % m : Nat) : Int) ≡ 1 * a [ZMOD m] := by
    rw [one_mul, Int.natCast_mod]
    exact Int.mod_modEq _ _
  have hmodulus : (m : Int) ≡ 0 * a [ZMOD m] := by
    rw [zero_mul]
    exact Int.modEq_zero_iff_dvd.mpr dvd_rfl
  have hfactor := euclid_modEq hstart hmodulus
  rw [hone] at hfactor
  -- The factor may be negative; its remainder is what is returned.
  have hnonneg := Int.emod_nonneg (euclid (a % m) m 1 0).2 (by omega : (m : Int) ≠ 0)
  rw [← Int.natCast_modEq_iff]
  push_cast
  rw [Int.toNat_of_nonneg hnonneg]
  calc (euclid (a % m) m 1 0).2 % m * a ≡ (euclid (a % m) m 1 0).2 * a [ZMOD m] :=
        (Int.mod_modEq _ _).mul_right _
    _ ≡ 1 [ZMOD m] := hfactor.symm

end KeyCustody.Modular
