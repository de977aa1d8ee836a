import KeyCustody.Proofs.Modular
import KeyCustody.Residue
import Mathlib.Algebra.Field.Basic
import Mathlib.Data.Nat.Prime.Basic
import Mathlib.Data.ZMod.Defs
import Mathlib.FieldTheory.Finite.Basic
import Mathlib.Tactic.LinearCombination

/-!
# Residues modulo a prime form a field

The ring operations on residues are those of the library; powers, inverses and quotients are
computed, and are shown to be what they are named for. A modulus is taken to be prime through an
instance, so that everything that is known of fields applies to residues.

## Main definitions

* `Residue.field` — the field of residues modulo a prime

## Main results

* `Residue.inverse_mul_cancel`, `Residue.power_eq_pow`, `Residue.quotient_eq_mul_inv` — the computed
  operations are those of the field
* `Residue.withParity_of_sq_eq` — a root is determined by its parity
-/

namespace KeyCustody.Residue

open scoped Fin.CommRing

section Ring

variable {n : Nat} [@NeZero Nat Zero.ofOfNat0 n]

theorem ofNat_eq_natCast (k : Nat) : Fin.ofNat n k = (k : Fin n) := rfl

theorem natCast_val (x : Fin n) : ((x.val : Nat) : Fin n) = x := by
  rw [← ofNat_eq_natCast]
  exact Fin.ext (Nat.mod_eq_of_lt x.isLt)

theorem natCast_eq_iff {a b : Nat} : (a : Fin n) = (b : Fin n) ↔ a ≡ b [MOD n] := Fin.ext_iff

theorem power_eq_pow (x : Fin n) (k : Nat) : power x k = x ^ k := by
  rw [power, Modular.pow_eq, ofNat_eq_natCast, natCast_eq_iff.mpr (Nat.mod_modEq _ _),
    Nat.cast_pow, natCast_val]

/-- A residue other than zero and its negative differ in parity, for their representatives add up
to the modulus. -/
theorem val_neg_of_ne_zero {x : Fin n} (hx : x ≠ 0) : (-x).val = n - x.val := by
  have hpos : 0 < x.val := Nat.pos_of_ne_zero (mt Fin.val_eq_zero_iff.mp hx)
  rw [Fin.val_neg', Nat.mod_eq_of_lt (by omega)]

end Ring

section Prime

variable {n : Nat} [@NeZero Nat Zero.ofOfNat0 n] [hprime : Fact n.Prime]

theorem inverse_zero : inverse (0 : Fin n) = 0 := by
  have hnone : Modular.inverse? (0 : Fin n).val n = none := by
    rw [← Option.not_isSome_iff_eq_none, Modular.inverse?_isSome_iff, Fin.val_zero,
      Nat.coprime_zero_left]
    exact hprime.out.one_lt.ne'
  rw [inverse, hnone]
  rfl

theorem inverse_mul_cancel {x : Fin n} (hx : x ≠ 0) : inverse x * x = 1 := by
  have hcoprime : Nat.Coprime x.val n := by
    apply Nat.Coprime.symm
    rw [hprime.out.coprime_iff_not_dvd]
    intro hdvd
    exact hx (Fin.ext (Nat.eq_zero_of_dvd_of_lt hdvd x.isLt))
  obtain ⟨y, hy⟩ := Option.isSome_iff_exists.mp ((Modular.inverse?_isSome_iff _ _).mpr hcoprime)
  have hone := Modular.mul_of_inverse?_eq_some hprime.out.pos hy
  rw [inverse, hy, Option.getD_some, ofNat_eq_natCast]
  calc (y : Fin n) * x = ((y * x.val : Nat) : Fin n) := by rw [Nat.cast_mul, natCast_val]
    _ = ((1 : Nat) : Fin n) := natCast_eq_iff.mpr hone
    _ = 1 := Nat.cast_one

theorem one_ne_zero_of_prime : (1 : Fin n) ≠ 0 := by
  rw [← Nat.cast_one, ← Nat.cast_zero, ne_eq, natCast_eq_iff, Nat.modEq_zero_iff_dvd]
  exact hprime.out.one_lt.ne' ∘ Nat.dvd_one.mp

/-- The field of residues modulo a prime. -/
scoped instance field : Field (Fin n) where
  toCommRing := Fin.instCommRing n
  inv := inverse
  div := quotient
  div_eq_mul_inv _ _ := rfl
  exists_pair_ne := ⟨1, 0, one_ne_zero_of_prime⟩
  mul_inv_cancel x hx := (mul_comm _ _).trans (inverse_mul_cancel hx)
  inv_zero := inverse_zero
  nnqsmul := _
  qsmul := _

theorem quotient_eq_mul_inv (x y : Fin n) : quotient x y = x * y⁻¹ := rfl

theorem pow_sub_one_eq_one {x : Fin n} (hx : x ≠ 0) : x ^ (n - 1) = 1 := by
  have hcard := FiniteField.pow_card_sub_one_eq_one x hx
  rwa [Fintype.card_fin] at hcard

/-- A root is determined by its parity. -/
theorem withParity_of_sq_eq (hodd : n % 2 = 1) {x y : Fin n} (h : y * y = x * x) :
    withParity y (x.val % 2 == 1) = x := by
  rcases mul_self_eq_mul_self_iff.mp h with rfl | rfl
  · exact if_pos rfl
  · by_cases hx : x = 0
    · simp [withParity, hx]
    · have hlt := x.isLt
      -- The representatives of a root and its negative add up to an odd number.
      have hparity : (x.val % 2 == 1) ≠ ((-x).val % 2 == 1) := by
        rw [val_neg_of_ne_zero hx]
        rcases Nat.mod_two_eq_zero_or_one x.val with h | h
        · have hneg : (n - x.val) % 2 = 1 := by omega
          simp [h, hneg]
        · have hneg : (n - x.val) % 2 = 0 := by omega
          simp [h, hneg]
      rw [withParity, if_neg hparity.symm]
      ring

end Prime

end KeyCustody.Residue
