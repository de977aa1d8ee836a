import Mathlib.Algebra.Group.Basic
import Mathlib.Tactic.SplitIfs

/-!
# Multiples by doubling

Multiples of points are computed by doubling along the binary digits of the factor. The same is
done with several kinds of points, and two computations that correspond in the neutral point and
in sums correspond in all multiples. In a group the computation gives the multiple.

## Main definitions

* `IsDoubling` — a function computes multiples by doubling

## Main results

* `IsDoubling.related` — corresponding computations have corresponding results
* `isDoubling_nsmul` — the multiples in a monoid
-/

namespace KeyCustody

variable {A B : Type*}

/-- The function computes multiples from a neutral element and an addition, by doubling along the
binary digits. -/
def IsDoubling (zero : A) (add : A → A → A) (multiply : Nat → A → A) : Prop :=
  ∀ k s, multiply k s =
    if k = 0 then zero
    else if k % 2 = 1 then add s (multiply (k / 2) (add s s)) else multiply (k / 2) (add s s)

/-- Computations that correspond in the neutral elements and in sums correspond in all multiples. -/
theorem IsDoubling.related {zero : A} {add : A → A → A} {multiply : Nat → A → A} {zero' : B}
    {add' : B → B → B} {multiply' : Nat → B → B} (h : IsDoubling zero add multiply)
    (h' : IsDoubling zero' add' multiply') {R : A → B → Prop} (hzero : R zero zero')
    (hadd : ∀ {s t s' t'}, R s s' → R t t' → R (add s t) (add' s' t')) (k : Nat) {s : A} {s' : B}
    (hs : R s s') : R (multiply k s) (multiply' k s') := by
  -- The points are doubled while the factor is halved, so they vary along the induction.
  induction k using Nat.strongRecOn generalizing s s' with
  | ind k ih =>
    rw [h, h']
    split_ifs with hk hodd
    · exact hzero
    · exact hadd hs (ih _ (by omega) (hadd hs hs))
    · exact ih _ (by omega) (hadd hs hs)

theorem isDoubling_nsmul {M : Type*} [AddMonoid M] :
    IsDoubling (0 : M) (· + ·) (fun k s => k • s) := by
  intro k s
  have hhalf : (k / 2) • (s + s) = (2 * (k / 2)) • s := by
    rw [← two_nsmul, mul_nsmul]
  dsimp only
  rw [hhalf]
  split_ifs with hk hodd
  · rw [hk, zero_nsmul]
  · have heq : 2 * (k / 2) + 1 = k := by omega
    rw [← succ_nsmul', heq]
  · have heq : 2 * (k / 2) = k := by omega
    rw [heq]

end KeyCustody
