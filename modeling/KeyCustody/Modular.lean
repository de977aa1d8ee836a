/-!
# Modular arithmetic

Powers and inverses of residues, computed on natural numbers of any size.

## Main definitions

* `Modular.pow` — a power modulo a number, by repeated squaring
* `Modular.inverse?` — the inverse modulo a number, if there is one
-/

namespace KeyCustody.Modular

/-- The power `base ^ exponent` modulo `modulus`. -/
def pow (base exponent modulus : Nat) : Nat :=
  if exponent = 0 then 1 % modulus
  else
    let root := pow (base * base % modulus) (exponent / 2) modulus
    if exponent % 2 = 1 then base * root % modulus else root
termination_by exponent
decreasing_by omega

/-- Euclid's algorithm on two remainders, carrying along for each the factor by which it is
congruent to the number under inversion. Ends with the greatest common divisor. -/
def euclid (r₀ r₁ : Nat) (s₀ s₁ : Int) : Nat × Int :=
  if r₁ = 0 then (r₀, s₀)
  else euclid r₁ (r₀ % r₁) s₁ (s₀ - (r₀ / r₁ : Nat) * s₁)
termination_by r₁
decreasing_by exact Nat.mod_lt _ (by omega)

/-- The inverse of `a` modulo `m`, in the range from `0` to `m - 1`. -/
def inverse? (a m : Nat) : Option Nat :=
  let (divisor, factor) := euclid (a % m) m 1 0
  if divisor = 1 then some (factor % m).toNat else none

end KeyCustody.Modular
