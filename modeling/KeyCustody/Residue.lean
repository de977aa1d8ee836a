import KeyCustody.Modular

/-!
# Fields of residues

Both curves of this library live over the residues modulo a prime, which are `Fin n` with the
ring operations it comes with. Powers, inverses and quotients are added here. That the modulus is
not zero is stated with the zero of the numeral, as the operations of `Fin n` state it.

## Main definitions

* `Residue.power`, `Residue.inverse`, `Residue.quotient` — powers, inverses and quotients
-/

namespace KeyCustody.Residue

variable {n : Nat} [@NeZero Nat Zero.ofOfNat0 n]

/-- A power of a residue. -/
def power (x : Fin n) (k : Nat) : Fin n := Fin.ofNat n (Modular.pow x.val k n)

/-- The inverse of a residue; one without an inverse is sent to zero. -/
def inverse (x : Fin n) : Fin n := Fin.ofNat n ((Modular.inverse? x.val n).getD 0)

/-- The quotient of residues, by multiplication with the inverse. -/
def quotient (x y : Fin n) : Fin n := x * inverse y

/-- A choice between a residue and its negative by the parity of its representative. -/
def withParity (x : Fin n) (odd : Bool) : Fin n :=
  if (x.val % 2 == 1) = odd then x else 0 - x

end KeyCustody.Residue
