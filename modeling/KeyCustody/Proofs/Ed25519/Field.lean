import KeyCustody.Ed25519.Curve
import KeyCustody.Proofs.Primality
import KeyCustody.Proofs.Residue

/-!
# The field of edwards25519

The coordinates of points are residues modulo a prime.

## Main results

* `Ed25519.prime_fieldSize` — the modulus is a prime
-/

namespace KeyCustody.Ed25519

open Primality

/-- Certificates that lead to the prime of the coordinates. -/
def fieldCertificates : List Certificate := [
  ⟨32573, 2, [2, 2, 17, 479]⟩,
  ⟨65147, 2, [2, 32573]⟩,
  ⟨57467, 2, [2, 59, 487]⟩,
  ⟨132049, 26, [2, 2, 2, 2, 3, 3, 7, 131]⟩,
  ⟨3727, 3, [2, 3, 3, 3, 3, 23]⟩,
  ⟨1923133, 2, [2, 2, 3, 43, 3727]⟩,
  ⟨4153, 5, [2, 2, 2, 3, 173]⟩,
  ⟨1723, 3, [2, 3, 7, 41]⟩,
  ⟨430751, 17, [2, 5, 5, 5, 1723]⟩,
  ⟨31757755568855353, 10, [2, 2, 2, 3, 31, 107, 223, 4153, 430751]⟩,
  ⟨9463, 3, [2, 3, 19, 83]⟩,
  ⟨37853, 2, [2, 2, 9463]⟩,
  ⟨75707, 2, [2, 37853]⟩,
  ⟨2437, 2, [2, 2, 3, 7, 29]⟩,
  ⟨569003, 2, [2, 7, 97, 419]⟩,
  ⟨2773320623, 5, [2, 2437, 569003]⟩,
  ⟨72106336199, 7, [2, 13, 2773320623]⟩,
  ⟨8574133, 2, [2, 2, 3, 7, 103, 991]⟩,
  ⟨1919519569386763, 2, [2, 3, 7, 19, 47, 47, 127, 8574133]⟩,
  ⟨75445702479781427272750846543864801, 7, [2, 2, 2, 2, 2, 3, 3, 5, 5, 75707, 72106336199,
    1919519569386763]⟩,
  ⟨74058212732561358302231226437062788676166966415465897661863160754340907, 2, [2, 3, 353, 57467,
    132049, 1923133, 31757755568855353, 75445702479781427272750846543864801]⟩,
  ⟨fieldSize, 2, [2, 2, 3, 65147,
    74058212732561358302231226437062788676166966415465897661863160754340907]⟩]

theorem areSound_fieldCertificates : areSound [] fieldCertificates = true := by decide +kernel

theorem prime_fieldSize : fieldSize.Prime :=
  prime_of_areSound (by simp) areSound_fieldCertificates (List.getLast_mem (List.cons_ne_nil _ _))

instance : Fact fieldSize.Prime := ⟨prime_fieldSize⟩

end KeyCustody.Ed25519
