import KeyCustody.P256.Curve
import KeyCustody.Proofs.Primality
import KeyCustody.Proofs.Residue

/-!
# The two primes of P-256

The coordinates of points and the scalars that multiply them are residues modulo two primes, so
both form fields.

## Main results

* `P256.prime_fieldSize`, `P256.prime_order` — the moduli are primes
-/

namespace KeyCustody.P256

open Primality

/-- Certificates that lead to the prime of the coordinates. -/
def fieldCertificates : List Certificate := [
  ⟨1531, 2, [2, 3, 3, 5, 17]⟩,
  ⟨65537, 3, [2, 2, 2, 2, 2, 2, 2, 2, 2, 2, 2, 2, 2, 2, 2, 2]⟩,
  ⟨490463, 14, [2, 7, 53, 661]⟩,
  ⟨17449, 14, [2, 2, 2, 3, 727]⟩,
  ⟨6700417, 5, [2, 2, 2, 2, 2, 2, 2, 3, 17449]⟩,
  ⟨2411, 6, [2, 5, 241]⟩,
  ⟨3769, 7, [2, 2, 2, 3, 157]⟩,
  ⟨204061199, 11, [2, 11, 23, 107, 3769]⟩,
  ⟨34282281433, 17, [2, 2, 2, 3, 7, 204061199]⟩,
  ⟨3677, 2, [2, 2, 919]⟩,
  ⟨66417393611, 6, [2, 5, 53, 173, 197, 3677]⟩,
  ⟨11290956913871, 13, [2, 5, 17, 66417393611]⟩,
  ⟨18169, 11, [2, 2, 2, 3, 757]⟩,
  ⟨1087, 3, [2, 3, 181]⟩,
  ⟨4349, 2, [2, 2, 1087]⟩,
  ⟨78283, 3, [2, 3, 3, 4349]⟩,
  ⟨704251, 2, [2, 3, 3, 5, 5, 5, 313]⟩,
  ⟨46076956964474543, 5, [2, 23, 18169, 78283, 704251]⟩,
  ⟨774023187263532362759620327192479577272145303, 3, [2, 3, 3, 2411, 34282281433, 11290956913871,
    46076956964474543]⟩,
  ⟨835945042244614951780389953367877943453916927241, 11, [2, 2, 2, 3, 3, 3, 5,
    774023187263532362759620327192479577272145303]⟩,
  ⟨fieldSize, 6, [2, 3, 5, 5, 17, 257, 641, 1531, 65537, 490463, 6700417,
    835945042244614951780389953367877943453916927241]⟩]

/-- Certificates that lead to the prime of the scalars. -/
def orderCertificates : List Certificate := [
  ⟨3407, 5, [2, 13, 131]⟩,
  ⟨17449, 14, [2, 2, 2, 3, 727]⟩,
  ⟨9547, 2, [2, 3, 37, 43]⟩,
  ⟨38189, 2, [2, 2, 9547]⟩,
  ⟨1201, 11, [2, 2, 2, 2, 3, 5, 5]⟩,
  ⟨9350987, 2, [2, 17, 229, 1201]⟩,
  ⟨187019741, 2, [2, 2, 5, 9350987]⟩,
  ⟨311245691, 2, [2, 5, 7, 17, 29, 29, 311]⟩,
  ⟨622491383, 5, [2, 311245691]⟩,
  ⟨126241, 7, [2, 2, 2, 2, 2, 3, 5, 263]⟩,
  ⟨104471, 11, [2, 5, 31, 337]⟩,
  ⟨3969899, 2, [2, 19, 104471]⟩,
  ⟨1002328039319, 19, [2, 126241, 3969899]⟩,
  ⟨1297, 10, [2, 2, 2, 2, 3, 3, 3, 3]⟩,
  ⟨16879, 3, [2, 3, 29, 97]⟩,
  ⟨1511, 11, [2, 5, 151]⟩,
  ⟨3023, 5, [2, 1511]⟩,
  ⟨155317, 5, [2, 2, 3, 7, 43, 43]⟩,
  ⟨191039911, 3, [2, 3, 5, 41, 155317]⟩,
  ⟨208150935158385979, 2, [2, 3, 11, 43, 127, 3023, 191039911]⟩,
  ⟨2624747550333869278416773953, 7, [2, 2, 2, 2, 2, 2, 3, 3, 1297, 16879, 208150935158385979]⟩,
  ⟨order, 7, [2, 2, 2, 2, 3, 71, 131, 373, 3407, 17449, 38189, 187019741, 622491383, 1002328039319,
    2624747550333869278416773953]⟩]

theorem areSound_certificates :
    areSound [] fieldCertificates = true ∧ areSound [] orderCertificates = true := by
  decide +kernel

theorem prime_fieldSize : fieldSize.Prime :=
  prime_of_areSound (by simp) areSound_certificates.1 (List.getLast_mem (List.cons_ne_nil _ _))

theorem prime_order : order.Prime :=
  prime_of_areSound (by simp) areSound_certificates.2 (List.getLast_mem (List.cons_ne_nil _ _))

instance : Fact fieldSize.Prime := ⟨prime_fieldSize⟩

instance : Fact order.Prime := ⟨prime_order⟩

end KeyCustody.P256
