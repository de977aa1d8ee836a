import KeyCustody.Proofs.Rsa.Permutation
import Mathlib.NumberTheory.LucasLehmer

/-!
# A key of two Mersenne primes

The results on keys with distinct prime factors are about keys that exist. Here is one of a
customary public exponent whose factors are primes by the test of Lucas and Lehmer. Its modulus
has 141 octets, enough for every padding of this library.

## Main definitions

* `Rsa.PrivateKey.mersenne` — the key with the factors `2 ^ 607 - 1` and `2 ^ 521 - 1`

## Main results

* `Rsa.PrivateKey.hasDistinctPrimes_mersenne` — its factors are distinct primes
* `Rsa.PrivateKey.size_mersenne`, `Rsa.PrivateKey.bits_mersenne_le` — the length of its modulus
-/

namespace KeyCustody.Rsa.PrivateKey

/-- The key with the factors `2 ^ 607 - 1` and `2 ^ 521 - 1`. One less than either factor divides
the product in the private exponent, which therefore is inverse to the public one. -/
def mersenne : PrivateKey where
  publicKey := {
    modulus := (2 ^ 607 - 1) * (2 ^ 521 - 1)
    exponent := 65537
    modulus_odd := by decide +kernel
    exponent_odd := by decide
    two_le_exponent := by decide
    exponent_le := by decide
    exponent_lt_modulus := by decide +kernel }
  exponent := (1 + 21760 * (2 * (2 ^ 606 - 1) * (2 ^ 520 - 1))) / 65537
  p := 2 ^ 607 - 1
  q := 2 ^ 521 - 1
  one_lt_p := by decide +kernel
  one_lt_q := by decide +kernel
  product := rfl
  inverse_p := by decide +kernel
  inverse_q := by decide +kernel

theorem hasDistinctPrimes_mersenne : mersenne.HasDistinctPrimes where
  prime_p := lucas_lehmer_sufficiency 607 (by omega) (by norm_num)
  prime_q := lucas_lehmer_sufficiency 521 (by omega) (by norm_num)
  p_ne_q := (mersenne_lt_mersenne.mpr (show 521 < 607 by decide)).ne'

/-- The product of two Mersenne numbers has as many bits as its factors together. -/
theorem log2_mersenne_mul {m n : Nat} (hm : 2 ≤ m) (hn : 2 ≤ n) :
    Nat.log2 ((2 ^ m - 1) * (2 ^ n - 1)) = m + n - 1 := by
  obtain ⟨m, rfl⟩ := Nat.exists_eq_add_of_le' hm
  obtain ⟨n, rfl⟩ := Nat.exists_eq_add_of_le' hn
  obtain ⟨a, ha⟩ := Nat.exists_eq_add_of_le' (Nat.two_pow_pos m)
  obtain ⟨b, hb⟩ := Nat.exists_eq_add_of_le' (Nat.two_pow_pos n)
  have hp : 2 ^ (m + 2) - 1 = 4 * a + 3 := by
    rw [pow_add, ha]
    omega
  have hq : 2 ^ (n + 2) - 1 = 4 * b + 3 := by
    rw [pow_add, hb]
    omega
  have hpower : 2 ^ (m + 2 + (n + 2) - 1) = 8 * ((a + 1) * (b + 1)) := by
    rw [show m + 2 + (n + 2) - 1 = 3 + m + n by omega, pow_add, pow_add, ha, hb, mul_assoc]
    rfl
  rw [hp, hq, Nat.log2_eq_iff (by positivity), pow_succ, hpower]
  constructor <;> nlinarith [Nat.zero_le (a * b)]

theorem modulus_mersenne_ne_zero : mersenne.publicKey.modulus ≠ 0 :=
  Nat.ne_of_gt (Nat.zero_lt_of_lt mersenne.publicKey.exponent_lt_modulus)

theorem log2_modulus_mersenne : mersenne.publicKey.modulus.log2 = 1127 :=
  log2_mersenne_mul (by decide) (by decide)

theorem size_mersenne : mersenne.size = 141 := by
  rw [size, PublicKey.size, Octets.byteLength, if_neg modulus_mersenne_ne_zero,
    log2_modulus_mersenne]

theorem bits_mersenne : mersenne.publicKey.bits = 1128 := by
  rw [PublicKey.bits, Octets.bitLength, if_neg modulus_mersenne_ne_zero, log2_modulus_mersenne]

theorem bits_mersenne_le : mersenne.publicKey.bits ≤ PublicKey.maxBits := by
  rw [bits_mersenne]
  decide

end KeyCustody.Rsa.PrivateKey
