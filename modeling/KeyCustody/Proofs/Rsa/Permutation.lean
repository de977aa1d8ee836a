import KeyCustody.Proofs.Modular
import KeyCustody.Proofs.Octets
import KeyCustody.Rsa.Key
import Mathlib.FieldTheory.Finite.Basic

/-!
# The private operation inverts the public one

A key is accepted without a test of its factors, so nothing is known of the candidate that the
private operation computes but that it lies below the modulus; the check by the public operation
does the rest. If the factors are distinct primes, the check always succeeds: modulo each factor
the candidate is the power with the private exponent, by Fermat's little theorem the two exponents
cancel, and the two congruences combine to one modulo the product. Raising to the public exponent
is then a permutation of the residues.

## Main definitions

* `Rsa.PrivateKey.HasDistinctPrimes` — the factors are two different primes

## Main results

* `Rsa.PrivateKey.root_lt` — the candidate is a residue, whatever the factors
* `Rsa.PrivateKey.recover?_eq_ok_iff` — what the check lets through
* `Rsa.PrivateKey.root_raise`, `Rsa.PrivateKey.raise_root` — the two operations are inverse
* `Rsa.PublicKey.lt_pow_size`, `Rsa.PublicKey.pow_le_modulus` — the modulus has its full length
-/

namespace KeyCustody.Rsa

/-! ## Sizes -/

namespace PublicKey

variable (k : PublicKey)

theorem one_lt_modulus : 1 < k.modulus :=
  lt_of_lt_of_le (by omega) (k.two_le_exponent.trans k.exponent_lt_modulus.le)

theorem raise_eq (m : Nat) : k.raise m = m ^ k.exponent % k.modulus :=
  Modular.pow_eq _ _ _

theorem raise_lt (m : Nat) : k.raise m < k.modulus :=
  Modular.pow_lt (Nat.zero_lt_of_lt k.one_lt_modulus) _ _

theorem lt_pow_size : k.modulus < 256 ^ k.size :=
  Octets.lt_pow_byteLength _

/-- A residue is recovered from its form in the width of the modulus. -/
theorem toNat_ofNatWidth_size {k : PublicKey} {m : Nat} (h : m < k.modulus) :
    Octets.toNat (Octets.ofNatWidth k.size m) = m :=
  Octets.toNat_ofNatWidth_of_lt (h.trans k.lt_pow_size)

/-- The first octet of the modulus is not zero, so a number of fewer octets is a residue. -/
theorem pow_le_modulus {n : Nat} (h : n < k.size) : 256 ^ n ≤ k.modulus := by
  obtain ⟨last, hlast⟩ : ∃ last, Octets.byteLength k.modulus = last + 1 :=
    Nat.exists_eq_add_one.mpr (Nat.zero_lt_of_lt h)
  have hn : n < last + 1 := hlast ▸ h
  calc 256 ^ n ≤ 256 ^ last := Nat.pow_le_pow_right (by omega) (by omega)
    _ ≤ k.modulus := Octets.pow_le_of_byteLength hlast

/-- Octets of the length of the modulus that begin with a zero octet spell a residue. -/
theorem toNat_zero_cons_lt {b : Octets} (h : (0x00 :: b).length = k.size) :
    Octets.toNat (0x00 :: b) < k.modulus := by
  rw [List.length_cons] at h
  rw [Octets.toNat_cons, UInt8.toNat_zero, zero_mul, zero_add]
  calc Octets.toNat b < 256 ^ b.length := Octets.toNat_lt b
    _ ≤ k.modulus := k.pow_le_modulus (by omega)

end PublicKey

namespace PrivateKey

variable {k : PrivateKey}

theorem size_eq (k : PrivateKey) : k.size = k.publicKey.size := rfl

/-! ## The candidate -/

/-- The candidate is a residue modulo the modulus, whatever the factors. -/
theorem root_lt (k : PrivateKey) (c : Nat) : k.root c < k.publicKey.modulus := by
  unfold root
  cases k.coefficient? with
  | none => exact Modular.pow_lt (Nat.zero_lt_of_lt k.publicKey.one_lt_modulus) _ _
  | some coefficient =>
    dsimp only
    -- The difference is of no matter: its product is reduced modulo the first factor.
    generalize (((Modular.pow c (k.exponent % (k.p - 1)) k.p : Nat) : Int) -
      (Modular.pow c (k.exponent % (k.q - 1)) k.q : Nat)) % (k.p : Int) = difference
    have hp : difference.toNat * coefficient % k.p < k.p :=
      Nat.mod_lt _ (Nat.zero_lt_of_lt k.one_lt_p)
    have hq : Modular.pow c (k.exponent % (k.q - 1)) k.q < k.q :=
      Modular.pow_lt (Nat.zero_lt_of_lt k.one_lt_q) _ _
    rw [← k.product]
    calc difference.toNat * coefficient % k.p * k.q + Modular.pow c (k.exponent % (k.q - 1)) k.q
        < difference.toNat * coefficient % k.p * k.q + k.q := by omega
      _ = (difference.toNat * coefficient % k.p + 1) * k.q := by ring
      _ ≤ k.p * k.q := Nat.mul_le_mul_right _ hp

/-- The private operation returns the candidate where the public operation confirms it. -/
theorem recover?_eq_ok_iff {c m : Nat} : k.recover? c = .ok m ↔
    c < k.publicKey.modulus ∧ k.root c = m ∧ k.publicKey.raise m = c := by
  unfold recover?
  split_ifs with hc
  · dsimp only
    split_ifs with hcheck
    · simp only [Except.ok.injEq]
      constructor
      · rintro rfl
        exact ⟨hc, rfl, hcheck⟩
      · exact fun h => h.2.1
    · simp only [false_iff]
      rintro ⟨-, rfl, hraise⟩
      exact hcheck hraise
  · simp [hc]

theorem recover?_eq_error {c : Nat} {fault : Fault} (h : k.recover? c = .error fault) :
    fault = .decryption ∨ fault = .internal := by
  unfold recover? at h
  split_ifs at h with hc
  · dsimp only at h
    split_ifs at h
    exact .inr (Except.error.inj h).symm
  · exact .inl (Except.error.inj h).symm

/-! ## Prime factors -/

/-- The factors are two different primes. Loading a key does not test that. -/
structure HasDistinctPrimes (k : PrivateKey) : Prop where
  prime_p : k.p.Prime
  prime_q : k.q.Prime
  p_ne_q : k.p ≠ k.q

/-- An exponent counts modulo one less than a prime, unless it is a multiple of it. -/
theorem pow_mod_modEq {p : Nat} (hp : p.Prime) {exponent : Nat} (h : exponent % (p - 1) ≠ 0)
    (c : Nat) : c ^ (exponent % (p - 1)) ≡ c ^ exponent [MOD p] := by
  have : Fact p.Prime := ⟨hp⟩
  rw [← ZMod.natCast_eq_natCast_iff, Nat.cast_pow, Nat.cast_pow]
  by_cases hc : (c : ZMod p) = 0
  · -- Powers of zero agree as long as neither exponent is zero.
    have hexponent : exponent ≠ 0 := by
      rintro rfl
      exact h (Nat.zero_mod _)
    rw [hc, zero_pow h, zero_pow hexponent]
  · exact (pow_eq_pow_mod exponent (ZMod.pow_card_sub_one_eq_one hc)).symm

/-- Exponents that are inverse modulo one less than a prime cancel modulo the prime. -/
theorem pow_mul_modEq {p : Nat} (hp : p.Prime) {d e : Nat} (h : d * e % (p - 1) = 1) (c : Nat) :
    c ^ (d * e) ≡ c [MOD p] := by
  have hpow := (pow_mod_modEq hp (by rw [h]; exact one_ne_zero) c).symm
  rwa [h, pow_one] at hpow

theorem exponent_mod_ne_zero {d e n : Nat} (h : d * e % n = 1) : d % n ≠ 0 := by
  intro hzero
  rw [Nat.mul_mod, hzero, zero_mul, Nat.zero_mod] at h
  exact absurd h (by omega)

namespace HasDistinctPrimes

variable (h : k.HasDistinctPrimes)

include h

theorem coprime : Nat.Coprime k.p k.q :=
  (Nat.coprime_primes h.prime_p h.prime_q).mpr h.p_ne_q

theorem coefficient?_isSome : k.coefficient?.isSome :=
  (Modular.inverse?_isSome_iff _ _).mpr h.coprime.symm

/-- Numbers that agree modulo both factors agree modulo the modulus. -/
theorem modEq_modulus {a b : Nat} (hp : a ≡ b [MOD k.p]) (hq : a ≡ b [MOD k.q]) :
    a ≡ b [MOD k.publicKey.modulus] := by
  rw [← k.product]
  exact (Nat.modEq_and_modEq_iff_modEq_mul h.coprime).mp ⟨hp, hq⟩

/-- The candidate is the power with the private exponent: modulo the second factor by its last
summand, and modulo the first because the coefficient cancels the second factor. -/
theorem root_modEq (c : Nat) : k.root c ≡ c ^ k.exponent [MOD k.publicKey.modulus] := by
  have hpowp := pow_mod_modEq h.prime_p (exponent_mod_ne_zero k.inverse_p) c
  have hpowq := pow_mod_modEq h.prime_q (exponent_mod_ne_zero k.inverse_q) c
  obtain ⟨coefficient, hcoefficient⟩ := Option.isSome_iff_exists.mp h.coefficient?_isSome
  -- The coefficient is there, so the candidate is the combination and not the plain power.
  have hinverse : coefficient * k.q ≡ 1 [MOD k.p] :=
    Modular.mul_of_inverse?_eq_some (Nat.zero_lt_of_lt k.one_lt_p) hcoefficient
  unfold root
  rw [hcoefficient]
  dsimp only
  rw [Modular.pow_eq, Modular.pow_eq]
  generalize hmp : c ^ (k.exponent % (k.p - 1)) % k.p = mp
  generalize hmq : c ^ (k.exponent % (k.q - 1)) % k.q = mq
  generalize hdifference : (((mp : Int) - mq) % k.p).toNat = difference
  apply h.modEq_modulus
  · -- The difference was taken modulo the first factor, so adding the second power gives the first.
    have hsum : difference + mq ≡ mp [MOD k.p] := by
      have hnonneg := Int.emod_nonneg ((mp : Int) - mq)
        (by have := k.one_lt_p; omega : (k.p : Int) ≠ 0)
      rw [← Int.natCast_modEq_iff, ← hdifference, Nat.cast_add, Int.toNat_of_nonneg hnonneg]
      calc ((mp : Int) - mq) % k.p + mq ≡ mp - mq + mq [ZMOD k.p] :=
            (Int.mod_modEq _ _).add_right _
        _ = mp := by ring
    calc difference * coefficient % k.p * k.q + mq
        ≡ difference * coefficient * k.q + mq [MOD k.p] :=
          ((Nat.mod_modEq _ _).mul_right _).add_right _
      _ = difference * (coefficient * k.q) + mq := by ring
      _ ≡ difference * 1 + mq [MOD k.p] := (hinverse.mul_left _).add_right _
      _ ≡ mp [MOD k.p] := by rwa [mul_one]
      _ ≡ c ^ (k.exponent % (k.p - 1)) [MOD k.p] := hmp ▸ Nat.mod_modEq _ _
      _ ≡ c ^ k.exponent [MOD k.p] := hpowp
  · -- All but the last summand is a multiple of the second factor.
    calc difference * coefficient % k.p * k.q + mq
        ≡ 0 + mq [MOD k.q] := (Nat.modEq_zero_iff_dvd.mpr (Nat.dvd_mul_left _ _)).add_right _
      _ ≡ c ^ (k.exponent % (k.q - 1)) [MOD k.q] := by
          rw [zero_add, ← hmq]
          exact Nat.mod_modEq _ _
      _ ≡ c ^ k.exponent [MOD k.q] := hpowq

/-- The two exponents cancel modulo the modulus. -/
theorem pow_mul_exponents_modEq (c : Nat) :
    c ^ (k.exponent * k.publicKey.exponent) ≡ c [MOD k.publicKey.modulus] :=
  h.modEq_modulus (pow_mul_modEq h.prime_p k.inverse_p c) (pow_mul_modEq h.prime_q k.inverse_q c)

theorem raise_root {c : Nat} (hc : c < k.publicKey.modulus) :
    k.publicKey.raise (k.root c) = c := by
  rw [PublicKey.raise_eq]
  have hpower : k.root c ^ k.publicKey.exponent ≡ c [MOD k.publicKey.modulus] :=
    calc k.root c ^ k.publicKey.exponent
        ≡ (c ^ k.exponent) ^ k.publicKey.exponent [MOD k.publicKey.modulus] :=
          (h.root_modEq c).pow _
      _ = c ^ (k.exponent * k.publicKey.exponent) := (pow_mul _ _ _).symm
      _ ≡ c [MOD k.publicKey.modulus] := h.pow_mul_exponents_modEq c
  rwa [Nat.ModEq, Nat.mod_eq_of_lt hc] at hpower

theorem root_raise {m : Nat} (hm : m < k.publicKey.modulus) :
    k.root (k.publicKey.raise m) = m := by
  have hpower : k.root (k.publicKey.raise m) ≡ m [MOD k.publicKey.modulus] :=
    calc k.root (k.publicKey.raise m)
        ≡ k.publicKey.raise m ^ k.exponent [MOD k.publicKey.modulus] := h.root_modEq _
      _ ≡ (m ^ k.publicKey.exponent) ^ k.exponent [MOD k.publicKey.modulus] := by
          rw [PublicKey.raise_eq]
          exact (Nat.mod_modEq _ _).pow _
      _ = m ^ (k.exponent * k.publicKey.exponent) := by rw [← pow_mul, mul_comm]
      _ ≡ m [MOD k.publicKey.modulus] := h.pow_mul_exponents_modEq m
  rwa [Nat.ModEq, Nat.mod_eq_of_lt hm, Nat.mod_eq_of_lt (k.root_lt _)] at hpower

theorem recover?_of_lt {c : Nat} (hc : c < k.publicKey.modulus) :
    k.recover? c = .ok (k.root c) :=
  recover?_eq_ok_iff.mpr ⟨hc, rfl, h.raise_root hc⟩

theorem recover?_raise {m : Nat} (hm : m < k.publicKey.modulus) :
    k.recover? (k.publicKey.raise m) = .ok m := by
  rw [h.recover?_of_lt (k.publicKey.raise_lt m), h.root_raise hm]

end HasDistinctPrimes

end PrivateKey

end KeyCustody.Rsa
