import KeyCustody.Proofs.Modular
import Mathlib.NumberTheory.LucasPrimality
import Mathlib.Data.List.Prime

/-!
# Certified primes

A number is prime if some base has the order one less than the number modulo it. That order is
tested on the prime factors of one less than the number, so those come with the certificate, and
the large ones among them are certified before. A chain of certificates is checked by computing
powers.

## Main definitions

* `Primality.Certificate`, `Primality.Certificate.isSound` — the certificate of a prime, and its
  check
* `Primality.areSound` — the check of a chain of certificates

## Main results

* `Primality.prime_of_areSound` — every number in a checked chain is prime
-/

namespace KeyCustody.Primality

/-- What shows that a number is prime: a base of the greatest possible order modulo it, and the
primes whose product is one less than the number. -/
structure Certificate where
  number : Nat
  base : Nat
  factors : List Nat
deriving DecidableEq, Repr

/-- Factors below this bound are tested by division and need no certificate. -/
def divisionBound : Nat := 2 ^ 10

/-- Whether a factor is among the primes that are known already, or small enough to test. -/
def isKnown (known : List Nat) (q : Nat) : Bool :=
  known.contains q || (decide (q < divisionBound) && decide q.Prime)

/-- Whether a certificate shows its number to be prime, once some primes are known. -/
def Certificate.isSound (known : List Nat) (c : Certificate) : Bool :=
  c.factors.all (isKnown known) && c.factors.prod + 1 == c.number &&
    Modular.pow c.base (c.number - 1) c.number == 1 &&
    c.factors.all fun q => Modular.pow c.base ((c.number - 1) / q) c.number != 1

/-- Whether each certificate is sound, once the numbers before it are known to be prime. -/
def areSound (known : List Nat) : List Certificate → Bool
  | [] => true
  | c :: certificates => c.isSound known && areSound (c.number :: known) certificates

theorem prime_of_isKnown {known : List Nat} (hknown : ∀ q ∈ known, q.Prime) {q : Nat}
    (h : isKnown known q = true) : q.Prime := by
  rw [isKnown, Bool.or_eq_true, List.contains_iff_mem, Bool.and_eq_true, decide_eq_true_iff,
    decide_eq_true_iff] at h
  rcases h with hmem | ⟨-, hprime⟩
  · exact hknown q hmem
  · exact hprime

/-- Powers of residues are compared with one by computing. -/
theorem natCast_pow_eq_one_iff {m : Nat} (hm : 1 < m) (base exponent : Nat) :
    (base : ZMod m) ^ exponent = 1 ↔ Modular.pow base exponent m = 1 := by
  rw [Modular.pow_eq, ← Nat.cast_pow, ← Nat.cast_one, ZMod.natCast_eq_natCast_iff',
    Nat.mod_eq_of_lt hm]

theorem Certificate.prime_of_isSound {known : List Nat} {c : Certificate}
    (hknown : ∀ q ∈ known, q.Prime) (h : c.isSound known = true) : c.number.Prime := by
  simp only [isSound, Bool.and_eq_true, List.all_eq_true, beq_iff_eq, bne_iff_ne] at h
  obtain ⟨⟨⟨hfactors, hproduct⟩, hone⟩, hne⟩ := h
  have hprime : ∀ q ∈ c.factors, q.Prime := fun q hq => prime_of_isKnown hknown (hfactors q hq)
  have hpos : 0 < c.factors.prod := Nat.pos_of_ne_zero fun hzero =>
    Nat.not_prime_zero (hprime 0 (List.prod_eq_zero_iff.mp hzero))
  have hnumber : 1 < c.number := by omega
  apply lucas_primality c.number (c.base : ZMod c.number)
  · exact (natCast_pow_eq_one_iff hnumber _ _).mpr hone
  · intro q hq hdvd
    -- A prime that divides the product is one of the factors.
    rw [← hproduct, Nat.add_sub_cancel] at hdvd
    have hmem : q ∈ c.factors :=
      mem_list_primes_of_dvd_prod hq.prime (fun r hr => (hprime r hr).prime) hdvd
    exact mt (natCast_pow_eq_one_iff hnumber _ _).mp (hne q hmem)

/-- Every number in a checked chain is prime. -/
theorem prime_of_areSound {known : List Nat} {certificates : List Certificate}
    (hknown : ∀ q ∈ known, q.Prime) (h : areSound known certificates = true) {c : Certificate}
    (hc : c ∈ certificates) : c.number.Prime := by
  -- Each number that is certified is known from there on, so what is known grows along the chain.
  induction certificates generalizing known with
  | nil => simp at hc
  | cons first certificates ih =>
    rw [areSound, Bool.and_eq_true] at h
    have hfirst := Certificate.prime_of_isSound hknown h.1
    rcases List.mem_cons.mp hc with rfl | hc
    · exact hfirst
    · apply ih _ h.2 hc
      intro q hq
      rcases List.mem_cons.mp hq with rfl | hq
      · exact hfirst
      · exact hknown q hq

end KeyCustody.Primality
