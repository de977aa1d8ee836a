import KeyCustody.Modular
import KeyCustody.Der.KeyDocument

/-!
# RSA keys

The conditions under which numbers are accepted as a key are fields of the key types, so every
key at hand satisfies them. Primality is not among them: a private key only has to have the
right product, and exponents that are inverse modulo one less than each factor.

## Main definitions

* `Rsa.PublicKey`, `Rsa.PrivateKey` — keys with the conditions of their acceptance
* `Rsa.PublicKey.raise`, `Rsa.PrivateKey.recover?` — the public and the private operation
* `Rsa.PrivateKey.ofDocument?`, `Rsa.PrivateKey.document?` — the private key in its envelope
* `Rsa.PublicKey.ofDocument?`, `Rsa.PublicKey.document` — the public key in its envelope
* `Rsa.PrivateKey.decode?`, `Rsa.PublicKey.decode?` — keys from encoded documents
-/

namespace KeyCustody.Rsa

open Der

/-- A modulus and a public exponent. -/
structure PublicKey where
  modulus : Nat
  exponent : Nat
  modulus_odd : modulus % 2 = 1
  exponent_odd : exponent % 2 = 1
  two_le_exponent : 2 ≤ exponent
  exponent_le : exponent ≤ 0x1ffffffff
  exponent_lt_modulus : exponent < modulus
deriving DecidableEq, Repr

namespace PublicKey

/-- The key with the given numbers, if they are acceptable. -/
def ofNumbers? (modulus exponent : Nat) : Option PublicKey :=
  if h : modulus % 2 = 1 ∧ exponent % 2 = 1 ∧ 2 ≤ exponent ∧ exponent ≤ 0x1ffffffff ∧
      exponent < modulus then
    some ⟨modulus, exponent, h.1, h.2.1, h.2.2.1, h.2.2.2.1, h.2.2.2.2⟩
  else none

/-- The length of the modulus in octets, which is also that of signatures and ciphertexts. -/
def size (k : PublicKey) : Nat := Octets.byteLength k.modulus

/-- The length of the modulus in bits. -/
def bits (k : PublicKey) : Nat := Octets.bitLength k.modulus

/-- The public operation: a number raised to the public exponent. -/
def raise (k : PublicKey) (m : Nat) : Nat := Modular.pow m k.exponent k.modulus

end PublicKey

/-- A private key: the public key, the private exponent, and the two factors. -/
structure PrivateKey where
  publicKey : PublicKey
  exponent : Nat
  p : Nat
  q : Nat
  one_lt_p : 1 < p
  one_lt_q : 1 < q
  product : p * q = publicKey.modulus
  inverse_p : exponent * publicKey.exponent % (p - 1) = 1
  inverse_q : exponent * publicKey.exponent % (q - 1) = 1
deriving DecidableEq, Repr

namespace PrivateKey

/-- The key with the given numbers, if they are acceptable. -/
def ofNumbers? (modulus publicExponent exponent p q : Nat) : Option PrivateKey := do
  let publicKey ← PublicKey.ofNumbers? modulus publicExponent
  if h : 1 < p ∧ 1 < q ∧ p * q = publicKey.modulus ∧
      exponent * publicKey.exponent % (p - 1) = 1 ∧
      exponent * publicKey.exponent % (q - 1) = 1 then
    some ⟨publicKey, exponent, p, q, h.1, h.2.1, h.2.2.1, h.2.2.2.1, h.2.2.2.2⟩
  else none

/-- The length of the modulus in octets. -/
def size (k : PrivateKey) : Nat := k.publicKey.size

/-- The inverse of the second factor modulo the first, by which results modulo the two factors
are combined. Factors with a common divisor have none. -/
def coefficient? (k : PrivateKey) : Option Nat := Modular.inverse? k.q k.p

/-- The candidate for the root of a number: computed modulo each factor and combined where the
factors allow it, else modulo the modulus. -/
def root (k : PrivateKey) (c : Nat) : Nat :=
  match k.coefficient? with
  | some coefficient =>
    let mp := Modular.pow c (k.exponent % (k.p - 1)) k.p
    let mq := Modular.pow c (k.exponent % (k.q - 1)) k.q
    let difference := (((mp : Int) - (mq : Int)) % (k.p : Int)).toNat
    difference * coefficient % k.p * k.q + mq
  | none => Modular.pow c k.exponent k.publicKey.modulus

end PrivateKey

/-- Why an operation with a key is refused. -/
inductive Fault
  /-- The ciphertext is none of this key. -/
  | decryption
  /-- The message does not fit in the modulus. -/
  | messageTooLong
  /-- The operation cannot produce a correct result with this key. -/
  | internal
deriving DecidableEq, Repr

namespace PrivateKey

/-- The private operation: the number whose public operation gives `c`. The candidate is checked
by applying the public operation, since the factors need not be primes. -/
def recover? (k : PrivateKey) (c : Nat) : Except Fault Nat :=
  if c < k.publicKey.modulus then
    let m := k.root c
    if k.publicKey.raise m = c then .ok m else .error .internal
  else .error .decryption

end PrivateKey

/-! ## Envelopes -/

/-- The algorithm identifier of RSA keys, whose parameters are null. -/
def algorithm : AlgorithmIdentifier := ⟨Identifier.rsa, some null⟩

/-- Reads natural numbers to the end. -/
def naturals? (b : Octets) : Option (List Nat) :=
  if b = [] then some []
  else
    match _h : take? b with
    | some (e, rest) =>
      if e.tag = integerTag then do
        let n ← natural? e.content
        let ns ← naturals? rest
        some (n :: ns)
      else none
    | none => none
termination_by b.length
decreasing_by exact length_lt_of_take? _h

/-- The written form of a sequence of natural numbers. -/
def encodeNaturals (ns : List Nat) : Octets :=
  encodeSequence (ns.flatMap encodeNatural)

namespace PrivateKey

/-- The key in a private-key document. Of the nine numbers inside, the last three can be computed
from the others and are not looked at. -/
def ofDocument? (d : PrivateKeyDocument) : Option PrivateKey := do
  guard (d.algorithm = algorithm)
  let content ← sole? sequenceTag d.privateKey
  match ← naturals? content with
  | [0, n, e, x, p, q, _, _, _] => ofNumbers? n e x p q
  | _ => none

/-- The private-key document of the key; keys without a coefficient have none. -/
def document? (k : PrivateKey) : Option PrivateKeyDocument := do
  let coefficient ← k.coefficient?
  some {
    algorithm := algorithm
    privateKey := encodeNaturals [0, k.publicKey.modulus, k.publicKey.exponent, k.exponent, k.p,
      k.q, k.exponent % (k.p - 1), k.exponent % (k.q - 1), coefficient]
    publicKey := none }

/-- Reads the key from an encoded document. -/
def decode? (b : Octets) : Option PrivateKey := PrivateKeyDocument.decode? b >>= ofDocument?

/-- The encoded document of the key; keys without a coefficient have none. -/
def encode? (k : PrivateKey) : Option Octets := k.document?.map PrivateKeyDocument.encode

end PrivateKey

namespace PublicKey

/-- The most bits that the modulus of an imported public key may have. -/
def maxBits : Nat := 4096

/-- The key in a public-key document. -/
def ofDocument? (d : PublicKeyDocument) : Option PublicKey := do
  guard (d.algorithm = algorithm)
  let content ← sole? sequenceTag d.publicKey
  match ← naturals? content with
  | [n, e] =>
    let k ← ofNumbers? n e
    if k.bits ≤ maxBits then some k else none
  | _ => none

/-- The public-key document of the key. -/
def document (k : PublicKey) : PublicKeyDocument :=
  ⟨algorithm, encodeNaturals [k.modulus, k.exponent]⟩

/-- Reads the key from an encoded document. -/
def decode? (b : Octets) : Option PublicKey := PublicKeyDocument.decode? b >>= ofDocument?

/-- The encoded document of the key. -/
def encode (k : PublicKey) : Octets := k.document.encode

end PublicKey

end KeyCustody.Rsa
