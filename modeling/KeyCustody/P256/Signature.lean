import KeyCustody.P256.Key
import KeyCustody.Hash.Digest
import KeyCustody.Hash.Hmac

/-!
# Signatures on P-256

A signature is a pair of scalars, written as a sequence of two integers. The one-time scalar
that each signature needs is not drawn at random but derived from the key and the digest, so
that signing is a function of the key and the message.

## Main definitions

* `P256.Signature`, `P256.Signature.encode`, `P256.Signature.decode?` — the pair and its
  written form
* `P256.oneTimeScalar?` — the derived one-time scalar
* `P256.PrivateKey.sign?`, `P256.PublicKey.verify` — signing and verifying
-/

namespace KeyCustody.P256

open Der

/-- A pair of scalars. -/
structure Signature where
  r : Nat
  s : Nat
deriving DecidableEq, Repr

namespace Signature

/-- The written form. -/
def encode (x : Signature) : Octets := encodeSequence (encodeNatural x.r ++ encodeNatural x.s)

/-- Reads a signature; both numbers are at least one and below the order of the group. -/
def decode? (b : Octets) : Option Signature := do
  let content ← sole? sequenceTag b
  let (r, rest) ← takeNatural? content
  let (s, rest) ← takeNatural? rest
  guard (rest = [])
  guard (0 < r ∧ r < order ∧ 0 < s ∧ s < order)
  some ⟨r, s⟩

end Signature

/-- The number that stands for a message: the first 32 octets of its digest. -/
def messageScalar (digest : Digest) (message : Octets) : Nat :=
  Octets.toNat ((digest.hash message).take 32)

/-! ## The one-time scalar -/

/-- The state of the derivation: a key and a value. -/
structure Derivation where
  key : Octets
  value : Octets
deriving DecidableEq, Repr

namespace Derivation

/-- Replaces the value by its tag under the key. -/
def advance (d : Derivation) : Derivation := ⟨d.key, Hmac.sha256 d.key d.value⟩

/-- Mixes octets into the key, and renews the value. -/
def absorb (d : Derivation) (b : Octets) : Derivation :=
  advance ⟨Hmac.sha256 d.key (d.value ++ b), d.value⟩

/-- The state after a scalar and a message have been mixed in twice. -/
def start (scalar message : Nat) : Derivation :=
  let seed := Octets.ofNatWidth 32 scalar ++ Octets.ofNatWidth 32 (message % order)
  let d : Derivation := ⟨List.replicate 32 0, List.replicate 32 1⟩
  (d.absorb (0x00 :: seed)).absorb (0x01 :: seed)

/-- The first value in range, in at most the given number of tries. -/
def scalar? : Nat → Derivation → Option Nat
  | 0, _ => none
  | tries + 1, d =>
    let d := d.advance
    let k := Octets.toNat d.value
    if 0 < k ∧ k < order then some k else scalar? tries (d.absorb [0x00])

end Derivation

/-- How many values are tried. A single one is out of range less than once in `2 ^ 32` times. -/
def maxTries : Nat := 128

/-- The one-time scalar of a private scalar and a message. -/
def oneTimeScalar? (scalar message : Nat) : Option Nat :=
  (Derivation.start scalar message).scalar? maxTries

/-! ## Signing and verifying -/

/-- The first coordinate of a point as a scalar; infinity has zero. -/
def Point.firstScalar : Point → Scalar
  | .infinity => 0
  | .affine x _ => Fin.ofNat _ x.val

/-- The signature of a message number with a given one-time scalar. -/
def PrivateKey.signWith? (k : PrivateKey) (oneTime message : Nat) : Option Signature :=
  let r := (generator.multiply oneTime).firstScalar
  let s := Residue.inverse (Fin.ofNat order oneTime) *
    (Fin.ofNat order message + r * Fin.ofNat order k.scalar)
  if r = 0 ∨ s = 0 then none else some ⟨r.val, s.val⟩

/-- The signature of a message. -/
def PrivateKey.sign? (k : PrivateKey) (digest : Digest) (message : Octets) : Option Octets := do
  let m := messageScalar digest message
  let oneTime ← oneTimeScalar? k.scalar m
  let signature ← k.signWith? oneTime m
  some signature.encode

/-- Whether a pair of scalars is a signature of a message number. -/
def PublicKey.accepts (k : PublicKey) (message : Nat) (x : Signature) : Bool :=
  let inverse := Residue.inverse (Fin.ofNat order x.s)
  let u := Fin.ofNat order message * inverse
  let v := Fin.ofNat order x.r * inverse
  ((generator.multiply u.val).add (k.point.multiply v.val)).firstScalar.val == x.r

/-- Whether octets are a signature of a message. -/
def PublicKey.verify (k : PublicKey) (digest : Digest) (message signature : Octets) : Bool :=
  match Signature.decode? signature with
  | some x => k.accepts (messageScalar digest message) x
  | none => false

end KeyCustody.P256
