import KeyCustody.CryptoError
import KeyCustody.Ed25519.Curve
import KeyCustody.Hash.Sha512
import KeyCustody.Der.KeyDocument

/-!
# Ed25519 keys and signatures

A private key is a seed of 32 octets. Hashing it gives a scalar, whose multiple of the base
point is the public key, and a second half that makes signing a function of the key and the
message. A signature is an encoded point followed by a scalar.

## Main definitions

* `Ed25519.PrivateKey`, `Ed25519.PublicKey` — keys
* `Ed25519.PrivateKey.sign`, `Ed25519.PublicKey.verify` — signing and verifying
* `Ed25519.PrivateKey.ofDocument?`, `Ed25519.PrivateKey.document` — the private key in its
  envelope, which always carries the public key
* `Ed25519.PublicKey.ofDocument?`, `Ed25519.PublicKey.document` — the public key in its envelope
* `Ed25519.PrivateKey.decode?`, `Ed25519.PublicKey.decode?` — keys from encoded documents
* `Ed25519.verifyWithDocument` — verifying with the key in an encoded document
-/

namespace KeyCustody.Ed25519

open Der

/-- A seed of 32 octets. -/
structure PrivateKey where
  seed : Octets
  length_seed : seed.length = 32
deriving DecidableEq, Repr

/-- A public key: the octets it was written as, and the point they stand for. -/
structure PublicKey where
  octets : Octets
  point : Point
  decode_octets : Point.decode? octets = some point
deriving DecidableEq, Repr

/-- The algorithm identifier, which has no parameters. -/
def algorithm : AlgorithmIdentifier := ⟨Identifier.ed25519, none⟩

/-- The number that octets spell, least significant first. -/
def littleEndian (b : Octets) : Nat := Octets.toNat b.reverse

namespace PublicKey

/-- The key that octets stand for. -/
def ofOctets? (b : Octets) : Option PublicKey :=
  match h : Point.decode? b with
  | some point => some ⟨b, point, h⟩
  | none => none

/-- The public-key document of the key. -/
def document (k : PublicKey) : PublicKeyDocument := ⟨algorithm, k.octets⟩

/-- The key in a public-key document. -/
def ofDocument? (d : PublicKeyDocument) : Option PublicKey := do
  guard (d.algorithm = algorithm)
  ofOctets? d.publicKey

/-- Reads the key from an encoded document. -/
def decode? (b : Octets) : Option PublicKey := PublicKeyDocument.decode? b >>= ofDocument?

/-- The encoded document of the key. -/
def encode (k : PublicKey) : Octets := k.document.encode

end PublicKey

/-- The scalar that ties a signature's first half to a public key and a message. -/
def challenge (first publicOctets message : Octets) : Nat :=
  littleEndian (Sha512.hash (first ++ publicOctets ++ message)) % order

namespace PrivateKey

/-- The secret scalar: the first half of the hashed seed, with its three lowest bits cleared, its
top bit cleared and the bit below that set. -/
def scalar (k : PrivateKey) : Nat :=
  let n := littleEndian ((Sha512.hash k.seed).take 32)
  n % (1 <<< 254) / 8 * 8 + 1 <<< 254

/-- The second half of the hashed seed. -/
def nonceKey (k : PrivateKey) : Octets := (Sha512.hash k.seed).drop 32

/-- The written form of the public key. -/
def publicOctets (k : PrivateKey) : Octets := (basePoint.multiply k.scalar).encode

/-- The signature of a message. -/
def sign (k : PrivateKey) (message : Octets) : Octets :=
  let nonce := littleEndian (Sha512.hash (k.nonceKey ++ message)) % order
  let first := (basePoint.multiply nonce).encode
  let second := (nonce + challenge first k.publicOctets message * k.scalar) % order
  first ++ (Octets.ofNatWidth 32 second).reverse

/-- The private-key document of the key. -/
def document (k : PrivateKey) : PrivateKeyDocument :=
  ⟨algorithm, Element.encode ⟨octetStringTag, k.seed⟩, some k.publicOctets⟩

/-- The public-key document of the key. -/
def publicDocument (k : PrivateKey) : PublicKeyDocument := ⟨algorithm, k.publicOctets⟩

/-- The key in a private-key document. A public key in it has to be that of the seed. -/
def ofDocument? (d : PrivateKeyDocument) : Option PrivateKey := do
  guard (d.algorithm = algorithm)
  match d.privateKey with
  | 0x04 :: 0x20 :: seed =>
    if h : seed.length = 32 then
      let k : PrivateKey := ⟨seed, h⟩
      match d.publicKey with
      | none => some k
      | some octets => if octets = k.publicOctets then some k else none
    else none
  | _ => none

/-- Reads the key from an encoded document. -/
def decode? (b : Octets) : Option PrivateKey := PrivateKeyDocument.decode? b >>= ofDocument?

/-- The encoded document of the key. -/
def encode (k : PrivateKey) : Octets := k.document.encode

end PrivateKey

/-- Whether octets are a signature of a message: the second half is below the order, and the first
half is the written form of the point that the second half and the challenge determine. -/
def PublicKey.verify (k : PublicKey) (message signature : Octets) : Bool :=
  let first := signature.take 32
  let second := littleEndian (signature.drop 32)
  signature.length == 64 && decide (second < order) &&
    ((basePoint.multiply second).add
      (k.point.neg.multiply (challenge first k.octets message))).encode == first

/-- Whether octets are a signature of a message, by the key in an encoded public-key document. -/
def verifyWithDocument (document message signature : Octets) : Except CryptoError Bool :=
  match PublicKey.decode? document with
  | some k => .ok (k.verify message signature)
  | none => .error .publicDocument

end KeyCustody.Ed25519
