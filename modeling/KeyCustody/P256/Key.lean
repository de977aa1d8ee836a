import KeyCustody.P256.Curve
import KeyCustody.Der.KeyDocument

/-!
# Keys on P-256

A private key is a scalar between one and the order of the group, and the public key is that
multiple of the generator. Inside its envelope a private key is a small document of its own,
which may repeat the curve and the public key.

## Main definitions

* `P256.PrivateKey`, `P256.PublicKey` — keys
* `P256.PrivateKey.ofDocument?`, `P256.PrivateKey.document` — the private key in its envelope
* `P256.PublicKey.ofDocument?`, `P256.PublicKey.document` — the public key in its envelope
* `P256.PrivateKey.decode?`, `P256.PublicKey.decode?` — keys from encoded documents
-/

namespace KeyCustody.P256

open Der

/-- A scalar that is not zero modulo the order. -/
structure PrivateKey where
  scalar : Nat
  scalar_pos : 0 < scalar
  scalar_lt : scalar < order
deriving DecidableEq, Repr

/-- A point. Imported keys are points on the curve other than infinity. -/
structure PublicKey where
  point : Point
deriving DecidableEq, Repr

/-- The algorithm identifier of keys on the curve, whose parameters name the curve. -/
def algorithm : AlgorithmIdentifier :=
  ⟨Identifier.ellipticCurve, some ⟨identifierTag, Identifier.curveP256.content⟩⟩

namespace PublicKey

/-- The public-key document of the key. -/
def document (k : PublicKey) : PublicKeyDocument := ⟨algorithm, k.point.encode⟩

/-- The key in a public-key document. -/
def ofDocument? (d : PublicKeyDocument) : Option PublicKey := do
  guard (d.algorithm = algorithm)
  let point ← Point.decode? d.publicKey
  some ⟨point⟩

/-- Reads the key from an encoded document. -/
def decode? (b : Octets) : Option PublicKey := PublicKeyDocument.decode? b >>= ofDocument?

/-- The encoded document of the key. -/
def encode (k : PublicKey) : Octets := k.document.encode

end PublicKey

namespace PrivateKey

/-- The key with the given scalar, if it is in range. -/
def ofScalar? (scalar : Nat) : Option PrivateKey :=
  if h : 0 < scalar ∧ scalar < order then some ⟨scalar, h.1, h.2⟩ else none

/-- The multiple of the generator that belongs to the scalar. -/
def publicKey (k : PrivateKey) : PublicKey := ⟨generator.multiply k.scalar⟩

/-- The inner document: version one, the scalar in 32 octets, and the public key. -/
def content (k : PrivateKey) : Octets :=
  encodeSequence (encodeNatural 1 ++
    Element.encode ⟨octetStringTag, Octets.ofNatWidth 32 k.scalar⟩ ++
    Element.encode ⟨0xa1, Element.encode ⟨bitStringTag, 0 :: k.publicKey.point.encode⟩⟩)

/-- Reads the optional curve of the inner document. It has to be an identifier; which one it is
makes no difference, since the envelope names the curve. -/
def takeCurve? (b : Octets) : Option Octets := do
  let (element, rest) ← takeContext? 0 b
  match element with
  | none => some rest
  | some e =>
    guard (e.tag = 0xa0)
    let content ← sole? identifierTag e.content
    let _ ← Identifier.ofContent? content
    some rest

/-- Reads the optional public key of the inner document, which ends it. -/
def publicOctets? (b : Octets) : Option (Option Octets) := do
  let (element, rest) ← takeContext? 1 b
  guard (rest = [])
  match element with
  | none => some none
  | some e =>
    guard (e.tag = 0xa1)
    let bits ← sole? bitStringTag e.content
    let octets ← wholeBits? bits
    some (some octets)

/-- Reads the inner document. The scalar may be written in 24 to 32 octets, and a public key has
to be that of the scalar, in either written form. -/
def ofContent? (b : Octets) : Option PrivateKey := do
  let content ← sole? sequenceTag b
  let (version, rest) ← takeNatural? content
  guard (version = 1)
  let (scalar, rest) ← content? octetStringTag rest
  let rest ← takeCurve? rest
  let octets ← publicOctets? rest
  guard (24 ≤ scalar.length ∧ scalar.length ≤ 32)
  let k ← ofScalar? (Octets.toNat scalar)
  match octets with
  | none => some k
  | some octets =>
    let point := k.publicKey.point
    if octets = point.encode ∨ octets = point.compress then some k else none

/-- The private-key document of the key. -/
def document (k : PrivateKey) : PrivateKeyDocument := ⟨algorithm, k.content, none⟩

/-- The key in a private-key document. -/
def ofDocument? (d : PrivateKeyDocument) : Option PrivateKey := do
  guard (d.algorithm = algorithm)
  ofContent? d.privateKey

/-- Reads the key from an encoded document. -/
def decode? (b : Octets) : Option PrivateKey := PrivateKeyDocument.decode? b >>= ofDocument?

/-- The encoded document of the key. -/
def encode (k : PrivateKey) : Octets := k.document.encode

end PrivateKey

end KeyCustody.P256
