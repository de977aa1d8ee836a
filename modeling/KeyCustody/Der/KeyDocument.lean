import KeyCustody.Der.Identifier

/-!
# Key documents

Private and public keys travel in two envelopes that name the key algorithm and carry the key
itself as octets: the private-key document and the public-key document. The envelopes are the
same for all algorithms; what the octets inside mean is up to each of them.

## Main definitions

* `AlgorithmIdentifier` — an algorithm and its optional parameters
* `PrivateKeyDocument.decode?`, `PrivateKeyDocument.encode` — the private-key envelope
* `PublicKeyDocument.decode?`, `PublicKeyDocument.encode` — the public-key envelope
-/

namespace KeyCustody

open Der

/-- An algorithm and its optional parameters. -/
structure AlgorithmIdentifier where
  identifier : Identifier
  parameters : Option Element
deriving DecidableEq, Repr

namespace AlgorithmIdentifier

/-- The content of the sequence. -/
def content (a : AlgorithmIdentifier) : Octets :=
  a.identifier.encode ++ (a.parameters.map Element.encode).getD []

/-- Reads the content of the sequence. -/
def ofContent? (b : Octets) : Option AlgorithmIdentifier := do
  let (identifier, rest) ← Identifier.take? b
  match rest with
  | [] => some ⟨identifier, none⟩
  | _ =>
    match take? rest with
    | some (parameters, []) => some ⟨identifier, some parameters⟩
    | _ => none

/-- The written form. -/
def encode (a : AlgorithmIdentifier) : Octets := encodeSequence a.content

/-- Reads an algorithm identifier off the front. -/
def take? (b : Octets) : Option (AlgorithmIdentifier × Octets) := do
  let (content, rest) ← content? sequenceTag b
  let a ← ofContent? content
  some (a, rest)

end AlgorithmIdentifier

/-- The envelope of a private key. Version one of the envelope is the one that also carries the
public key. -/
structure PrivateKeyDocument where
  algorithm : AlgorithmIdentifier
  privateKey : Octets
  publicKey : Option Octets
deriving DecidableEq, Repr

namespace PrivateKeyDocument

/-- Reads the version: whether a public key has to follow. -/
def takeVersion? (b : Octets) : Option (Bool × Octets) :=
  match takeNatural? b with
  | some (0, rest) => some (false, rest)
  | some (1, rest) => some (true, rest)
  | _ => none

/-- Reads the content of the outer sequence. The public key is the element of context number one;
elements after it are extensions, which carry no meaning here. -/
def ofContent? (b : Octets) : Option PrivateKeyDocument := do
  let (hasPublic, b) ← takeVersion? b
  let (algorithm, b) ← AlgorithmIdentifier.take? b
  let (privateKey, b) ← content? octetStringTag b
  let (element, b) ← takeContext? 1 b
  let publicKey ←
    match element with
    | none => some none
    | some e => if e.tag = 0x81 then (wholeBits? e.content).map some else none
  guard (hasPublic = publicKey.isSome)
  guard (areExtensions b)
  some ⟨algorithm, privateKey, publicKey⟩

/-- Reads a private-key document; the octets hold nothing else. -/
def decode? (b : Octets) : Option PrivateKeyDocument := do
  let content ← sole? sequenceTag b
  ofContent? content

/-- The written form, without extensions. -/
def encode (d : PrivateKeyDocument) : Octets :=
  encodeSequence (encodeNatural (if d.publicKey.isSome then 1 else 0) ++ d.algorithm.encode ++
    Element.encode ⟨octetStringTag, d.privateKey⟩ ++
    (d.publicKey.map fun k => Element.encode ⟨0x81, 0 :: k⟩).getD [])

end PrivateKeyDocument

/-- The envelope of a public key. -/
structure PublicKeyDocument where
  algorithm : AlgorithmIdentifier
  publicKey : Octets
deriving DecidableEq, Repr

namespace PublicKeyDocument

/-- Reads the content of the outer sequence. -/
def ofContent? (b : Octets) : Option PublicKeyDocument := do
  let (algorithm, b) ← AlgorithmIdentifier.take? b
  let bits ← sole? bitStringTag b
  let publicKey ← wholeBits? bits
  some ⟨algorithm, publicKey⟩

/-- Reads a public-key document; the octets hold nothing else. -/
def decode? (b : Octets) : Option PublicKeyDocument := do
  let content ← sole? sequenceTag b
  ofContent? content

/-- The written form. -/
def encode (d : PublicKeyDocument) : Octets :=
  encodeSequence (d.algorithm.encode ++ Element.encode ⟨bitStringTag, 0 :: d.publicKey⟩)

end PublicKeyDocument

end KeyCustody
