import KeyCustody.Der.Element

/-!
# Object identifiers

An object identifier is a path of numbers, its arcs. The first two arcs share one octet; each
further arc is a number in base 128, with the high bit set on all its octets but the last.

## Main definitions

* `Der.Identifier` — an object identifier, kept as its content octets
* `Der.Identifier.arcs?` — the arcs, or nothing for octets that are no identifier
* `Der.Identifier.text` — the arcs in decimal, joined by dots
-/

namespace KeyCustody.Der

/-- An object identifier, as the octets of its content. -/
structure Identifier where
  content : Octets
deriving DecidableEq, Repr

namespace Identifier

/-- Reads base 128 arcs. An arc of five octets fits in 32 bits: its last octet is below 16, and
what its first octets carry beyond 32 bits is dropped. -/
def arcsFrom (value : Nat) (count : Nat) : Octets → Option (List Nat)
  | [] => if count = 0 then some [] else none
  | x :: rest =>
    if count ≥ 4 ∧ x ≥ 16 then none
    else
      let value := (value * 128 + x.toNat % 128) % 0x100000000
      if x < 128 then (arcsFrom 0 0 rest).map (value :: ·) else arcsFrom value (count + 1) rest

/-- The arcs of an identifier of at most 39 octets. The first octet holds an arc below three and
an arc below forty. -/
def arcs? (i : Identifier) : Option (List Nat) :=
  match i.content with
  | [] => none
  | x :: rest =>
    if x < 120 ∧ rest.length < 39 then
      (arcsFrom 0 0 rest).map fun arcs => x.toNat / 40 :: x.toNat % 40 :: arcs
    else none

/-- The identifier with the given content, if the content is one. -/
def ofContent? (content : Octets) : Option Identifier :=
  if (arcs? ⟨content⟩).isSome then some ⟨content⟩ else none

/-- The arcs in decimal, joined by dots. -/
def text (i : Identifier) : String :=
  ".".intercalate ((i.arcs?.getD []).map fun n => n.repr)

/-- The written form. -/
def encode (i : Identifier) : Octets := Element.encode ⟨identifierTag, i.content⟩

/-- Reads an identifier off the front. -/
def take? (b : Octets) : Option (Identifier × Octets) := do
  let (content, rest) ← content? identifierTag b
  let i ← ofContent? content
  some (i, rest)

/-- The RSA key algorithm, 1.2.840.113549.1.1.1. -/
def rsa : Identifier := ⟨[0x2a, 0x86, 0x48, 0x86, 0xf7, 0x0d, 0x01, 0x01, 0x01]⟩

/-- Keys on named elliptic curves, 1.2.840.10045.2.1. -/
def ellipticCurve : Identifier := ⟨[0x2a, 0x86, 0x48, 0xce, 0x3d, 0x02, 0x01]⟩

/-- The curve P-256, 1.2.840.10045.3.1.7. -/
def curveP256 : Identifier := ⟨[0x2a, 0x86, 0x48, 0xce, 0x3d, 0x03, 0x01, 0x07]⟩

/-- The Ed25519 key algorithm, 1.3.101.112. -/
def ed25519 : Identifier := ⟨[0x2b, 0x65, 0x70]⟩

end Identifier

end KeyCustody.Der
