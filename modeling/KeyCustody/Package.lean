import KeyCustody.CryptoError
import KeyCustody.Rsa.Operations
import KeyCustody.Text.Base64
import KeyCustody.Text.Record

/-!
# Packages for key import

A private key is handed to a remote service in two layers. The key itself is wrapped under an
ephemeral key, and the ephemeral key is encrypted under an RSA key of the service. The package
is the encrypted ephemeral key followed by the wrapped key, with nothing between them: the
modulus of the wrapping key says where the one ends and the other begins.

The ephemeral key and the seed of its encryption are drawn afresh for every package; here they
are arguments.

## Main definitions

* `Package` — a package and the length of its first segment
* `Package.wrap`, `Package.unwrap` — building a package, and recovering the key from one
* `Package.expectedLength` — the length of a package
-/

namespace KeyCustody

/-- A package: the encrypted ephemeral key, in as many octets as the wrapping modulus has, and
the wrapped key after it. -/
structure Package where
  octets : Octets
  modulusLength : Nat
  modulusLength_lt : modulusLength < octets.length
deriving DecidableEq, Repr

/-- What is drawn afresh for every package. -/
structure PackageSecrets where
  /-- The key that the private key is wrapped under, 32 octets. -/
  ephemeralKey : Octets
  /-- The seed of the encryption of the ephemeral key, 20 octets. -/
  seed : Octets
deriving DecidableEq, Repr

namespace Package

/-- The package that octets are for a wrapping modulus of the given length. -/
def ofOctets (b : Octets) (modulusLength : Nat) : Except WrapFault Package :=
  if h : modulusLength < b.length then .ok ⟨b, modulusLength, h⟩
  else .error (.shortPackage b.length modulusLength)

/-- The encrypted ephemeral key. -/
def ephemeralSegment (p : Package) : Octets := p.octets.take p.modulusLength

/-- The wrapped private key. -/
def keySegment (p : Package) : Octets := p.octets.drop p.modulusLength

/-- The base64 text of the package. -/
def base64 (p : Package) : Octets := Base64.encode p.octets

/-- The lengths of the package, which are all that is shown of it. -/
def text (p : Package) : String :=
  Record.text "WrappedKeyPackage"
    [("len", p.octets.length.repr), ("modulus_len", p.modulusLength.repr)]

/-- The length of a package, by the lengths of the wrapping modulus and of the key. -/
def expectedLength (modulusLength keyLength : Nat) : Nat :=
  modulusLength + KeyWrap.wrappedLength keyLength

/-- The length of an ephemeral key. -/
def ephemeralKeyLength : Nat := 32

/-- Wraps a private key under an RSA key. -/
def wrapWith (secrets : PackageSecrets) (wrappingKey : Rsa.PublicKey) (privateKey : Octets) :
    Except WrapFault Package := do
  if privateKey = [] then throw .emptyPrivateKey
  let wrapped ← (KeyWrap.wrap secrets.ephemeralKey privateKey).mapError .inner
  let encrypted ←
    (wrappingKey.encrypt secrets.seed secrets.ephemeralKey).mapError .encryption
  ofOctets (encrypted ++ wrapped) encrypted.length

/-- Wraps a private key under the RSA key in a public-key document. -/
def wrap (secrets : PackageSecrets) (wrappingKey privateKey : Octets) :
    Except WrapFault Package :=
  match Rsa.PublicKey.decode? wrappingKey with
  | none => .error .wrappingKey
  | some key => wrapWith secrets key privateKey

/-- Recovers the private key from the octets of a package. -/
def unwrap (wrappingKey : Rsa.PrivateKey) (b : Octets) : Except WrapFault Octets := do
  let p ← ofOctets b wrappingKey.size
  let ephemeralKey ← (wrappingKey.decrypt p.ephemeralSegment).mapError .decryption
  if ephemeralKey.length = ephemeralKeyLength then
    (KeyWrap.unwrap ephemeralKey p.keySegment).mapError .inner
  else throw (.ephemeralLength ephemeralKey.length)

end Package

end KeyCustody
