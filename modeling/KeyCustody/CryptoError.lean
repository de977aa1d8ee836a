import KeyCustody.Rsa.Key
import KeyCustody.Cipher.KeyWrap

/-!
# Failures of the primitives

Each failure is kept as its cause, and the wording is fixed in one place.

## Main definitions

* `WrapFault` — why key material is not wrapped or unwrapped
* `CryptoError` — why a primitive fails
* `CryptoError.message`, `CryptoError.causes` — the wording, and the chain of causes beneath
-/

namespace KeyCustody

/-- The wording of a failed operation with an RSA key. -/
def Rsa.Fault.text : Rsa.Fault → String
  | .decryption => "decryption error"
  | .messageTooLong => "message too long"
  | .internal => "internal error"

/-- The wording of a failed key wrapping. -/
def KeyWrap.Fault.text : KeyWrap.Fault → String
  | .dataLength =>
    "data must be a multiple of 64 bits for AES-KW and less than 2^32 bytes for AES-KWP"
  | .integrity => "integrity check failed"
  | .emptyMaterial => "cannot wrap empty key material"

/-- Why key material is not wrapped or unwrapped. -/
inductive WrapFault
  /-- The inner wrapping fails. -/
  | inner (fault : KeyWrap.Fault)
  /-- There is no private key to wrap. -/
  | emptyPrivateKey
  /-- The wrapping key is no RSA public key. -/
  | wrappingKey
  /-- The ephemeral key cannot be encrypted under the wrapping key. -/
  | encryption (fault : Rsa.Fault)
  /-- The ephemeral key cannot be decrypted with the wrapping key. -/
  | decryption (fault : Rsa.Fault)
  /-- The package has no octets beyond the encrypted ephemeral key. -/
  | shortPackage (length modulusLength : Nat)
  /-- What was encrypted as ephemeral key is not one. -/
  | ephemeralLength (length : Nat)
  /-- A failure that is known by its text alone. -/
  | reported (text : String)
deriving DecidableEq, Repr

/-- Why a primitive fails. -/
inductive CryptoError
  /-- A private-key document is not accepted, or cannot be written. -/
  | privateDocument
  /-- A public-key document is not accepted. -/
  | publicDocument
  /-- An operation with an RSA key fails. -/
  | rsa (fault : Rsa.Fault)
  /-- No signature can be computed. -/
  | signature
  /-- Key material is not wrapped or unwrapped. -/
  | keyWrap (fault : WrapFault)
  /-- A failure that is known by its text alone. -/
  | other (text : String)
deriving DecidableEq, Repr

/-- The wording of a refused public-key document. -/
def publicDocumentText : String := "SPKI error: not an accepted public-key document"

namespace WrapFault

/-- The wording. -/
def text : WrapFault → String
  | inner fault => fault.text
  | emptyPrivateKey => "private key material is empty"
  | wrappingKey => "invalid wrapping public key: " ++ publicDocumentText
  | encryption fault => "OAEP wrap of ephemeral key failed: RSA error: " ++ fault.text
  | decryption fault => "OAEP unwrap of ephemeral key failed: RSA error: " ++ fault.text
  | shortPackage length modulusLength =>
    "package of " ++ length.repr ++ " bytes is too short for a " ++ modulusLength.repr ++
      "-byte wrapping modulus"
  | ephemeralLength length => "ephemeral key is " ++ length.repr ++ " bytes, expected 32"
  | reported text => text

end WrapFault

namespace CryptoError

/-- The wording. -/
def message : CryptoError → String
  | privateDocument => "PKCS8 error: not an accepted private-key document"
  | publicDocument => publicDocumentText
  | rsa fault => "RSA error: " ++ fault.text
  | signature => "Signature error: no signature can be computed"
  | keyWrap fault => "Key wrap error: " ++ fault.text
  | other text => "Other error: " ++ text

/-- The wordings of the causes beneath, from the nearest to the last. -/
def causes : CryptoError → List String
  | privateDocument => ["not an accepted private-key document"]
  | publicDocument => ["not an accepted public-key document"]
  | rsa fault => [fault.text]
  | signature => ["no signature can be computed"]
  | keyWrap _ => []
  | other _ => []

end CryptoError

end KeyCustody
