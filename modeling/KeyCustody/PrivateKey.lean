import KeyCustody.ArmoredKey
import KeyCustody.Hash.Sha256
import KeyCustody.KeyError
import KeyCustody.Text.Hex
import KeyCustody.Text.Record

/-!
# Private keys

A private key is of one of three types. Loading first looks at the algorithm that the envelope
names, which decides the type, and then at the key inside, so that a foreign algorithm is told
apart from a damaged key.

## Main definitions

* `PrivateKey` — a private key of any type
* `PrivateKey.detectType`, `PrivateKey.detectArmoredType` — the type that an envelope names
* `PrivateKey.ofOctets`, `PrivateKey.ofText`, `PrivateKey.ofFile` — loading from an encoded
  document, an armored one, and a file that holds either
* `PrivateKey.document`, `PrivateKey.publicDocument`, `PrivateKey.fingerprint` — exports
-/

namespace KeyCustody

open Der

/-- A private key. -/
inductive PrivateKey
  | rsa (k : Rsa.PrivateKey)
  | p256 (k : P256.PrivateKey)
  | ed25519 (k : Ed25519.PrivateKey)
deriving DecidableEq, Repr

namespace PrivateKey

/-! ## Loading -/

/-- The type that the algorithm of an envelope names. -/
def typeOfAlgorithm (a : AlgorithmIdentifier) : Except ImportFault KeyType :=
  if a.identifier = Identifier.ed25519 then .ok .ed25519
  else if a.identifier = Identifier.rsa then .ok .rsa
  else if a.identifier = Identifier.ellipticCurve then
    match a.parameters with
    | none => .error .missingCurve
    | some e =>
      if e.tag = identifierTag then
        match Identifier.ofContent? e.content with
        | none => .error .curve
        | some curve =>
          if curve = Identifier.curveP256 then .ok .p256 else .error (.unsupportedCurve curve)
      else .error .curve
  else .error (.unsupportedAlgorithm a.identifier)

/-- The type that an encoded document names. -/
def detectType (b : Octets) : Except ImportFault KeyType :=
  match PrivateKeyDocument.decode? b with
  | none => .error .document
  | some d => typeOfAlgorithm d.algorithm

/-- The type that an armored document names. -/
def detectArmoredType (text : Octets) : Except ImportFault KeyType :=
  match Pem.decode? text with
  | none => .error .armor
  | some d =>
    if d.label = Pem.privateKeyLabel then detectType d.body
    else .error (.label ((Octets.toText? d.label).getD ""))

/-- The key of a given type in a document. -/
def ofDocument? (type : KeyType) (d : PrivateKeyDocument) : Option PrivateKey :=
  match type with
  | .rsa => (Rsa.PrivateKey.ofDocument? d).map rsa
  | .p256 => (P256.PrivateKey.ofDocument? d).map p256
  | .ed25519 => (Ed25519.PrivateKey.ofDocument? d).map ed25519

/-- Loads a key from an encoded document. -/
def ofOctets (b : Octets) : Except KeyError PrivateKey := do
  let type ← (detectType b).mapError .importing
  match PrivateKeyDocument.decode? b >>= ofDocument? type with
  | some k => .ok k
  | none => throw (.crypto .privateDocument)

/-- Loads a key from an armored document, given as the octets of its text. -/
def ofArmored (text : Octets) : Except KeyError PrivateKey := do
  let type ← (detectArmoredType text).mapError .importing
  match PrivateKeyDocument.ofArmored? text >>= ofDocument? type with
  | some k => .ok k
  | none => throw (.crypto .privateDocument)

/-- Loads a key from an armored document. -/
def ofText (s : String) : Except KeyError PrivateKey :=
  ofArmored (Octets.ofText s)

/-- Loads a key from the content of a file, which may be armored. -/
def ofFile (b : Octets) : Except KeyError PrivateKey :=
  if Pem.isArmored b then
    match Octets.toText? b with
    | none => throw (.importing .notText)
    | some s => ofText s
  else ofOctets b

/-! ## Inspection and export -/

/-- The type of a key. -/
def keyType : PrivateKey → KeyType
  | rsa _ => .rsa
  | p256 _ => .p256
  | ed25519 _ => .ed25519

/-- The size of a key in bits, in whole octets. -/
def bits : PrivateKey → Nat
  | rsa k => k.size * 8
  | p256 _ | ed25519 _ => 256

/-- The private-key document of a key. Some RSA keys have none. -/
def document? : PrivateKey → Option PrivateKeyDocument
  | rsa k => k.document?
  | p256 k => some k.document
  | ed25519 k => some k.document

/-- The encoded private-key document of a key. -/
def encode (k : PrivateKey) : Except CryptoError Octets :=
  match k.document? with
  | some d => .ok d.encode
  | none => .error .privateDocument

/-- The public-key document of a key. -/
def publicDocument : PrivateKey → PublicKeyDocument
  | rsa k => k.publicKey.document
  | p256 k => k.publicKey.document
  | ed25519 k => k.publicDocument

/-- The encoded public-key document. -/
def encodePublic (k : PrivateKey) : Octets := k.publicDocument.encode

/-- What keys are told apart by: the digest of the public-key document. -/
def fingerprint (k : PrivateKey) : String := Hex.encode (Sha256.hash k.encodePublic)

/-- The description of a key, which shows its type and size. -/
def text (k : PrivateKey) : String :=
  Record.partialText "PrivateKey" [("type", k.keyType.text), ("bits", k.bits.repr)]

end PrivateKey

/-- Where the key to sign with is: in memory, or with a remote service under an alias. -/
inductive KeySource
  | inMemory (k : PrivateKey)
  | remote (kmsType : KmsType) (keyAlias : String)
deriving DecidableEq, Repr

namespace KeySource

/-- Whether the key is in memory. -/
def isLocal : KeySource → Bool
  | inMemory _ => true
  | remote _ _ => false

/-- The description. -/
def text : KeySource → String
  | inMemory k => "Local(" ++ k.text ++ ")"
  | remote kmsType keyAlias =>
    Record.text "Kms" [("kms_type", kmsType.text), ("key_alias", Quoted.encode keyAlias)]

end KeySource

end KeyCustody
