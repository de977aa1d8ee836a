import KeyCustody.Hash.Digest

/-!
# Signature algorithms

Algorithms are named by the customary names that join a digest and a type of key. Each backend
supports some of them under codes of its own.

## Main definitions

* `KeyType` — the types of private keys that can sign
* `SignatureAlgorithm`, `SignatureAlgorithm.name`, `SignatureAlgorithm.ofName?` — the algorithms
  and their names
* `SignatureAlgorithm.digest`, `SignatureAlgorithm.keyType`, `SignatureAlgorithm.isSalted` — what
  an algorithm needs
* `SignatureAlgorithm.preferred` — the algorithm taken when only a key is given
* `SignatureAlgorithm.Parameters` — what algorithms with a salt may be told
-/

namespace KeyCustody

/-- A type of private keys that can sign. -/
inductive KeyType
  | rsa
  | p256
  | ed25519
deriving DecidableEq, Repr

namespace KeyType

/-- The customary name. -/
def name : KeyType → String
  | rsa => "RSA"
  | p256 => "EC P-256"
  | ed25519 => "Ed25519"

/-- The description. -/
def text : KeyType → String
  | rsa => "Rsa"
  | p256 => "P256"
  | ed25519 => "Ed25519"

/-- All types. -/
def all : List KeyType := [rsa, p256, ed25519]

end KeyType

/-- An algorithm to sign with. -/
inductive SignatureAlgorithm
  | sha256WithRsa
  | sha512WithRsa
  | sha256WithRsaPss
  | sha512WithRsaPss
  | sha256WithEcdsa
  | sha512WithEcdsa
  | ed25519
deriving DecidableEq, Repr

namespace SignatureAlgorithm

/-- All algorithms. -/
def all : List SignatureAlgorithm :=
  [sha256WithRsa, sha512WithRsa, sha256WithRsaPss, sha512WithRsaPss, sha256WithEcdsa,
    sha512WithEcdsa, ed25519]

/-- The customary name. -/
def name : SignatureAlgorithm → String
  | sha256WithRsa => "SHA256withRSA"
  | sha512WithRsa => "SHA512withRSA"
  | sha256WithRsaPss => "SHA256withRSA/PSS"
  | sha512WithRsaPss => "SHA512withRSA/PSS"
  | sha256WithEcdsa => "SHA256withECDSA"
  | sha512WithEcdsa => "SHA512withECDSA"
  | ed25519 => "Ed25519"

/-- The description. -/
def text : SignatureAlgorithm → String
  | sha256WithRsa => "Sha256WithRsa"
  | sha512WithRsa => "Sha512WithRsa"
  | sha256WithRsaPss => "Sha256WithRsaPss"
  | sha512WithRsaPss => "Sha512WithRsaPss"
  | sha256WithEcdsa => "Sha256WithEcdsa"
  | sha512WithEcdsa => "Sha512WithEcdsa"
  | ed25519 => "Ed25519"

/-- The algorithm of the given name, letter for letter. -/
def ofName? (s : String) : Option SignatureAlgorithm :=
  all.find? fun a => a.name == s

/-- The digest that the message is signed by; Ed25519 has its own. -/
def digest : SignatureAlgorithm → Option Digest
  | sha256WithRsa | sha256WithRsaPss | sha256WithEcdsa => some .sha256
  | sha512WithRsa | sha512WithRsaPss | sha512WithEcdsa => some .sha512
  | ed25519 => none

/-- The type of key that the algorithm needs. -/
def keyType : SignatureAlgorithm → KeyType
  | sha256WithRsa | sha512WithRsa | sha256WithRsaPss | sha512WithRsaPss => .rsa
  | sha256WithEcdsa | sha512WithEcdsa => .p256
  | ed25519 => .ed25519

/-- Whether signatures are salted. -/
def isSalted : SignatureAlgorithm → Bool
  | sha256WithRsaPss | sha512WithRsaPss => true
  | _ => false

/-- The algorithm taken when only a key is given. -/
def preferred : KeyType → SignatureAlgorithm
  | .rsa => sha256WithRsa
  | .p256 => sha256WithEcdsa
  | .ed25519 => ed25519

/-- What an algorithm may be told: the length of the salt. -/
structure Parameters where
  saltLength : Nat
deriving DecidableEq, Repr

end SignatureAlgorithm

end KeyCustody
