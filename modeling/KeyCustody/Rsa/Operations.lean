import KeyCustody.Rsa.Padding

/-!
# Signing, verifying and encrypting with RSA

Each operation pads, and applies the private or public operation to the number that the padded
octets spell. Signatures and ciphertexts have exactly the length of the modulus.

## Main definitions

* `Rsa.PrivateKey.signFixed`, `Rsa.PublicKey.verifyFixed` — deterministic signatures
* `Rsa.PrivateKey.signSalted`, `Rsa.PublicKey.verifySalted` — salted signatures
* `Rsa.PrivateKey.signWithSalt`, `Rsa.PublicKey.verifyWithSalt` — the same, with a salt whose
  length may be asked for
* `Rsa.PublicKey.encrypt`, `Rsa.PrivateKey.decrypt` — encryption of short messages
-/

namespace KeyCustody.Rsa

/-- The length of a salt: the one asked for, else that of the digest. -/
def saltLength (digest : Digest) (asked : Option Nat) : Nat := asked.getD digest.size

/-- How many octets a salted padding takes: those that hold all bits of the modulus but one. -/
def PublicKey.saltedLength (k : PublicKey) : Nat := (k.bits - 1 + 7) / 8

namespace PrivateKey

/-- The deterministic signature of a message. -/
def signFixed (k : PrivateKey) (digest : Digest) (message : Octets) : Except Fault Octets :=
  match fixedPadding? digest message k.size with
  | none => .error .messageTooLong
  | some padded => (k.recover? (Octets.toNat padded)).map (Octets.ofNatWidth k.size)

/-- The salted signature of a message. -/
def signSalted (k : PrivateKey) (digest : Digest) (salt message : Octets) :
    Except Fault Octets :=
  match saltedPadding? digest message salt (k.publicKey.bits - 1) with
  | none => .error .internal
  | some padded => (k.recover? (Octets.toNat padded)).map (Octets.ofNatWidth k.size)

/-- The salted signature of a message with a salt that is drawn only if it fits. -/
def signWithSalt (k : PrivateKey) (digest : Digest) (asked : Option Nat) (draw : Entropy)
    (message : Octets) : Except Fault Octets :=
  let length := saltLength digest asked
  if digest.size + length + 2 ≤ k.publicKey.saltedLength then
    k.signSalted digest (draw length) message
  else .error .internal

/-- The message in a ciphertext. -/
def decrypt (k : PrivateKey) (ciphertext : Octets) : Except Fault Octets :=
  if ciphertext.length = k.size then do
    let m ← k.recover? (Octets.toNat ciphertext)
    match openMessage? (Octets.ofNatWidth k.size m) with
    | some message => .ok message
    | none => .error .decryption
  else .error .decryption

end PrivateKey

namespace PublicKey

/-- Whether a deterministic signature is that of the message. -/
def verifyFixed (k : PublicKey) (digest : Digest) (message signature : Octets) : Bool :=
  signature.length == k.size && decide (Octets.toNat signature < k.modulus) &&
    fixedPadding? digest message k.size ==
      some (Octets.ofNatWidth k.size (k.raise (Octets.toNat signature)))

/-- Whether a salted signature with a salt of the given length is one of the message. A signature
that spells a number beyond the modulus stands for its remainder. -/
def verifySalted (k : PublicKey) (digest : Digest) (saltLength : Nat)
    (message signature : Octets) : Bool :=
  let bits := k.bits - 1
  let length := (bits + 7) / 8
  let m := k.raise (Octets.toNat signature)
  signature.length == k.size && decide (m < Nat.pow 256 length) &&
    checkSalted digest message saltLength bits (Octets.ofNatWidth length m)

/-- Whether a salted signature is one of the message, with a salt of the length asked for. -/
def verifyWithSalt (k : PublicKey) (digest : Digest) (asked : Option Nat)
    (message signature : Octets) : Bool :=
  k.verifySalted digest (saltLength digest asked) message signature

/-- The ciphertext of a message under a seed of twenty octets. -/
def encrypt (k : PublicKey) (seed message : Octets) : Except Fault Octets :=
  match sealMessage? message seed k.size with
  | none => .error .messageTooLong
  | some padded => .ok (Octets.ofNatWidth k.size (k.raise (Octets.toNat padded)))

end PublicKey

end KeyCustody.Rsa
