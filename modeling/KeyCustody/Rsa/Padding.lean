import KeyCustody.Rsa.Key
import KeyCustody.Hash.Digest
import KeyCustody.Hash.Sha1

/-!
# Padding for RSA

A message is turned into a number of the modulus's size in one of three ways: with a fixed
padding around its digest, with a salted and masked padding around its digest, or masked as
a whole for encryption. The random octets that two of them need are arguments.

## Main definitions

* `Rsa.mask` — octets drawn out of a seed by hashing it with a counter
* `Rsa.fixedPadding?` — the deterministic signature padding
* `Rsa.saltedPadding?`, `Rsa.checkSalted` — the salted signature padding and its check
* `Rsa.sealMessage?`, `Rsa.openMessage?` — the encryption padding and its inverse
-/

namespace KeyCustody.Rsa

/-- The digests of a seed followed by the counters from `counter` on, `count` of them. -/
def maskBlocks (hash : Octets → Octets) (seed : Octets) : Nat → Nat → Octets
  | 0, _ => []
  | count + 1, counter =>
    hash (seed ++ Octets.ofNatWidth 4 counter) ++ maskBlocks hash seed count (counter + 1)

/-- Exactly `length` octets drawn out of a seed. `size` is the output length of the hash. -/
def mask (hash : Octets → Octets) (size : Nat) (seed : Octets) (length : Nat) : Octets :=
  (maskBlocks hash seed ((length + size - 1) / size) 0).take length

/-! ## Deterministic signature padding -/

/-- What stands before a digest to name the function that it came from. -/
def digestMark : Digest → Octets
  | .sha256 => [0x30, 0x31, 0x30, 0x0d, 0x06, 0x09, 0x60, 0x86, 0x48, 0x01, 0x65, 0x03, 0x04, 0x02,
      0x01, 0x05, 0x00, 0x04, 0x20]
  | .sha512 => [0x30, 0x51, 0x30, 0x0d, 0x06, 0x09, 0x60, 0x86, 0x48, 0x01, 0x65, 0x03, 0x04, 0x02,
      0x03, 0x05, 0x00, 0x04, 0x40]

/-- The digest of a message, marked and filled up with `ff` octets to `size` octets, of which at
least eight are needed. -/
def fixedPadding? (digest : Digest) (message : Octets) (size : Nat) : Option Octets :=
  let marked := digestMark digest ++ digest.hash message
  if marked.length + 11 ≤ size then
    some ([0x00, 0x01] ++ List.replicate (size - marked.length - 3) 0xff ++ [0x00] ++ marked)
  else none

/-! ## Salted signature padding -/

/-- The digest that a salted padding carries: of eight zero octets, the message's digest and the
salt. -/
def saltedDigest (digest : Digest) (message salt : Octets) : Octets :=
  digest.hash (List.replicate 8 0 ++ digest.hash message ++ salt)

/-- Clears the first `count` bits of the first octet. -/
def clearLeading (count : Nat) : Octets → Octets
  | [] => []
  | x :: rest => (x &&& UInt8.ofNat (0xff >>> count)) :: rest

/-- The salted padding of a message in a number of `bits` bits. It takes as few octets as hold
the bits; the digest, the salt and two more octets have to fit in. -/
def saltedPadding? (digest : Digest) (message salt : Octets) (bits : Nat) : Option Octets :=
  let length := (bits + 7) / 8
  if digest.size + salt.length + 2 ≤ length then
    let tag := saltedDigest digest message salt
    let data := List.replicate (length - salt.length - digest.size - 2) 0 ++ [0x01] ++ salt
    let masked := Octets.xor data (mask digest.hash digest.size tag data.length)
    some (clearLeading (8 * length - bits) masked ++ tag ++ [0xbc])
  else none

/-- Whether octets are the salted padding of a message with a salt of the given length. -/
def checkSalted (digest : Digest) (message : Octets) (saltLength bits : Nat) (b : Octets) :
    Bool :=
  let length := (bits + 7) / 8
  if b.length = length ∧ digest.size + saltLength + 2 ≤ length ∧ b.getLast? = some 0xbc then
    let masked := b.take (length - digest.size - 1)
    let tag := (b.drop (length - digest.size - 1)).take digest.size
    let spare := 8 * length - bits
    let data := clearLeading spare
      (Octets.xor masked (mask digest.hash digest.size tag masked.length))
    let zeros := length - digest.size - saltLength - 2
    clearLeading spare masked == masked &&
      (data.take zeros).all (· == 0) &&
      (data.drop zeros).head? == some 0x01 &&
      saltedDigest digest message (data.drop (zeros + 1)) == tag
  else false

/-! ## Encryption padding -/

/-- The digest of the empty label. -/
def labelDigest : Octets := Sha1.hash []

/-- Pads and masks a message to `size` octets with a seed of twenty octets. The message has to
leave 42 octets over. -/
def sealMessage? (message seed : Octets) (size : Nat) : Option Octets :=
  if message.length + 42 ≤ size then
    let data := labelDigest ++ List.replicate (size - message.length - 42) 0 ++ [0x01] ++ message
    let masked := Octets.xor data (mask Sha1.hash 20 seed data.length)
    let maskedSeed := Octets.xor seed (mask Sha1.hash 20 masked 20)
    some (0x00 :: (maskedSeed ++ masked))
  else none

/-- The message in padded octets: what follows the first one octet behind the label's digest and
zeros. -/
def openMessage? (b : Octets) : Option Octets :=
  match b with
  | [] => none
  | first :: rest =>
    let maskedSeed := rest.take 20
    let masked := rest.drop 20
    let seed := Octets.xor maskedSeed (mask Sha1.hash 20 masked 20)
    let data := Octets.xor masked (mask Sha1.hash 20 seed masked.length)
    if first = 0 ∧ 42 ≤ b.length ∧ data.take 20 = labelDigest then
      match (data.drop 20).dropWhile (· == 0) with
      | x :: message => if x = 0x01 then some message else none
      | [] => none
    else none

end KeyCustody.Rsa
