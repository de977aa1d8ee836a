import KeyCustody.Hash.Sha256
import KeyCustody.Hash.Sha512

/-!
# Digests for signatures

The two hash functions that a signature algorithm may name.

## Main definitions

* `Digest`, `Digest.size`, `Digest.hash` — the choice, its output length and its function
* `Digest.preferred` — the digest taken when none is named
-/

namespace KeyCustody

/-- A hash function that a signature algorithm may name. -/
inductive Digest
  | sha256
  | sha512
deriving DecidableEq, Repr

namespace Digest

/-- The customary name. -/
def name : Digest → String
  | sha256 => "SHA-256"
  | sha512 => "SHA-512"

/-- The output length in octets. -/
def size : Digest → Nat
  | sha256 => 32
  | sha512 => 64

/-- The digest of a message. -/
def hash : Digest → Octets → Octets
  | sha256 => Sha256.hash
  | sha512 => Sha512.hash

/-- The digest taken when none is named. -/
def preferred : Digest := sha256

theorem size_pos (d : Digest) : 0 < d.size := by
  cases d <;> decide

@[simp] theorem length_hash (d : Digest) (message : Octets) : (d.hash message).length = d.size := by
  cases d <;> simp [hash, size]

end Digest

end KeyCustody
