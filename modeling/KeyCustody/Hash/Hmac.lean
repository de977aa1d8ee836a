import KeyCustody.Hash.Sha256

/-!
# HMAC

Keyed hashing with SHA-256: the key, filled up to one block, is mixed with two constants, and
the message is hashed under the first and the result under the second.

## Main definitions

* `Hmac.sha256` — the tag of a message under a key
-/

namespace KeyCustody.Hmac

/-- The key as exactly one block of 64 octets; a longer key is hashed first. -/
def blockKey (key : Octets) : Octets :=
  let k := if key.length > 64 then Sha256.hash key else key
  k ++ List.replicate (64 - k.length) 0

/-- The tag of a message under a key. -/
def sha256 (key message : Octets) : Octets :=
  let k := blockKey key
  Sha256.hash (k.map (· ^^^ 0x5c) ++ Sha256.hash (k.map (· ^^^ 0x36) ++ message))

end KeyCustody.Hmac
