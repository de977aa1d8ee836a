import KeyCustody.KeyError
import KeyCustody.Remote.Dialogue

/-!
# Signers

A signer turns messages into signatures and hides where its key is kept. Anything that can say
which backend it belongs to and how it signs is a signer.

## Main definitions

* `Backend` — where the key of a signer is kept
* `Signer` — a backend and a way to sign
-/

namespace KeyCustody

/-- Where the key of a signer is kept. -/
inductive Backend
  | inProcess
  | service (kmsType : KmsType)
deriving DecidableEq, Repr

namespace Backend

/-- The wording. -/
def name : Backend → String
  | inProcess => "local"
  | service kmsType => kmsType.name ++ " KMS"

/-- Whether the key is kept in this process. -/
def isLocal : Backend → Bool
  | inProcess => true
  | service _ => false

end Backend

/-- A backend and a way to sign. -/
structure Signer where
  backend : Backend
  sign : Entropy → Octets → Dialogue (Except KeyError Octets)

end KeyCustody
