import KeyCustody.Pem
import KeyCustody.Rsa.Key
import KeyCustody.P256.Key
import KeyCustody.Ed25519.Key

/-!
# Key documents in armor

Private and public keys are also exchanged as armored documents, under a label that says which
of the two they hold.

## Main definitions

* `PrivateKeyDocument.ofArmored?`, `PublicKeyDocument.ofArmored?` — reading
* `PublicKeyDocument.armored` — writing
* `Rsa.PrivateKey.ofArmored?` and its like — keys of each type from armored documents
-/

namespace KeyCustody

/-- The private-key document in an armored document. -/
def PrivateKeyDocument.ofArmored? (text : Octets) : Option PrivateKeyDocument := do
  let d ← Pem.decode? text
  guard (d.label = Pem.privateKeyLabel)
  decode? d.body

/-- The public-key document in an armored document. -/
def PublicKeyDocument.ofArmored? (text : Octets) : Option PublicKeyDocument := do
  let d ← Pem.decode? text
  guard (d.label = Pem.publicKeyLabel)
  decode? d.body

/-- The public-key document in armor. -/
def PublicKeyDocument.armored (d : PublicKeyDocument) : Octets :=
  Pem.encode ⟨Pem.publicKeyLabel, d.encode⟩

/-- The RSA private key in an armored document. -/
def Rsa.PrivateKey.ofArmored? (text : Octets) : Option Rsa.PrivateKey :=
  PrivateKeyDocument.ofArmored? text >>= ofDocument?

/-- The RSA public key in an armored document. -/
def Rsa.PublicKey.ofArmored? (text : Octets) : Option Rsa.PublicKey :=
  PublicKeyDocument.ofArmored? text >>= ofDocument?

/-- The private key on P-256 in an armored document. -/
def P256.PrivateKey.ofArmored? (text : Octets) : Option P256.PrivateKey :=
  PrivateKeyDocument.ofArmored? text >>= ofDocument?

/-- The public key on P-256 in an armored document. -/
def P256.PublicKey.ofArmored? (text : Octets) : Option P256.PublicKey :=
  PublicKeyDocument.ofArmored? text >>= ofDocument?

/-- The Ed25519 private key in an armored document. -/
def Ed25519.PrivateKey.ofArmored? (text : Octets) : Option Ed25519.PrivateKey :=
  PrivateKeyDocument.ofArmored? text >>= ofDocument?

end KeyCustody
