import KeyCustody.Command.Host

/-!
# Showing a key file

What is shown of a private key is its type and size, the algorithms that it is good for, and its
public part.

## Main definitions

* `keyLines` — what is shown of a key
* `Command.info` — showing the key in a file
-/

namespace KeyCustody

/-- The names of the algorithms that keys of a type are good for. -/
def algorithmNames (type : KeyType) : List String :=
  (SignatureAlgorithm.all.filter (·.keyType = type)).map (·.name)

/-- The armored public-key document of a key, as a text. -/
def PrivateKey.publicText (k : PrivateKey) : String :=
  (Octets.toText? k.publicDocument.armored).getD ""

/-- What is shown of a key and of the size of its file. -/
def keyText (k : PrivateKey) (fileSize : Nat) : String :=
  "\n".intercalate [
    "Key type: private",
    "Algorithm: " ++ k.keyType.name,
    "Size: " ++ k.bits.repr ++ " bits",
    "Signature algorithms: " ++ ", ".intercalate (algorithmNames k.keyType),
    "Default algorithm: " ++ (SignatureAlgorithm.preferred k.keyType).name,
    "",
    "Public key:",
    "  SPKI SHA-256: " ++ k.fingerprint,
    "",
    k.publicText,
    "File info:",
    "  File size: " ++ fileSize.repr ++ " bytes",
    "",
    "⚠ Keep the private key file safe!"]

variable {m : Type → Type} [Monad m] [Host m]

open Host

/-- Shows the key in a file. -/
def Command.info (path : String) : CommandM m Unit := do
  say ("Key info: " ++ path)
  say ""
  require path
  let (key, fileSize) ← loadKey path
  say (keyText key fileSize)

end KeyCustody
