import KeyCustody.Package
import KeyCustody.PrivateKey
import KeyCustody.Remote.Gcp

/-!
# Importing a key into a service

Before a remote key is configured, a directory is asked whether it exists. To move a private key
into a service, its document is wrapped into a package under the service's key.

## Main definitions

* `requireKey` — a remote key that is known to exist
* `prepareImport` — the package for a private key
-/

namespace KeyCustody

/-- What a directory's answer about an alias comes to: the remote key if it exists. -/
def requiredKey (kmsType : KmsType) (keyAlias : String) (answer : Except KeyError Bool) :
    Except KeyError KeySource :=
  match answer with
  | .error e => .error e
  | .ok true => .ok (.remote kmsType keyAlias)
  | .ok false => .error (.keyNotFound kmsType.name keyAlias)

/-- A remote key that a directory knows to exist. -/
def requireKey (kmsType : KmsType) (keyAlias : String) (directory : Dialogue (Except KeyError Bool)) :
    Dialogue (Except KeyError KeySource) :=
  directory.map (requiredKey kmsType keyAlias)

/-- The package that moves a private key under a wrapping key, given as a public-key document. -/
def prepareImport (secrets : PackageSecrets) (key : PrivateKey) (wrappingKey : Octets) :
    Except KeyError Package := do
  let document ← key.encode.mapError .crypto
  (Package.wrap secrets wrappingKey document).mapError fun fault => .crypto (.keyWrap fault)

end KeyCustody
