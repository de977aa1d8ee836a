import KeyCustody.Engine.Signer
import KeyCustody.Remote.ResourceName
import KeyCustody.Text.Record

/-!
# Signing with Google Cloud KMS

A version of a key is made for one algorithm, so a request names the version and no algorithm.

## Main definitions

* `GcpSigner`, `GcpSigner.create` — a signer for a version of a key
* `GcpDirectory.keyExists` — asking whether a version exists
-/

namespace KeyCustody

/-- A signer for a version of a key of Cloud KMS. -/
structure GcpSigner where
  name : KeyVersionName
  connector : ConnectorId
deriving DecidableEq, Repr

namespace GcpSigner

/-- A signer for an alias, which has to be a full resource name. The algorithm makes no
difference. No client is opened. -/
def create (keyAlias _algorithm : String) (connector : ConnectorId) : Except KeyError GcpSigner := do
  return ⟨← KeyVersionName.parse keyAlias, connector⟩

/-- The request that signs a message. -/
def request (s : GcpSigner) (message : Octets) : SignRequest := ⟨s.name.text, none, message⟩

/-- Signs a message with a client of its own. -/
def sign (s : GcpSigner) (message : Octets) : Dialogue (Except KeyError Octets) :=
  .withClient s.connector (fun text => .error (.backendInit KmsType.gcp.name (.reported text)))
    fun finish => .request s.connector (s.request message) fun answer =>
      finish (answer.mapError fun text => .signing KmsType.gcp.name (.reported text))

/-- The signer. -/
def toSigner (s : GcpSigner) : Signer := ⟨.service .gcp, fun _ message => s.sign message⟩

/-- The description. -/
def text (s : GcpSigner) : String :=
  Record.partialText "GcpSignerEngine" [("name", Quoted.encode s.name.text)]

end GcpSigner

/-- Whether a version of a key exists, asked of the service with a client of its own. -/
def GcpDirectory.keyExists (connector : ConnectorId) (keyAlias : String) :
    Dialogue (Except KeyError Bool) :=
  match KeyVersionName.parse keyAlias with
  | .error e => .done (.error e)
  | .ok name =>
    .withClient connector (fun text => .error (.backendInit KmsType.gcp.name (.reported text)))
      fun finish => .lookup connector name.text fun answer =>
        finish (answer.mapError fun text =>
          .other ("lookup of " ++ name.text ++ " failed: " ++ text))

end KeyCustody
