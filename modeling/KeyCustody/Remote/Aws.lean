import KeyCustody.Engine.Signer
import KeyCustody.Text.Record

/-!
# Signing with AWS KMS

Keys are addressed by an alias, and the algorithm is chosen with each request under the
service's own code.

## Main definitions

* `Aws.algorithmCode?` — the code of an algorithm
* `Aws.keyId` — the name under which an alias is sent
* `AwsSigner`, `AwsSigner.create` — a signer for an alias and an algorithm
-/

namespace KeyCustody

namespace Aws

/-- The code of an algorithm that the service can sign with. -/
def algorithmCode? : SignatureAlgorithm → Option String
  | .sha256WithRsaPss => some "RSASSA_PSS_SHA_256"
  | .sha512WithRsaPss => some "RSASSA_PSS_SHA_512"
  | .sha256WithRsa => some "RSASSA_PKCS1_V1_5_SHA_256"
  | .sha512WithRsa => some "RSASSA_PKCS1_V1_5_SHA_512"
  | .sha256WithEcdsa => some "ECDSA_SHA_256"
  | .sha512WithEcdsa => some "ECDSA_SHA_512"
  | .ed25519 => none

/-- The code of the algorithm of a given name. -/
def codeOfName? (algorithm : String) : Option String :=
  SignatureAlgorithm.ofName? algorithm >>= algorithmCode?

/-- What the service expects in front of an alias. -/
def aliasMark : List Char := "alias/".toList

/-- The name that an alias leaves when its mark, if it has one, is taken away. -/
def aliasName (keyAlias : List Char) : List Char :=
  if aliasMark.isPrefixOf keyAlias then keyAlias.drop aliasMark.length else keyAlias

/-- The name under which an alias is sent: the alias, marked once more only if it is not marked
already. -/
def keyId (keyAlias : String) : Except KeyError String :=
  match aliasName keyAlias.toList with
  | [] => .error (.invalidKeyAlias keyAlias .emptyName)
  | name => .ok (String.ofList (aliasMark ++ name))

end Aws

/-- A signer for a key of AWS KMS. -/
structure AwsSigner where
  keyId : String
  algorithm : String
  connector : ConnectorId
deriving DecidableEq, Repr

namespace AwsSigner

/-- A signer for an alias and an algorithm. No client is opened. -/
def create (keyAlias algorithm : String) (connector : ConnectorId) : Except KeyError AwsSigner := do
  if algorithm = "" then throw (.invalidParameters .missingAlgorithm)
  match Aws.codeOfName? algorithm with
  | none => throw (.unsupportedAlgorithm KmsType.aws.name algorithm)
  | some code =>
    let keyId ← Aws.keyId keyAlias
    return ⟨keyId, code, connector⟩

/-- The request that signs a message. -/
def request (s : AwsSigner) (message : Octets) : SignRequest :=
  ⟨s.keyId, some s.algorithm, message⟩

/-- Signs a message with a client of its own. -/
def sign (s : AwsSigner) (message : Octets) : Dialogue (Except KeyError Octets) :=
  .withClient s.connector (fun text => .error (.backendInit KmsType.aws.name (.reported text)))
    fun finish => .request s.connector (s.request message) fun answer =>
      finish (answer.mapError fun text => .signing KmsType.aws.name (.reported text))

/-- The signer. -/
def toSigner (s : AwsSigner) : Signer := ⟨.service .aws, fun _ message => s.sign message⟩

/-- The description. -/
def text (s : AwsSigner) : String :=
  Record.partialText "AwsSignerEngine"
    [("key_id", Quoted.encode s.keyId), ("signing_algorithm", Quoted.encode s.algorithm)]

end AwsSigner

end KeyCustody
