import KeyCustody.Engine.Registry
import Mathlib.Tactic.Common

/-!
# Signing with a service takes one request

The signers of the services differ in what they ask for, and in nothing else: a client is opened,
asked once, and let go of, whatever it answers.

## Main definitions

* `Dialogue.signing` — the dialogue of one request with a client of its own
* `ServiceSigner` — the signers of the services
* `Signer.Sends` — what a signer asks for whenever it signs

## Main results

* `Dialogue.run_signing` — the contacts of such a dialogue, and its result
* `ServiceSigner.sign_toSigner` — the signers of the services have such dialogues
-/

namespace KeyCustody

namespace Dialogue

/-- The result of a request that was made with a service. -/
def answered (kmsType : KmsType) (answer : Except String Octets) : Except KeyError Octets :=
  answer.mapError fun text => .signing kmsType.name (.reported text)

/-- The result where no client could be opened. -/
def unopened (kmsType : KmsType) (text : String) : Except KeyError Octets :=
  .error (.backendInit kmsType.name (.reported text))

/-- The dialogue of one request with a client of its own. -/
def signing (kmsType : KmsType) (connector : ConnectorId) (content : SignRequest) :
    Dialogue (Except KeyError Octets) :=
  .withClient connector (unopened kmsType) fun finish =>
    .request connector content fun answer => finish (answered kmsType answer)

theorem run_signing (kmsType : KmsType) (connector : ConnectorId) (content : SignRequest)
    (services : ConnectorId → Service) : (signing kmsType connector content).run services =
      match (services connector).connect with
      | .error text => ([.connected connector], unopened kmsType text)
      | .ok () => ([.connected connector, .requested connector content, .released connector],
          answered kmsType ((services connector).sign content)) := by
  unfold signing withClient
  rw [run]
  cases (services connector).connect <;> rfl

end Dialogue

/-- Whenever the signer signs, it opens a client through the connector, asks it once and lets go of
it. Without a client it asks nothing. -/
def Signer.Sends (signer : Signer) (connector : ConnectorId) (request : Octets → SignRequest) :
    Prop :=
  ∀ (draw : Entropy) (message : Octets) (services : ConnectorId → Service),
    ((signer.sign draw message).run services).1 =
      match (services connector).connect with
      | .error _ => [.connected connector]
      | .ok () => [.connected connector, .requested connector (request message),
          .released connector]

/-- A signer of one of the services. -/
inductive ServiceSigner
  | aws (s : AwsSigner)
  | gcp (s : GcpSigner)

namespace ServiceSigner

/-- The service. -/
def kmsType : ServiceSigner → KmsType
  | aws _ => .aws
  | gcp _ => .gcp

/-- The connector that clients are opened through. -/
def connector : ServiceSigner → ConnectorId
  | aws s => s.connector
  | gcp s => s.connector

/-- The request that signs a message. -/
def request : ServiceSigner → Octets → SignRequest
  | aws s => s.request
  | gcp s => s.request

/-- The signer. -/
def toSigner : ServiceSigner → Signer
  | aws s => s.toSigner
  | gcp s => s.toSigner

theorem sign_toSigner (v : ServiceSigner) (draw : Entropy) (message : Octets) :
    v.toSigner.sign draw message = .signing v.kmsType v.connector (v.request message) := by
  cases v <;> rfl

theorem sends_toSigner (v : ServiceSigner) : v.toSigner.Sends v.connector v.request := by
  intro draw message services
  rw [sign_toSigner, Dialogue.run_signing]
  cases (services v.connector).connect <;> rfl

end ServiceSigner

end KeyCustody
