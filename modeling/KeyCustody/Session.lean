import KeyCustody.Engine.Registry
import KeyCustody.Import

/-!
# Sessions

A session is a sequence of operations on one registry: registering backends, resolving keys into
signers that are kept under names, signing with them, and asking directories. It keeps every
contact with a service and every call of a constructor, in order.

## Main definitions

* `Session` — the registry, the named signers, and what has happened
* `Session.Step`, `Session.Outcome` — an operation and what it comes to
* `Session.perform` — one operation
-/

namespace KeyCustody

/-- A caller's own backend for a service: its signers reverse the message, and its constructor
may refuse every alias for a given reason. -/
def Constructor.reversing (kmsType : KmsType) (refusal : Option String) : Constructor :=
  ⟨true, fun keyAlias _ =>
    match refusal with
    | some reason => .error (.invalidKeyAlias keyAlias (.reported reason))
    | none => .ok ⟨.service kmsType, fun _ message => .done (.ok message.reverse)⟩⟩

/-- The registry, the named signers, and what has happened. -/
structure Session where
  registry : Registry
  signers : List (String × Signer)
  contacts : List Contact
  constructions : List Registry.Construction

namespace Session

/-- The session before the first operation. -/
def start : Session := ⟨.empty, [], [], []⟩

/-- An operation. -/
inductive Step
  | registerAws (connector : ConnectorId)
  | registerGcp (connector : ConnectorId)
  | registerCustom (kmsType : KmsType) (refusal : Option String)
  | contains (kmsType : KmsType)
  | kmsTypes
  /-- Resolve a key, which may have failed to load, and keep the signer under a name. -/
  | resolve (name : String) (source : Except KeyError KeySource) (algorithm : String)
      (parameters : Option SignatureAlgorithm.Parameters)
  | sign (name : String) (message : Octets)
  | awsSigner (name : String) (connector : ConnectorId) (keyAlias algorithm : String)
  | gcpSigner (name : String) (connector : ConnectorId) (keyAlias algorithm : String)
  | gcpExists (connector : ConnectorId) (keyAlias : String)
  | gcpRequire (connector : ConnectorId) (keyAlias : String)
  /-- Require a key of a directory that knows a fixed list of aliases. -/
  | require (kmsType : KmsType) (known : List String) (keyAlias : String)

/-- What an operation comes to. -/
inductive Outcome
  | replaced (another : Bool)
  | contained (present : Bool)
  | kmsTypes (types : List KmsType) (text : String)
  | resolved (backend : Backend)
  | signed (signature : Octets)
  | awsSigner (s : AwsSigner)
  | gcpSigner (s : GcpSigner)
  | existing (present : Bool)
  | required (source : KeySource)
  | failed (error : KeyError)
  /-- No signer is kept under the name. -/
  | noSigner

/-- Keeps a signer under a name. -/
def keep (s : Session) (name : String) (signer : Signer) : Session :=
  { s with signers := (name, signer) :: s.signers }

/-- Replaces the registry by the one after a registration. -/
def register (s : Session) (r : Registry × Bool) : Session × Outcome :=
  ({ s with registry := r.1 }, .replaced r.2)

/-- Has a dialogue with the services, and goes on from its result. -/
def converse {α : Type} (s : Session) (services : ConnectorId → Service)
    (dialogue : Dialogue (Except KeyError α)) (outcome : α → Outcome) : Session × Outcome :=
  let (contacts, result) := dialogue.run services
  ({ s with contacts := s.contacts ++ contacts },
    match result with
    | .ok a => outcome a
    | .error e => .failed e)

/-- Keeps a new signer of a service under a name, if it was made. -/
def adopt {α : Type} (s : Session) (name : String) (made : Except KeyError α)
    (toSigner : α → Signer) (outcome : α → Outcome) : Session × Outcome :=
  match made with
  | .ok a => (s.keep name (toSigner a), outcome a)
  | .error e => (s, .failed e)

/-- Performs one operation. -/
def perform (s : Session) (services : ConnectorId → Service) (draw : Entropy) :
    Step → Session × Outcome
  | .registerAws connector => s.register (s.registry.registerAws connector)
  | .registerGcp connector => s.register (s.registry.registerGcp connector)
  | .registerCustom kmsType refusal =>
    s.register (s.registry.register kmsType (.reversing kmsType refusal))
  | .contains kmsType => (s, .contained (s.registry.contains kmsType))
  | .kmsTypes => (s, .kmsTypes s.registry.kmsTypes s.registry.text)
  | .resolve name source algorithm parameters =>
    match source with
    | .error e => (s, .failed e)
    | .ok source =>
      let r := s.registry.resolve source algorithm parameters
      let s := { s with constructions := s.constructions ++ r.construction.toList }
      s.adopt name r.outcome id fun signer => .resolved signer.backend
  | .sign name message =>
    match s.signers.lookup name with
    | none => (s, .noSigner)
    | some signer => s.converse services (signer.sign draw message) .signed
  | .awsSigner name connector keyAlias algorithm =>
    s.adopt name (AwsSigner.create keyAlias algorithm connector) AwsSigner.toSigner .awsSigner
  | .gcpSigner name connector keyAlias algorithm =>
    s.adopt name (GcpSigner.create keyAlias algorithm connector) GcpSigner.toSigner .gcpSigner
  | .gcpExists connector keyAlias =>
    s.converse services (GcpDirectory.keyExists connector keyAlias) .existing
  | .gcpRequire connector keyAlias =>
    s.converse services (requireKey .gcp keyAlias (GcpDirectory.keyExists connector keyAlias)) .required
  | .require kmsType known keyAlias =>
    s.converse services (requireKey kmsType keyAlias (.done (.ok (known.contains keyAlias)))) .required

/-! ## What has happened -/

/-- How often clients of a connector were opened, or failed to open. -/
def connects (contacts : List Contact) (c : ConnectorId) : Nat :=
  contacts.count (.connected c)

/-- How often clients of a connector were let go of. -/
def releases (contacts : List Contact) (c : ConnectorId) : Nat :=
  contacts.count (.released c)

/-- The requests and look-ups that clients of a connector have sent. -/
def sent (contacts : List Contact) (c : ConnectorId) : List Contact :=
  contacts.filter fun
    | .requested d _ => d == c
    | .lookedUp d _ => d == c
    | _ => false

end Session

end KeyCustody
