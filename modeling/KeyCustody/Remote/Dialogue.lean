import KeyCustody.Octets

/-!
# Dialogues with a remote service

An engine whose key lives with a remote service does its work in a dialogue: it opens a client
through a connector, makes a request and releases the client, and what it does next may depend
on each answer. A dialogue is a value, so what an engine does is known before any service is
contacted. Running a dialogue against given services yields its result and the contacts that
were made, in order.

## Main definitions

* `SignRequest` — what is asked of a service
* `Dialogue` — a program over connections, requests, look-ups and releases
* `Service`, `Contact` — how a service answers, and one contact with it
* `Dialogue.run` — the contacts and the result of a dialogue
* `Dialogue.map`, `Dialogue.withClient` — building dialogues
-/

namespace KeyCustody

/-- A request to sign. -/
structure SignRequest where
  /-- The service's name for the key. -/
  keyId : String
  /-- The service's code for the algorithm, where it is chosen with each request. -/
  algorithm : Option String
  message : Octets
deriving DecidableEq, Repr

/-- Connectors are told apart by number. -/
abbrev ConnectorId := Nat

/-- A program over the contacts with remote services. -/
inductive Dialogue (α : Type)
  /-- The dialogue is over. -/
  | done (result : α)
  /-- Open a client; the answer is nothing, or the text of a failure. -/
  | connect (connector : ConnectorId) (next : Except String Unit → Dialogue α)
  /-- Have the client sign; the answer is a signature, or the text of a failure. -/
  | request (connector : ConnectorId) (content : SignRequest)
      (next : Except String Octets → Dialogue α)
  /-- Ask the client whether a key exists. -/
  | lookup (connector : ConnectorId) (keyId : String) (next : Except String Bool → Dialogue α)
  /-- Let go of the client. -/
  | release (connector : ConnectorId) (next : Dialogue α)

/-- How the service behind a connector answers. A client without a look-up of its own answers
every one by itself, and nothing is sent. -/
structure Service where
  connect : Except String Unit
  sign : SignRequest → Except String Octets
  lookup : Option (String → Except String Bool)

/-- One contact with a service. -/
inductive Contact
  | connected (connector : ConnectorId)
  | requested (connector : ConnectorId) (content : SignRequest)
  | lookedUp (connector : ConnectorId) (keyId : String)
  | released (connector : ConnectorId)
deriving DecidableEq, Repr

/-- What a client without a look-up answers. -/
def Service.unsupportedLookup (keyId : String) : String :=
  "key lookup for " ++ keyId ++ " is not supported by this client"

namespace Dialogue

/-- The contacts that a dialogue makes with given services, and its result. -/
def run {α : Type} (services : ConnectorId → Service) : Dialogue α → List Contact × α
  | done result => ([], result)
  | connect c next =>
    let (contacts, result) := (next (services c).connect).run services
    (.connected c :: contacts, result)
  | request c content next =>
    let (contacts, result) := (next ((services c).sign content)).run services
    (.requested c content :: contacts, result)
  | lookup c keyId next =>
    match (services c).lookup with
    | some answer =>
      let (contacts, result) := (next (answer keyId)).run services
      (.lookedUp c keyId :: contacts, result)
    | none => (next (.error (Service.unsupportedLookup keyId))).run services
  | release c next =>
    let (contacts, result) := next.run services
    (.released c :: contacts, result)

/-- Turns the result of a dialogue into another. -/
def map {α β : Type} (f : α → β) : Dialogue α → Dialogue β
  | done result => done (f result)
  | connect c next => connect c fun answer => (next answer).map f
  | request c content next => request c content fun answer => (next answer).map f
  | lookup c keyId next => lookup c keyId fun answer => (next answer).map f
  | release c next => release c (next.map f)

/-- Opens a client for one exchange and lets go of it afterwards. Without a client there is no
exchange. -/
def withClient {α : Type} (c : ConnectorId) (failed : String → α)
    (exchange : (α → Dialogue α) → Dialogue α) : Dialogue α :=
  connect c fun
    | .error text => done (failed text)
    | .ok () => exchange fun result => release c (done result)

end Dialogue

end KeyCustody
