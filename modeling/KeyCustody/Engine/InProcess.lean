import KeyCustody.Engine.Signer
import KeyCustody.P256.Signature
import KeyCustody.PrivateKey
import KeyCustody.Rsa.Operations

/-!
# Signing in process

A private key at hand signs with an algorithm that its type admits, and with a salt length if
the algorithm takes one.

## Main definitions

* `InProcessSigner` — a key, an algorithm for its type, and parameters for the algorithm
* `InProcessSigner.ofAlgorithm`, `InProcessSigner.ofName` — binding a key to an algorithm, or to the
  algorithm of a given name
* `InProcessSigner.sign` — the signature of a message
-/

namespace KeyCustody

/-- Checks that parameters apply to an algorithm. -/
def SignatureAlgorithm.Parameters.check (_ : Parameters) (a : SignatureAlgorithm) :
    Except KeyError Unit :=
  if a.isSalted then .ok () else .error (.invalidParameters (.unsalted a))

/-- The algorithm of the given name, or the failure that there is none in process. -/
def SignatureAlgorithm.parse (s : String) : Except KeyError SignatureAlgorithm :=
  match ofName? s with
  | some a => .ok a
  | none => .error (.unsupportedAlgorithm "local" s)

/-- A private key bound to an algorithm. -/
structure InProcessSigner where
  key : PrivateKey
  algorithm : SignatureAlgorithm
  parameters : Option SignatureAlgorithm.Parameters
deriving DecidableEq, Repr

namespace InProcessSigner

/-- Binds a key to an algorithm that needs its type, with parameters that apply to it. -/
def ofAlgorithm (key : PrivateKey) (algorithm : SignatureAlgorithm)
    (parameters : Option SignatureAlgorithm.Parameters) : Except KeyError InProcessSigner := do
  if algorithm.keyType ≠ key.keyType then
    throw (.incompatibleKey key.keyType.name algorithm.name)
  match parameters with
  | some p => p.check algorithm
  | none => pure ()
  return ⟨key, algorithm, parameters⟩

/-- Binds a key to the algorithm of the given name. -/
def ofName (key : PrivateKey) (algorithm : String)
    (parameters : Option SignatureAlgorithm.Parameters) : Except KeyError InProcessSigner :=
  match SignatureAlgorithm.ofName? algorithm with
  | some a => ofAlgorithm key a parameters
  | none => .error (.unsupportedAlgorithm Backend.inProcess.name algorithm)

/-- The length of the salt that the parameters ask for. -/
def saltLength? (s : InProcessSigner) : Option Nat := s.parameters.map fun p => p.saltLength

/-- The signature of a message by the primitive that the key and the algorithm call for, or
nothing if they do not fit together. -/
def primitive (s : InProcessSigner) (draw : Entropy) (message : Octets) :
    Option (Except CryptoError Octets) :=
  match s.key, s.algorithm.digest with
  | .rsa k, some digest =>
    some (.mapError .rsa (if s.algorithm.isSalted then
        k.signWithSalt digest s.saltLength? draw message
      else k.signFixed digest message))
  | .p256 k, some digest =>
    some (match k.sign? digest message with
      | some signature => .ok signature
      | none => .error .signature)
  | .ed25519 k, none => some (.ok (k.sign message))
  | _, _ => none

/-- The signature of a message. -/
def sign (s : InProcessSigner) (draw : Entropy) (message : Octets) : Except KeyError Octets :=
  match s.primitive draw message with
  | some outcome =>
    outcome.mapError fun e => .signing Backend.inProcess.name (.crypto e)
  | none => .error (.incompatibleKey s.key.keyType.name s.algorithm.name)

/-- The signer, which contacts no service. -/
def toSigner (s : InProcessSigner) : Signer :=
  ⟨.inProcess, fun draw message => .done (s.sign draw message)⟩

/-- The description of parameters. -/
def parametersText (p : SignatureAlgorithm.Parameters) : String :=
  Record.text "Pss" [("salt_len", p.saltLength.repr)]

/-- The description. -/
def text (s : InProcessSigner) : String :=
  let parameters :=
    match s.parameters with
    | some p => "Some(" ++ parametersText p ++ ")"
    | none => "None"
  Record.text "LocalSignerEngine"
    [("key", s.key.text), ("algorithm", s.algorithm.text), ("parameters", parameters)]

end InProcessSigner

end KeyCustody
