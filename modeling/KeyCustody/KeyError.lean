import KeyCustody.CryptoError
import KeyCustody.KmsType
import KeyCustody.Text.TimeSpan
import KeyCustody.Der.Identifier
import KeyCustody.SignatureAlgorithm

/-!
# Failures with keys and engines

Each failure is kept as its cause, and the wording is fixed in one place. Where a cause comes
from outside this library, from a remote service or a caller's own engine, its text is all that
is known of it.

## Main definitions

* `AliasFault`, `ParameterFault`, `ImportFault`, `IoFault` — what is wrong with an alias, with
  parameters, with a key to import, and with a file
* `KeyError` — why an operation with a key or an engine fails
* `KeyError.message`, `KeyError.causes` — the wording, and the chain of causes beneath
-/

namespace KeyCustody

/-- What is wrong with the alias of a remote key. -/
inductive AliasFault
  /-- No name is left of an alias. -/
  | emptyName
  /-- A resource name has the wrong number of segments. -/
  | segmentCount (expected found : Nat)
  /-- A segment, counted from one, does not name the collection that belongs there. -/
  | collection (name : String) (position : Nat)
  /-- The identifier after a collection is empty. -/
  | emptyId (name : String)
  /-- A fault that is known by its text alone. -/
  | reported (text : String)
deriving DecidableEq, Repr

/-- The wording. -/
def AliasFault.text : AliasFault → String
  | emptyName => "AWS key alias is empty"
  | segmentCount expected found =>
    "expected " ++ expected.repr ++ " path segments, found " ++ found.repr
  | collection name position => "expected `" ++ name ++ "` at segment " ++ position.repr
  | emptyId name => "empty `" ++ name ++ "` id"
  | reported text => text

/-- What is wrong with the parameters of an algorithm or a policy. -/
inductive ParameterFault
  /-- A salt length is given for an algorithm without a salt. -/
  | unsalted (algorithm : SignatureAlgorithm)
  /-- The service needs an algorithm and none is given. -/
  | missingAlgorithm
  /-- The growth factor of a policy is infinite or no number; its text is given. -/
  | multiplier (text : String)
  /-- A fault that is known by its text alone. -/
  | reported (text : String)
deriving DecidableEq, Repr

/-- The wording. -/
def ParameterFault.text : ParameterFault → String
  | unsalted algorithm => "PSS parameters given for " ++ algorithm.name
  | missingAlgorithm => "AWS KMS signing needs a signature algorithm"
  | multiplier text => "poll multiplier must be finite, got " ++ text
  | reported text => text

/-- Why a private key is not imported. -/
inductive ImportFault
  /-- The text is no armored document. -/
  | armor
  /-- The armored document is labelled as something else. -/
  | label (found : String)
  /-- The octets are no private-key document. -/
  | document
  /-- The document names no curve. -/
  | missingCurve
  /-- What should name the curve is no identifier. -/
  | curve
  /-- The curve is another one. -/
  | unsupportedCurve (identifier : Der.Identifier)
  /-- The algorithm is none of those in use. -/
  | unsupportedAlgorithm (identifier : Der.Identifier)
  /-- The file begins like an armored document but is no text. -/
  | notText
  /-- A fault that is known by its text alone. -/
  | reported (text : String)
deriving DecidableEq, Repr

/-- The wording. -/
def ImportFault.text : ImportFault → String
  | armor => "Failed to decode PEM: not a strict armored document"
  | label found => "Invalid PKCS#8 label: " ++ found
  | document => "Failed to parse PKCS#8: not a private-key document"
  | missingCurve => "EC key is missing curve parameters"
  | curve => "Failed to parse curve OID: not an identifier"
  | unsupportedCurve identifier => "Unsupported EC curve OID: " ++ identifier.text
  | unsupportedAlgorithm identifier =>
    "Unsupported private key algorithm OID: " ++ identifier.text
  | notText => "PEM file is not UTF-8: invalid sequence"
  | reported text => text

/-- Why a file is not read or written. -/
inductive IoFault
  | notFound
  | isDirectory
  | notDirectory
  /-- A name in the path is longer than the system allows, or the path is. -/
  | nameTooLong
  /-- The path holds a zero character. -/
  | invalidName
  /-- A fault that is known by its text alone. -/
  | reported (text : String)
deriving DecidableEq, Repr

/-- The wording. -/
def IoFault.text : IoFault → String
  | notFound => "no such file or directory"
  | isDirectory => "is a directory"
  | notDirectory => "not a directory"
  | nameTooLong => "file name too long"
  | invalidName => "file name contained an unexpected zero character"
  | reported text => text

/-- The cause of a failed operation of a backend. -/
inductive Cause
  /-- A cause that is known by its text alone. -/
  | reported (text : String)
  /-- A primitive of this library. -/
  | crypto (error : CryptoError)
deriving DecidableEq, Repr

/-- The wording. -/
def Cause.text : Cause → String
  | reported text => text
  | crypto error => error.message

/-- The wordings of the cause and of those beneath it. -/
def Cause.chain : Cause → List String
  | reported text => [text]
  | crypto error => error.message :: error.causes

/-- Why an operation with a key or an engine fails. -/
inductive KeyError
  /-- No engine is registered for the service. -/
  | unsupportedBackend (kmsType : KmsType)
  /-- The backend cannot sign with the algorithm. -/
  | unsupportedAlgorithm (backend algorithm : String)
  /-- The algorithm needs another type of key. -/
  | incompatibleKey (keyType algorithm : String)
  | invalidParameters (fault : ParameterFault)
  | invalidKeyAlias (keyAlias : String) (fault : AliasFault)
  /-- The service cannot be connected to. -/
  | backendInit (backend : String) (cause : Cause)
  /-- The signing itself fails. -/
  | signing (backend : String) (cause : Cause)
  | keyNotFound (backend keyAlias : String)
  /-- A wait is given up after some time. -/
  | timeout (what : String) (elapsed : TimeSpan)
  | importing (fault : ImportFault)
  | io (fault : IoFault)
  | crypto (error : CryptoError)
  /-- A failure that is known by its text alone. -/
  | other (text : String)
deriving DecidableEq, Repr

namespace KeyError

/-- The wording. -/
def message : KeyError → String
  | unsupportedBackend kmsType => "Unsupported KMS backend: " ++ kmsType.name
  | unsupportedAlgorithm backend algorithm =>
    "Signature algorithm " ++ algorithm ++ " not supported by " ++ backend
  | incompatibleKey keyType algorithm =>
    "Signature algorithm " ++ algorithm ++ " cannot be used with a " ++ keyType ++ " key"
  | invalidParameters fault => "Invalid algorithm parameters: " ++ fault.text
  | invalidKeyAlias keyAlias fault =>
    "Invalid key alias " ++ Quoted.encode keyAlias ++ ": " ++ fault.text
  | backendInit backend cause =>
    "Failed to initialize " ++ backend ++ " client: " ++ cause.text
  | signing backend cause => "Signing with " ++ backend ++ " failed: " ++ cause.text
  | keyNotFound backend keyAlias =>
    "Key " ++ Quoted.encode keyAlias ++ " not found in " ++ backend
  | timeout what elapsed =>
    "Timed out after " ++ elapsed.text ++ " waiting for " ++ what
  | importing fault => "Import error: " ++ fault.text
  | io fault => "IO error: " ++ fault.text
  | crypto error => "Crypto error: " ++ error.message
  | other text => "Other error: " ++ text

/-- The wordings of the causes beneath, from the nearest to the last. -/
def causes : KeyError → List String
  | backendInit _ cause => cause.chain
  | signing _ cause => cause.chain
  | io fault => [fault.text]
  | crypto error => error.message :: error.causes
  | _ => []

end KeyError

end KeyCustody
