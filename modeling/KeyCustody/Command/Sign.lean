import KeyCustody.Command.Host
import KeyCustody.Settings
import KeyCustody.Text.Hex

/-!
# Signing a file

The key to sign with is named by flags or by the settings: a flag for a private key wins, then
flags for a remote key, where the settings fill in what the flags leave out, and without flags
the private key of the settings goes before their remote key. The signature is written next to
the input unless another place is given.

## Main definitions

* `SignFlags` — what the flags say
* `SigningKeyName`, `SignFlags.keyName` — the key that flags and settings name
* `signFile`, `Command.sign` — signing, and signing with a word at the end
-/

namespace KeyCustody

/-- What the flags of a signing command say. -/
structure SignFlags where
  input : String
  output : Option String
  key : Option String
  kmsType : Option String
  keyAlias : Option String
  algorithm : Option String
  saltLength : Option Nat
deriving DecidableEq, Repr

/-- The name of a key to sign with: the path of a private key, or a service and an alias. -/
inductive SigningKeyName
  | file (path : String)
  | remote (kmsType keyAlias : String)
deriving DecidableEq, Repr

namespace SignFlags

/-- The key that flags and settings name. -/
def keyName (flags : SignFlags) (settings : SigningSettings) :
    Except InputFault SigningKeyName :=
  match flags.key with
  | some path => .ok (.file path)
  | none =>
    let remoteFlag := flags.kmsType.isSome || flags.keyAlias.isSome
    match settings.key, remoteFlag with
    | some path, false => .ok (.file path)
    | _, _ =>
      match flags.kmsType.or settings.kmsType, flags.keyAlias.or settings.keyAlias with
      | some kmsType, some keyAlias => .ok (.remote kmsType keyAlias)
      | some _, none => .error .missingAlias
      | none, some _ => .error .missingKmsType
      | none, none => .error .missingKey

/-- The algorithm that flags and settings name. -/
def algorithmName? (flags : SignFlags) (settings : SigningSettings) : Option String :=
  flags.algorithm.or settings.algorithm

/-- The parameters that the flags give. -/
def parameters (flags : SignFlags) : Option SignatureAlgorithm.Parameters :=
  flags.saltLength.map fun n => ⟨n⟩

/-- The path that the signature is written to. -/
def outputPath (flags : SignFlags) : String := flags.output.getD (flags.input ++ ".sig")

end SignFlags

variable {m : Type → Type} [Monad m] [Host m]

open Host

/-- The key of a name, and the algorithm to use it with. A private key has a default algorithm,
and a remote key may do without any. -/
def openSigningKey (name : SigningKeyName) (algorithm : Option String) :
    CommandM m (KeySource × String) := do
  match name with
  | .file path =>
    require path
    let (key, _) ← loadKey path
    say ("  Private key: " ++ path ++ " (" ++ key.keyType.name ++ ")")
    pure (.inMemory key, algorithm.getD (SignatureAlgorithm.preferred key.keyType).name)
  | .remote kmsType keyAlias =>
    say ("  KMS key: " ++ keyAlias ++ " (" ++ kmsType ++ ")")
    pure (.remote ⟨kmsType⟩ keyAlias, algorithm.getD "")

/-- What is reported of a signature. -/
def signatureLines (backend : Backend) (algorithm : String) (signature : Octets) : List String :=
  ["", "Signature:", "  Backend: " ++ backend.name] ++
  (if algorithm = "" then [] else ["  Algorithm: " ++ algorithm]) ++
  ["  Length: " ++ signature.length.repr ++ " bytes",
    "  Prefix: " ++ Hex.encode (signature.take 16)]

/-- Signs a file and writes the signature; the result is the path that it is written to. -/
def signFile (draw : Entropy) (registry : Registry) (settings : Settings) (flags : SignFlags) :
    CommandM m String := do
  say ("Signing file: " ++ flags.input)
  require flags.input
  let data ← readFile flags.input
  say ("  File size: " ++ data.length.repr ++ " bytes")
  match flags.keyName settings.signing with
  | .error fault => throw (.invalidInput fault)
  | .ok name =>
    let (source, algorithm) ← openSigningKey name (flags.algorithmName? settings.signing)
    let signer ←
      orFail (← ExceptT.lift (adopt (registry.resolve source algorithm flags.parameters)))
    say "Signing..."
    let signature ← orFail (← ExceptT.lift (converse (signer.sign draw data)))
    writeFile flags.outputPath signature
    (signatureLines signer.backend algorithm signature).forM say
    pure flags.outputPath

/-- Signs a file, and says where the signature is. -/
def Command.sign (draw : Entropy) (registry : Registry) (settings : Settings)
    (flags : SignFlags) : CommandM m Unit := do
  let output ← signFile draw registry settings flags
  say ("✓ Signature written to: " ++ output)

end KeyCustody
