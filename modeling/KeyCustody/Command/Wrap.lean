import KeyCustody.Command.Host
import KeyCustody.Import

/-!
# Wrapping a key file

A private key is wrapped for import under the public key of a service, and the package is
written next to it unless another place is given. The wrapping key may be an encoded document or
an armored one. A private key in armor is told apart from a public one before it is read.

## Main definitions

* `WrapFlags` — what the flags say
* `wrappingDocument`, `loadWrappingKey` — the public-key document in a file
* `wrapFile`, `Command.wrap` — wrapping, and wrapping with a word at the end
-/

namespace KeyCustody

/-- What the flags of a wrapping command say. -/
structure WrapFlags where
  key : String
  wrappingKey : String
  output : Option String
  base64 : Bool
deriving DecidableEq, Repr

/-- The path that the package is written to. -/
def WrapFlags.outputPath (flags : WrapFlags) : String :=
  flags.output.getD <| Path.withFileName flags.key
    (Path.stem flags.key ++ ".wrapped." ++ if flags.base64 then "b64" else "bin")

/-- The text that marks a private key in armor. -/
def privateKeyMark : Octets := Octets.ofText "PRIVATE KEY"

/-- The public-key document in the content of a file. What is not armored is taken as it is. -/
def wrappingDocument (content : Octets) : Except CommandError Octets :=
  if Pem.isArmored content then
    match Octets.toText? content with
    | none => .error (.invalidInput .wrappingKeyNotText)
    | some _ =>
      if privateKeyMark.occursIn content then .error (.invalidInput .privateWrappingKey)
      else
        match Rsa.PublicKey.ofArmored? content with
        | some key => .ok key.encode
        | none => .error (.crypto .publicDocument)
  else .ok content

variable {m : Type → Type} [Monad m] [Host m]

open Host

/-- The public-key document in a file. -/
def loadWrappingKey (path : String) : CommandM m Octets := do
  require path
  match wrappingDocument (← readFile path) with
  | .ok document => pure document
  | .error e => throw e

/-- What is reported of a package. -/
def packageLines (p : Package) (base64 : Bool) : List String := [
  "", "Wrapped key package:",
  "  Total length: " ++ p.octets.length.repr ++ " bytes",
  "  Wrapped ephemeral key: " ++ p.ephemeralSegment.length.repr ++ " bytes",
  "  Wrapped private key: " ++ p.keySegment.length.repr ++ " bytes",
  "  Encoding: " ++ if base64 then "base64" else "binary"]

/-- Wraps a key file and writes the package; the result is the path that it is written to. -/
def wrapFile (secrets : PackageSecrets) (flags : WrapFlags) : CommandM m String := do
  say ("Wrapping key: " ++ flags.key)
  require flags.key
  let (key, _) ← loadKey flags.key
  let wrappingKey ← loadWrappingKey flags.wrappingKey
  say ("  Key type: " ++ key.keyType.name)
  say ("  Wrapping key: " ++ flags.wrappingKey)
  let package ← orFail (prepareImport secrets key wrappingKey)
  writeFile flags.outputPath (if flags.base64 then package.base64 else package.octets)
  (packageLines package flags.base64).forM say
  pure flags.outputPath

/-- Wraps a key file, and says where the package is. -/
def Command.wrap (secrets : PackageSecrets) (flags : WrapFlags) : CommandM m Unit := do
  let output ← wrapFile secrets flags
  say ("✓ Wrapped key written to: " ++ output)

end KeyCustody
