import KeyCustody.KeyError

/-!
# Failures of commands

A command fails because of a file, a key, a primitive, the settings, or what it was asked to do.
Each failure is kept as its cause, and the wording is fixed in one place.

## Main definitions

* `ConfigFault`, `InputFault` — what is wrong with the settings, and with a request
* `CommandError`, `CommandError.message` — why a command fails, and the wording
-/

namespace KeyCustody

/-- What is wrong with the settings. -/
inductive ConfigFault
  /-- The settings file is not read. -/
  | unreadable (fault : IoFault)
  /-- The settings file is no text. -/
  | notText
  /-- The settings file is no document. -/
  | malformed
  /-- A section has a value that is no section. -/
  | sectionType (name : String)
  /-- A setting has a value that is no text. -/
  | settingType (name : String)
deriving DecidableEq, Repr

/-- The wording. -/
def ConfigFault.text : ConfigFault → String
  | unreadable fault => fault.text
  | notText => "not a UTF-8 text"
  | malformed => "not a TOML document"
  | sectionType name => "invalid type for section " ++ name
  | settingType name => "invalid type for setting " ++ name

/-- What is wrong with a request. -/
inductive InputFault
  /-- A service is named, but no key of it. -/
  | missingAlias
  /-- A remote key is named, but no service. -/
  | missingKmsType
  /-- No key to sign with is named. -/
  | missingKey
  /-- The wrapping key begins like an armored document but is no text. -/
  | wrappingKeyNotText
  /-- The wrapping key is a private key. -/
  | privateWrappingKey
deriving DecidableEq, Repr

/-- The wording. -/
def InputFault.text : InputFault → String
  | missingAlias => "--kms-type needs a --key-alias"
  | missingKmsType => "--key-alias needs a --kms-type"
  | missingKey => "no signing key: pass --key, or --kms-type with --key-alias"
  | wrappingKeyNotText => "wrapping key PEM is not UTF-8"
  | privateWrappingKey => "wrapping key must be a public key"

/-- Why a command fails. -/
inductive CommandError
  | io (fault : IoFault)
  | key (error : KeyError)
  | crypto (error : CryptoError)
  | config (fault : ConfigFault)
  | invalidInput (fault : InputFault)
  /-- A file that was named is not there. -/
  | fileNotFound (path : String)
deriving DecidableEq, Repr

/-- The wording. -/
def CommandError.message : CommandError → String
  | io fault => "IO error: " ++ fault.text
  | key error => "Key error: " ++ error.message
  | crypto error => "Crypto error: " ++ error.message
  | config fault => "Config error: " ++ fault.text
  | invalidInput fault => "Invalid input: " ++ fault.text
  | fileNotFound path => "File not found: " ++ path

end KeyCustody
