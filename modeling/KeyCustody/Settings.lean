import KeyCustody.Command.Failure
import KeyCustody.Settings.Layer
import KeyCustody.Toml.Document

/-!
# Settings

Settings stand in three sections, all of them are texts, and each may be absent. They come from a
document and from the environment, which is on top of it. What names no setting is ignored, and a
setting that is no text is refused. A section may also be given as a list, which holds its
settings in their order.

## Main definitions

* `Settings` — the settings
* `Settings.ofFields` — the settings that named values give
* `Settings.ofLayers` — the settings of a document and an environment
-/

namespace KeyCustody

/-- What to sign with by default. -/
structure SigningSettings where
  algorithm : Option String
  /-- The path of a private key. -/
  key : Option String
  kmsType : Option String
  keyAlias : Option String
deriving DecidableEq, Repr

/-- How to reach AWS KMS. -/
structure AwsSettings where
  region : Option String
  endpointUrl : Option String
deriving DecidableEq, Repr

/-- How to reach Cloud KMS. -/
structure GcpSettings where
  endpoint : Option String
  accessToken : Option String
deriving DecidableEq, Repr

/-- The settings. -/
structure Settings where
  signing : SigningSettings
  aws : AwsSettings
  gcp : GcpSettings
deriving DecidableEq, Repr

namespace Settings

/-- The settings without any. -/
def default : Settings := ⟨⟨none, none, none, none⟩, ⟨none, none⟩, ⟨none, none⟩⟩

/-- The section of a name. A moment is a section without settings. -/
def sectionOf (name : String) (fields : ConfigValue.Fields) : Except ConfigFault ConfigValue :=
  match fields.lookup name with
  | none | some (.moment _) => .ok (.level [])
  | some (.level settings) => .ok (.level settings)
  | some (.list settings) => .ok (.list settings)
  | some _ => .error (.sectionType name)

/-- The value of a setting in a section, by name or by its position. -/
def valueOf (part : ConfigValue) (position : Nat) (name : String) : Option ConfigValue :=
  match part with
  | .level settings => List.lookup name settings
  | .list settings => settings[position]?
  | _ => none

/-- The text of a setting in a section. -/
def textOf (part : ConfigValue) (position : Nat) (name : String) :
    Except ConfigFault (Option String) :=
  match valueOf part position name with
  | none => .ok none
  | some (.text s) => .ok (some s)
  | some _ => .error (.settingType name)

/-- The settings that named values give. -/
def ofFields (fields : ConfigValue.Fields) : Except ConfigFault Settings := do
  let signing ← sectionOf "signing" fields
  let aws ← sectionOf "aws" fields
  let gcp ← sectionOf "gcp" fields
  pure {
    signing := {
      algorithm := ← textOf signing 0 "algorithm"
      key := ← textOf signing 1 "key"
      kmsType := ← textOf signing 2 "kms_type"
      keyAlias := ← textOf signing 3 "key_alias" }
    aws := {
      region := ← textOf aws 0 "region"
      endpointUrl := ← textOf aws 1 "endpoint_url" }
    gcp := {
      endpoint := ← textOf gcp 0 "endpoint"
      accessToken := ← textOf gcp 1 "access_token" } }

/-- The named values of a document, given by its octets. -/
def fieldsOfDocument (document : Octets) : Except ConfigFault ConfigValue.Fields :=
  match Octets.toText? document with
  | none => .error .notText
  | some s =>
    match Toml.parse s with
    | none => .error .malformed
    | some fields => .ok fields

/-- The settings of a document, if there is one, and the variables of an environment. -/
def ofLayers (document : Option Octets) (environment : List (String × String)) :
    Except ConfigFault Settings := do
  let fields ← match document with
    | none => pure []
    | some b => fieldsOfDocument b
  ofFields (ConfigValue.overFields fields (ConfigValue.ofEnvironment environment))

end Settings

end KeyCustody
