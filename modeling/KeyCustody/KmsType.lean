import KeyCustody.Text.JsonString
import KeyCustody.Text.Quoted

/-!
# Key management services

A service is known by its name. The set of names is open: an engine may be registered for any
of them, and some are well known.

## Main definitions

* `KmsType` — the name of a service
* `KmsType.aws`, `KmsType.gcp`, `KmsType.none` — the well-known names
-/

namespace KeyCustody

/-- The name of a key management service. -/
structure KmsType where
  name : String
deriving DecidableEq, Repr

namespace KmsType

/-- The service of Amazon Web Services. -/
def aws : KmsType := ⟨"AWS"⟩

/-- The service of Google Cloud. -/
def gcp : KmsType := ⟨"GCP"⟩

/-- A name with no engine behind it. -/
def none : KmsType := ⟨"NONE"⟩

/-- The description of a name. -/
def text (t : KmsType) : String := "KmsType(" ++ Quoted.encode t.name ++ ")"

/-- The name as it is stored: a string in JSON. -/
def serialized (t : KmsType) : String := JsonString.encode t.name

/-- The order of names: that of their UTF-8 octets, which is the order of their code points. -/
def compare (s t : KmsType) : Ordering :=
  if s.name < t.name then .lt else if s.name = t.name then .eq else .gt

end KmsType

end KeyCustody
