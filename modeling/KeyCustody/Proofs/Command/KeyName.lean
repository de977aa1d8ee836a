import KeyCustody.Command.Sign
import KeyCustody.Proofs.Settings

/-!
# The key that the settings name

Without flags for a key, the private key of the settings goes before their remote key, wherever each
of them comes from. So a private key in the environment is used whatever the file says, but a remote
key in the environment is used only if the file has no private key. It is otherwise with flags: a
remote key that they name goes before any key of the settings.

## Main results

* `SignFlags.keyName_of_flags` — the key that is used if flags name a remote one
* `SignFlags.keyName_of_environment` — the key that is used if the environment names one
-/

namespace KeyCustody

variable {config : Option String} {environment : List (String × String)} {settings : Settings}
  {flags : SignFlags} {s s' : Scene}

namespace SignFlags

/-- Flags that name a remote key in full leave no choice to the settings. -/
theorem keyName_of_flags {kmsType keyAlias : String} (hkey : flags.key = none)
    (htype : flags.kmsType = some kmsType) (halias : flags.keyAlias = some keyAlias)
    (settings : SigningSettings) : flags.keyName settings = .ok (.remote kmsType keyAlias) := by
  rw [keyName, hkey, htype, halias]
  cases settings.key <;> rfl

section Settings

variable (hkey : flags.key = none) (htype : flags.kmsType = none) (halias : flags.keyAlias = none)

include hkey htype halias

theorem keyName_of_key {path : String} (h : settings.get .key = some path) :
    flags.keyName settings.signing = .ok (.file path) := by
  have hsettings : settings.signing.key = some path := h
  rw [keyName, hkey, htype, halias, hsettings]
  rfl

theorem keyName_of_remote {kmsType keyAlias : String} (h : settings.get .key = none)
    (hkmsType : settings.get .kmsType = some kmsType)
    (hkeyAlias : settings.get .keyAlias = some keyAlias) :
    flags.keyName settings.signing = .ok (.remote kmsType keyAlias) := by
  have hkey' : settings.signing.key = none := h
  have hkmsType' : settings.signing.kmsType = some kmsType := hkmsType
  have hkeyAlias' : settings.signing.keyAlias = some keyAlias := hkeyAlias
  rw [keyName, hkey, htype, halias, hkey', hkmsType', hkeyAlias']
  rfl

/-- A private key in the environment goes before all that the file says. A remote key in the
environment goes before what the file says of a remote key, but not before its private key. -/
theorem keyName_of_environment
    (hload : (loadSettings config environment : CommandM Rehearsal Settings) s = (.ok settings, s'))
    (hdirect : ∀ σ : Setting, σ.part = "signing" → Variable.IsDirect σ.part σ.name environment) :
    (∀ path, Setting.key.written? environment = some path → Variable.IsLiteral path →
      flags.keyName settings.signing = .ok (.file path)) ∧
    ∀ kmsType keyAlias, Setting.key.written? environment = none →
      Setting.kmsType.written? environment = some kmsType → Variable.IsLiteral kmsType →
      Setting.keyAlias.written? environment = some keyAlias → Variable.IsLiteral keyAlias →
      ∃ fields, s.files.configFields config = .ok fields ∧
        ((ConfigValue.fieldsOf (fields.lookup "signing")).lookup "key" = none →
          flags.keyName settings.signing = .ok (.remote kmsType keyAlias)) ∧
        ∀ v, (ConfigValue.fieldsOf (fields.lookup "signing")).lookup "key" = some v →
          ∃ path, v = .text path ∧ flags.keyName settings.signing = .ok (.file path) := by
  rw [Rehearsal.loadSettings_apply, Prod.mk.injEq] at hload
  obtain ⟨fields, hfields, hmapped⟩ := Outcome.bind_eq_ok_iff.mp hload.1
  have hmerged := Outcome.mapError_eq_ok_iff.mp hmapped
  have hget {σ : Setting} {v : String} (hpart : σ.part = "signing")
      (hwritten : σ.written? environment = some v) (hliteral : Variable.IsLiteral v) :
      settings.get σ = some v := by
    obtain ⟨t, ht, hget⟩ := Setting.get_of_written (hdirect σ hpart) hmerged hwritten
    rw [Variable.value_eq_text_self_iff.mpr hliteral] at ht
    rw [hget, ConfigValue.text.inj ht]
  refine ⟨fun path hwritten hliteral => keyName_of_key hkey htype halias
    (hget rfl hwritten hliteral), ?_⟩
  intro kmsType keyAlias hnone hkmsType hkmsTypeLiteral hkeyAlias hkeyAliasLiteral
  have hread := Setting.ofFields_eq_ok_iff.mp hmerged .key
  -- The remote key leads into the section, so of the file only a level counts.
  rw [Setting.read_overFields_of_leadsInto (hdirect .key rfl) hnone
    (Variable.leadsInto_of_last? hkmsType)] at hread
  refine ⟨fields, hfields, fun hfile => ?_, fun v hfile => ?_⟩
  · refine keyName_of_remote hkey htype halias ?_ (hget rfl hkmsType hkmsTypeLiteral)
      (hget rfl hkeyAlias hkeyAliasLiteral)
    rw [Settings.textOf, Settings.valueOf, Setting.part, Setting.name, hfile] at hread
    exact (Except.ok.inj hread).symm
  · have hvalue : Settings.valueOf (.level (ConfigValue.fieldsOf
        (fields.lookup Setting.key.part))) Setting.key.position Setting.key.name = some v := hfile
    rw [Setting.textOf_eq hvalue] at hread
    cases htext : v.text? with
    | none =>
      rw [htext] at hread
      cases hread
    | some path =>
      rw [htext] at hread
      exact ⟨path, ConfigValue.text?_eq_some_iff.mp htext,
        keyName_of_key hkey htype halias (Except.ok.inj hread).symm⟩

end Settings

/-- What the settings are if nothing but one document is there. -/
theorem loadSettings_document {document : String} {fields : ConfigValue.Fields}
    (hparse : Toml.parse document = some fields) (environment : List (String × String)) :
    let s := Scene.start ⟨[(["kmsign.toml"], .file (Octets.ofText document))]⟩
      fun _ => ⟨.ok (), fun _ => .ok [], none⟩
    s.files.configFields (some "kmsign.toml") = .ok fields ∧
      (loadSettings (some "kmsign.toml") environment : CommandM Rehearsal Settings) s =
        ((Settings.ofFields (ConfigValue.overFields fields
          (ConfigValue.ofEnvironment environment))).mapError .config, s) := by
  intro s
  have hread : s.files.read "kmsign.toml" = .ok (Octets.ofText document) :=
    FileTree.read_eq_ok_iff.mpr ⟨["kmsign.toml"], rfl, rfl⟩
  have hfields := FileTree.configFields_of_read hread hparse
  exact ⟨hfields, Rehearsal.loadSettings_of_fields hfields environment⟩

theorem parse_key : Toml.parse "[signing]\nkey = \"old.pem\"\n" =
    some [("signing", .level [("key", .text "old.pem")])] := by
  cbv

/-- A remote key in the environment, over a file with a private key and over one without, and a
private key in the environment. -/
theorem keyName_of_environment_file :
    let load (document : String) (environment : List (String × String)) :
        Except CommandError Settings :=
      ((loadSettings (some "kmsign.toml") environment : CommandM Rehearsal Settings)
        (Scene.start ⟨[(["kmsign.toml"], .file (Octets.ofText document))]⟩
          fun _ => ⟨.ok (), fun _ => .ok [], none⟩)).1
    let flags : SignFlags := ⟨"in", none, none, none, none, none, none⟩
    let remote := [("KMSIGN_SIGNING__KMS_TYPE", "AWS"), ("KMSIGN_SIGNING__KEY_ALIAS", "release")]
    let local_ := [("KMSIGN_SIGNING__KEY", "ed.pem")]
    let without := "[signing]\nkms_type = \"GCP\"\n"
    (∃ settings, load "[signing]\nkey = \"old.pem\"\n" remote = .ok settings ∧
      flags.keyName settings.signing = .ok (.file "old.pem")) ∧
    (∃ settings, load without remote = .ok settings ∧
      flags.keyName settings.signing = .ok (.remote "AWS" "release")) ∧
    ∃ settings, load without local_ = .ok settings ∧
      flags.keyName settings.signing = .ok (.file "ed.pem") := by
  intro load flags remote local_ without
  have hremote : ∀ σ : Setting, σ.part = "signing" → Variable.IsDirect σ.part σ.name remote := by
    intro σ _
    cases σ <;> decide
  have hlocal : ∀ σ : Setting, σ.part = "signing" → Variable.IsDirect σ.part σ.name local_ := by
    intro σ _
    cases σ <;> decide
  have haws : Variable.IsLiteral "AWS" := Variable.value_eq_text_self_iff.mp rfl
  have hrelease : Variable.IsLiteral "release" := Variable.value_eq_text_self_iff.mp rfl
  have hpem : Variable.IsLiteral "ed.pem" := Variable.value_eq_text_self_iff.mp rfl
  have hwithout : Toml.parse without = some [("signing", .level [("kms_type", .text "GCP")])] := by
    simp only [without]
    cbv
  refine ⟨?_, ?_, ?_⟩
  · obtain ⟨hold, hrun⟩ := loadSettings_document parse_key remote
    have hsettings : Settings.ofFields (ConfigValue.overFields
        [("signing", .level [("key", .text "old.pem")])] (ConfigValue.ofEnvironment remote)) =
        .ok ⟨⟨none, some "old.pem", some "AWS", some "release"⟩, ⟨none, none⟩, ⟨none, none⟩⟩ := by
      simp only [remote]
      cbv
    rw [hsettings] at hrun
    obtain ⟨-, hchoice⟩ := keyName_of_environment (show flags.key = none from rfl) rfl rfl
      hrun hremote
    obtain ⟨fields, hfields, -, hfile⟩ := hchoice "AWS" "release" rfl rfl haws rfl hrelease
    obtain rfl := Except.ok.inj (hold.symm.trans hfields)
    obtain ⟨path, ⟨⟩, hname⟩ := hfile (.text "old.pem") rfl
    exact ⟨_, congrArg Prod.fst hrun, hname⟩
  · obtain ⟨hold, hrun⟩ := loadSettings_document hwithout remote
    have hsettings : Settings.ofFields (ConfigValue.overFields
        [("signing", .level [("kms_type", .text "GCP")])] (ConfigValue.ofEnvironment remote)) =
        .ok ⟨⟨none, none, some "AWS", some "release"⟩, ⟨none, none⟩, ⟨none, none⟩⟩ := by
      simp only [remote]
      cbv
    rw [hsettings] at hrun
    obtain ⟨-, hchoice⟩ := keyName_of_environment (show flags.key = none from rfl) rfl rfl
      hrun hremote
    obtain ⟨fields, hfields, hnone, -⟩ := hchoice "AWS" "release" rfl rfl haws rfl hrelease
    obtain rfl := Except.ok.inj (hold.symm.trans hfields)
    exact ⟨_, congrArg Prod.fst hrun, hnone rfl⟩
  · obtain ⟨-, hrun⟩ := loadSettings_document hwithout local_
    have hsettings : Settings.ofFields (ConfigValue.overFields
        [("signing", .level [("kms_type", .text "GCP")])] (ConfigValue.ofEnvironment local_)) =
        .ok ⟨⟨none, some "ed.pem", some "GCP", none⟩, ⟨none, none⟩, ⟨none, none⟩⟩ := by
      simp only [local_]
      cbv
    rw [hsettings] at hrun
    obtain ⟨hchoice, -⟩ := keyName_of_environment (show flags.key = none from rfl) rfl rfl
      hrun hlocal
    exact ⟨_, congrArg Prod.fst hrun, hchoice "ed.pem" rfl hpem⟩

/-- A remote key that the environment names in full is not used if the file names a private key,
though the same key is used if flags name it. -/
theorem environment_not_above_file :
    let load (environment : List (String × String)) : Except CommandError Settings :=
      ((loadSettings (some "kmsign.toml") environment : CommandM Rehearsal Settings)
        (Scene.start ⟨[(["kmsign.toml"], .file (Octets.ofText
          "[signing]\nkey = \"old.pem\"\n"))]⟩ fun _ => ⟨.ok (), fun _ => .ok [], none⟩)).1
    let keyName (flags : SignFlags) (environment : List (String × String)) :
        Except CommandError (Except InputFault SigningKeyName) :=
      (load environment).map fun settings => flags.keyName settings.signing
    keyName ⟨"in", none, none, none, none, none, none⟩
        [("KMSIGN_SIGNING__KMS_TYPE", "AWS"), ("KMSIGN_SIGNING__KEY_ALIAS", "release")] =
      .ok (.ok (.file "old.pem")) ∧
    keyName ⟨"in", none, none, some "AWS", some "release", none, none⟩ [] =
      .ok (.ok (.remote "AWS" "release")) := by
  intro load keyName
  have hload (environment : List (String × String)) : load environment =
      (Settings.ofFields (ConfigValue.overFields [("signing", .level [("key", .text "old.pem")])]
        (ConfigValue.ofEnvironment environment))).mapError .config :=
    congrArg Prod.fst (loadSettings_document parse_key environment).2
  simp only [keyName, hload]
  constructor <;> cbv

end SignFlags

end KeyCustody
