import KeyCustody.Command.Program
import KeyCustody.Proofs.Host
import KeyCustody.Proofs.Settings.Layer
import KeyCustody.Proofs.Settings.Variable
import KeyCustody.Proofs.Text.Utf8
import Mathlib

/-!
# Settings from a file and an environment

Each setting is read by itself, from its section. A variable for a setting goes before what the file
says about it, and is refused if it does not say a text. Any text can be said by some variable, and
those that stand for themselves are said as they are. What no variable says is as the file says it,
except where the file gives a section as a list: a list and a level are not joined.

## Main definitions

* `Setting`, `Settings.get` — the settings, and their values
* `Setting.read`, `Setting.written?` — what named values and an environment say about a setting
* `FileTree.configFields` — the named values of a settings file
* `Setting.IsDisplaced` — settings in a list that the environment hides

## Main results

* `Setting.read_overFields`, `Setting.read_overFields_of_none` — settings in two layers
* `Rehearsal.loadSettings_of_environment` — the settings of a file and an environment
-/

namespace KeyCustody

/-- One of the settings. -/
inductive Setting
  | algorithm
  | key
  | kmsType
  | keyAlias
  | region
  | endpointUrl
  | endpoint
  | accessToken
deriving DecidableEq, Repr

/-- The value of a setting. -/
def Settings.get (s : Settings) : Setting → Option String
  | .algorithm => s.signing.algorithm
  | .key => s.signing.key
  | .kmsType => s.signing.kmsType
  | .keyAlias => s.signing.keyAlias
  | .region => s.aws.region
  | .endpointUrl => s.aws.endpointUrl
  | .endpoint => s.gcp.endpoint
  | .accessToken => s.gcp.accessToken

namespace Setting

variable {σ : Setting} {fields : ConfigValue.Fields} {environment : List (String × String)}
  {settings : Settings} {value : Option String}

/-- The section that a setting stands in. -/
def part : Setting → String
  | algorithm | key | kmsType | keyAlias => "signing"
  | region | endpointUrl => "aws"
  | endpoint | accessToken => "gcp"

/-- What a setting is called in its section. -/
def name : Setting → String
  | algorithm => "algorithm"
  | key => "key"
  | kmsType => "kms_type"
  | keyAlias => "key_alias"
  | region => "region"
  | endpointUrl => "endpoint_url"
  | endpoint => "endpoint"
  | accessToken => "access_token"

/-- Where a setting stands in a list of its section. -/
def position : Setting → Nat
  | algorithm | region | endpoint => 0
  | key | endpointUrl | accessToken => 1
  | kmsType => 2
  | keyAlias => 3

/-- What named values say about a setting. -/
def read (σ : Setting) (fields : ConfigValue.Fields) : Except ConfigFault (Option String) := do
  let part ← Settings.sectionOf σ.part fields
  Settings.textOf part σ.position σ.name

/-- What the last variable for a setting says. -/
def written? (σ : Setting) (environment : List (String × String)) : Option String :=
  Variable.last? [σ.part, σ.name] environment

/-! ## One by one -/

/-- Settings are given by named values exactly if each of them is. -/
theorem ofFields_eq_ok_iff : Settings.ofFields fields = .ok settings ↔
    ∀ σ : Setting, σ.read fields = .ok (settings.get σ) := by
  constructor
  · intro h σ
    simp only [Settings.ofFields, Outcome.bind_eq_ok_iff] at h
    obtain ⟨signing, hsigning, aws, haws, gcp, hgcp, algorithm, halgorithm, key, hkey, kmsType,
      hkmsType, keyAlias, hkeyAlias, region, hregion, endpointUrl, hendpointUrl, endpoint,
      hendpoint, accessToken, haccessToken, ⟨⟩⟩ := h
    refine Outcome.bind_eq_ok_iff.mpr ?_
    cases σ with
    | algorithm => exact ⟨signing, hsigning, halgorithm⟩
    | key => exact ⟨signing, hsigning, hkey⟩
    | kmsType => exact ⟨signing, hsigning, hkmsType⟩
    | keyAlias => exact ⟨signing, hsigning, hkeyAlias⟩
    | region => exact ⟨aws, haws, hregion⟩
    | endpointUrl => exact ⟨aws, haws, hendpointUrl⟩
    | endpoint => exact ⟨gcp, hgcp, hendpoint⟩
    | accessToken => exact ⟨gcp, hgcp, haccessToken⟩
  · intro h
    obtain ⟨signing, hsigning, halgorithm⟩ := Outcome.bind_eq_ok_iff.mp (h algorithm)
    obtain ⟨aws, haws, hregion⟩ := Outcome.bind_eq_ok_iff.mp (h region)
    obtain ⟨gcp, hgcp, hendpoint⟩ := Outcome.bind_eq_ok_iff.mp (h endpoint)
    -- Each section is found once, whichever of its settings is asked for.
    have htext : ∀ {σ : Setting} {part : ConfigValue},
        Settings.sectionOf σ.part fields = .ok part →
          Settings.textOf part σ.position σ.name = .ok (settings.get σ) := by
      intro σ part hpart
      obtain ⟨_, hpart', htext⟩ := Outcome.bind_eq_ok_iff.mp (h σ)
      rwa [← Except.ok.inj (hpart.symm.trans hpart')] at htext
    simp only [Settings.ofFields, Outcome.bind_eq_ok_iff]
    exact ⟨signing, hsigning, aws, haws, gcp, hgcp, _, halgorithm,
      _, htext (σ := key) hsigning, _, htext (σ := kmsType) hsigning,
      _, htext (σ := keyAlias) hsigning, _, hregion, _, htext (σ := endpointUrl) haws,
      _, hendpoint, _, htext (σ := accessToken) hgcp, rfl⟩

/-- What is wrong with the settings is wrong with one of them. -/
theorem exists_read_eq_error {fault : ConfigFault} (h : Settings.ofFields fields = .error fault) :
    ∃ σ : Setting, σ.read fields = .error fault := by
  simp only [Settings.ofFields, read, Outcome.bind_eq_error_iff] at h ⊢
  rcases h with h | ⟨signing, hsigning, h | ⟨aws, haws, h | ⟨gcp, hgcp, h⟩⟩⟩
  · exact ⟨algorithm, .inl h⟩
  · exact ⟨region, .inl h⟩
  · exact ⟨endpoint, .inl h⟩
  rcases h with h | ⟨_, -, h | ⟨_, -, h | ⟨_, -, h | ⟨_, -, h | ⟨_, -, h | ⟨_, -, h | ⟨_, -, h |
    ⟨_, -, ⟨⟩⟩⟩⟩⟩⟩⟩⟩⟩
  · exact ⟨algorithm, .inr ⟨signing, hsigning, h⟩⟩
  · exact ⟨key, .inr ⟨signing, hsigning, h⟩⟩
  · exact ⟨kmsType, .inr ⟨signing, hsigning, h⟩⟩
  · exact ⟨keyAlias, .inr ⟨signing, hsigning, h⟩⟩
  · exact ⟨region, .inr ⟨aws, haws, h⟩⟩
  · exact ⟨endpointUrl, .inr ⟨aws, haws, h⟩⟩
  · exact ⟨endpoint, .inr ⟨gcp, hgcp, h⟩⟩
  · exact ⟨accessToken, .inr ⟨gcp, hgcp, h⟩⟩

/-! ## Two layers -/

theorem textOf_eq {part v : ConfigValue} (h : Settings.valueOf part σ.position σ.name = some v) :
    Settings.textOf part σ.position σ.name =
      v.text?.elim (.error (.settingType σ.name)) fun t => .ok (some t) := by
  rw [Settings.textOf, h]
  cases v <;> rfl

/-- A section that the environment leads into is a level, joined with that of the section below. -/
theorem read_overFields_of_level {upper : ConfigValue.Fields}
    (h : (ConfigValue.ofEnvironment environment).lookup σ.part = some (.level upper))
    (fields : ConfigValue.Fields) :
    σ.read (ConfigValue.overFields fields (ConfigValue.ofEnvironment environment)) =
      Settings.textOf (.level (ConfigValue.overFields
        (ConfigValue.fieldsOf (fields.lookup σ.part)) upper)) σ.position σ.name := by
  have hlookup := ConfigValue.lookup_overFields
    (ConfigValue.isKeyed_ofEnvironment environment) fields σ.part
  rw [h, Option.map_some, ConfigValue.overlay_level, Option.some_or] at hlookup
  rw [read, Settings.sectionOf, hlookup]
  rfl

/-- A variable for a setting goes before everything else that is said about it. -/
theorem read_overFields {v : String} (h : Variable.IsDirect σ.part σ.name environment)
    (hwritten : σ.written? environment = some v) (fields : ConfigValue.Fields) :
    σ.read (ConfigValue.overFields fields (ConfigValue.ofEnvironment environment)) =
      (Variable.value v).text?.elim (.error (.settingType σ.name)) fun t => .ok (some t) := by
  obtain ⟨hlevel, hkeyed, htext⟩ := ConfigValue.lookup_ofEnvironment h
  obtain ⟨upper, hupper⟩ := hlevel (Variable.leadsInto_of_last? hwritten)
  rw [hupper, ConfigValue.fieldsOf_level] at hkeyed htext
  obtain ⟨u, hu, hsame⟩ := Option.map_eq_some_iff.mp
    (htext.trans (congrArg (Option.map _) hwritten))
  have hvalue : Settings.valueOf (.level (ConfigValue.overFields
      (ConfigValue.fieldsOf (fields.lookup σ.part)) upper)) σ.position σ.name =
      some (ConfigValue.overlay
        ((ConfigValue.fieldsOf (fields.lookup σ.part)).lookup σ.name) u) := by
    rw [Settings.valueOf, ConfigValue.lookup_overFields hkeyed, hu, Option.map_some,
      Option.some_or]
  rw [read_overFields_of_level hupper, textOf_eq hvalue, ConfigValue.text?_overlay, hsame]

/-- Without a variable for it a setting is as the level of its section has it, if the environment
leads into the section. -/
theorem read_overFields_of_leadsInto (h : Variable.IsDirect σ.part σ.name environment)
    (hwritten : σ.written? environment = none)
    (hleads : Variable.LeadsInto σ.part environment) (fields : ConfigValue.Fields) :
    σ.read (ConfigValue.overFields fields (ConfigValue.ofEnvironment environment)) =
      Settings.textOf (.level (ConfigValue.fieldsOf (fields.lookup σ.part))) σ.position σ.name := by
  obtain ⟨hlevel, hkeyed, htext⟩ := ConfigValue.lookup_ofEnvironment h
  obtain ⟨upper, hupper⟩ := hlevel hleads
  rw [hupper, ConfigValue.fieldsOf_level] at hkeyed htext
  have hnone : upper.lookup σ.name = none :=
    Option.map_eq_none_iff.mp (htext.trans (congrArg (Option.map _) hwritten))
  rw [read_overFields_of_level hupper, Settings.textOf, Settings.valueOf,
    ConfigValue.lookup_overFields hkeyed, hnone, Option.map_none, Option.none_or, Settings.textOf,
    Settings.valueOf]

/-- The named values give a section as a list, and the environment leads into it. -/
def IsDisplaced (σ : Setting) (fields : ConfigValue.Fields)
    (environment : List (String × String)) : Prop :=
  (∃ l, fields.lookup σ.part = some (.list l)) ∧ Variable.LeadsInto σ.part environment

/-- The settings of a level stay when a level is put on top of it, and those of a list do not. -/
theorem textOf_fieldsOf (hread : σ.read fields = .ok value) :
    (∃ l, fields.lookup σ.part = some (.list l)) ∧
        Settings.textOf (.level (ConfigValue.fieldsOf (fields.lookup σ.part))) σ.position σ.name =
          .ok none ∨
      (∀ l, fields.lookup σ.part ≠ some (.list l)) ∧
        Settings.textOf (.level (ConfigValue.fieldsOf (fields.lookup σ.part))) σ.position σ.name =
          .ok value := by
  rw [read, Settings.sectionOf] at hread
  cases hpart : fields.lookup σ.part with
  | none =>
    rw [hpart] at hread
    exact .inr ⟨nofun, hread⟩
  | some v =>
    rw [hpart] at hread
    cases v with
    | level => exact .inr ⟨nofun, hread⟩
    | moment => exact .inr ⟨nofun, hread⟩
    | list l => exact .inl ⟨⟨l, rfl⟩, rfl⟩
    | text | flag | number => cases hread

/-- Without a variable for it a setting is as it is below, if the layers are joined. -/
theorem read_overFields_of_none (h : Variable.IsDirect σ.part σ.name environment)
    (hwritten : σ.written? environment = none) (hread : σ.read fields = .ok value) :
    (σ.IsDisplaced fields environment →
      σ.read (ConfigValue.overFields fields (ConfigValue.ofEnvironment environment)) = .ok none) ∧
    (¬ σ.IsDisplaced fields environment →
      σ.read (ConfigValue.overFields fields (ConfigValue.ofEnvironment environment)) =
        .ok value) := by
  by_cases hleads : Variable.LeadsInto σ.part environment
  · rw [read_overFields_of_leadsInto h hwritten hleads]
    rcases textOf_fieldsOf hread with ⟨hlist, htext⟩ | ⟨hlist, htext⟩
    · exact ⟨fun _ => htext, fun hdisplaced => absurd ⟨hlist, hleads⟩ hdisplaced⟩
    · exact ⟨fun ⟨⟨l, hl⟩, _⟩ => absurd hl (hlist l), fun _ => htext⟩
  · have hlookup := ConfigValue.lookup_overFields
      (ConfigValue.isKeyed_ofEnvironment environment) fields σ.part
    rw [ConfigValue.lookup_ofEnvironment_eq_none hleads, Option.map_none, Option.none_or]
      at hlookup
    refine ⟨fun hdisplaced => absurd hdisplaced.2 hleads, fun _ => ?_⟩
    rw [← hread, read, read, Settings.sectionOf, Settings.sectionOf, hlookup]

/-! ## All together -/

/-- What a variable says is what the setting is. -/
theorem get_of_written {v : String} (h : Variable.IsDirect σ.part σ.name environment)
    (hmerged : Settings.ofFields (ConfigValue.overFields fields
      (ConfigValue.ofEnvironment environment)) = .ok settings)
    (hwritten : σ.written? environment = some v) :
    ∃ t, Variable.value v = .text t ∧ settings.get σ = some t := by
  have hread := ofFields_eq_ok_iff.mp hmerged σ
  rw [read_overFields h hwritten] at hread
  cases htext : (Variable.value v).text? with
  | none =>
    rw [htext] at hread
    cases hread
  | some t =>
    rw [htext] at hread
    exact ⟨t, ConfigValue.text?_eq_some_iff.mp htext, (Except.ok.inj hread).symm⟩

section Layers

variable {base : Settings} (hbase : Settings.ofFields fields = .ok base)
  (hdirect : ∀ σ : Setting, Variable.IsDirect σ.part σ.name environment)

include hbase hdirect

/-- Only a variable that says something else than a text is refused. -/
theorem error_of_overFields {fault : ConfigFault}
    (h : Settings.ofFields (ConfigValue.overFields fields
      (ConfigValue.ofEnvironment environment)) = .error fault) :
    ∃ (σ : Setting) (v : String), σ.written? environment = some v ∧
      (∀ t, Variable.value v ≠ .text t) ∧ fault = .settingType σ.name := by
  obtain ⟨σ, hread⟩ := exists_read_eq_error h
  cases hwritten : σ.written? environment with
  | none =>
    have hbelow := ofFields_eq_ok_iff.mp hbase σ
    -- Without a variable for it the setting is accepted, whether the layers are joined or not.
    obtain ⟨hdisplaced, hjoined⟩ := read_overFields_of_none (hdirect σ) hwritten hbelow
    by_cases h : σ.IsDisplaced fields environment
    · rw [hdisplaced h] at hread
      cases hread
    · rw [hjoined h] at hread
      cases hread
  | some v =>
    rw [read_overFields (hdirect σ) hwritten] at hread
    cases htext : (Variable.value v).text? with
    | none =>
      rw [htext] at hread
      refine ⟨σ, v, hwritten, fun t ht => ?_, (Except.error.inj hread).symm⟩
      rw [ConfigValue.text?_eq_some_iff.mpr ht] at htext
      cases htext
    | some t =>
      rw [htext] at hread
      cases hread

/-- The settings of two layers. -/
theorem get_of_overFields
    (h : Settings.ofFields (ConfigValue.overFields fields
      (ConfigValue.ofEnvironment environment)) = .ok settings) (σ : Setting) :
    (∀ v, σ.written? environment = some v →
      ∃ t, Variable.value v = .text t ∧ settings.get σ = some t) ∧
    (σ.written? environment = none →
      (σ.IsDisplaced fields environment → settings.get σ = none) ∧
      (¬ σ.IsDisplaced fields environment → settings.get σ = base.get σ)) := by
  refine ⟨fun v => get_of_written (hdirect σ) h, fun hwritten => ?_⟩
  have hread := ofFields_eq_ok_iff.mp h σ
  obtain ⟨hdisplaced, hjoined⟩ := read_overFields_of_none (hdirect σ) hwritten
    (ofFields_eq_ok_iff.mp hbase σ)
  exact ⟨fun h => Except.ok.inj (hread.symm.trans (hdisplaced h)),
    fun h => Except.ok.inj (hread.symm.trans (hjoined h))⟩

end Layers

end Setting

/-! ## Files -/

namespace FileTree

/-- The document that settings are read from, if one is given. A directory is none. -/
def configDocument (t : FileTree) : Option String → Except CommandError (Option Octets)
  | none => .ok none
  | some path => do
    t.require path
    match t.read path with
    | .ok content => .ok (some content)
    | .error .isDirectory => .ok none
    | .error fault => .error (.config (.unreadable fault))

/-- The named values that settings are read from. -/
def configFields (t : FileTree) (config : Option String) :
    Except CommandError ConfigValue.Fields := do
  match ← t.configDocument config with
  | none => .ok []
  | some document => (Settings.fieldsOfDocument document).mapError .config

theorem configFields_of_read {t : FileTree} {path text : String} {fields : ConfigValue.Fields}
    (hread : t.read path = .ok (Octets.ofText text)) (hparse : Toml.parse text = some fields) :
    t.configFields (some path) = .ok fields := by
  have hdocument : t.configDocument (some path) = .ok (some (Octets.ofText text)) := by
    rw [configDocument, require_of_read hread, hread]
    rfl
  have hfields : Settings.fieldsOfDocument (Octets.ofText text) = .ok fields := by
    rw [Settings.fieldsOfDocument, Octets.toText?_eq_some_iff.mpr rfl]
    dsimp only
    rw [hparse]
  rw [configFields, hdocument]
  exact Outcome.mapError_eq_ok_iff.mpr hfields

end FileTree

namespace Rehearsal

variable {config : Option String} {environment : List (String × String)} {base settings : Settings}
  {s s' : Scene} {result : Except CommandError Settings}

/-- Settings, or what is wrong with them, as the end of a command. -/
def orConfigFault (result : Except ConfigFault Settings) : CommandM Rehearsal Settings :=
  match result with
  | .ok settings => pure settings
  | .error fault => throw (.config fault)

theorem orConfigFault_apply (result : Except ConfigFault Settings) (s : Scene) :
    orConfigFault result s = (result.mapError .config, s) := by
  cases result <;> rfl

/-- The settings are those of the document and the environment. -/
theorem loadSettings_eq (config : Option String) (environment : List (String × String))
    (s : Scene) : (loadSettings config environment : CommandM Rehearsal Settings) s =
      (s.files.configDocument config >>= fun document =>
        (Settings.ofLayers document environment).mapError .config, s) := by
  have hlayers (document : Option Octets) :=
    orConfigFault_apply (Settings.ofLayers document environment) s
  cases config with
  | none => exact hlayers none
  | some path =>
    have hrequire := require_apply path s
    have hread : (Host.read path : Rehearsal (Except IoFault Octets)) s =
        (s.files.read path, s) := rfl
    rw [FileTree.configDocument]
    cases hpresent : s.files.require path with
    | error e =>
      rw [hpresent] at hrequire
      exact bind_of_error hrequire
    | ok =>
      rw [hpresent] at hrequire
      refine (bind_of_ok hrequire).trans ((bind_of_ok (lift_apply hread)).trans ?_)
      cases s.files.read path with
      | ok content => exact hlayers (some content)
      | error fault =>
        cases fault with
        | isDirectory => exact hlayers none
        | _ => rfl

/-- The settings are those of the named values of the file with those of the environment on top. -/
theorem loadSettings_apply (config : Option String) (environment : List (String × String))
    (s : Scene) : (loadSettings config environment : CommandM Rehearsal Settings) s =
      (s.files.configFields config >>= fun fields =>
        (Settings.ofFields (ConfigValue.overFields fields
          (ConfigValue.ofEnvironment environment))).mapError .config, s) := by
  rw [loadSettings_eq, FileTree.configFields]
  cases s.files.configDocument config with
  | error e => rfl
  | ok document =>
    cases document with
    | none => rfl
    | some document =>
      exact congrArg (·, s) (Outcome.mapError_bind _ (Settings.fieldsOfDocument document) _)

theorem loadSettings_of_fields {fields : ConfigValue.Fields}
    (h : s.files.configFields config = .ok fields) (environment : List (String × String)) :
    (loadSettings config environment : CommandM Rehearsal Settings) s =
      ((Settings.ofFields (ConfigValue.overFields fields
        (ConfigValue.ofEnvironment environment))).mapError .config, s) := by
  rw [loadSettings_apply, h]
  rfl

/-- What the settings are with nothing in the environment. -/
theorem loadSettings_nil_eq_ok_iff :
    (loadSettings config [] : CommandM Rehearsal Settings) s = (.ok base, s') ↔
      (∃ fields, s.files.configFields config = .ok fields ∧
        Settings.ofFields fields = .ok base) ∧ s = s' := by
  rw [loadSettings_apply, Prod.mk.injEq, Outcome.bind_eq_ok_iff]
  simp only [Outcome.mapError_eq_ok_iff, ConfigValue.ofEnvironment, List.foldl_nil,
    ConfigValue.overFields]

/-- The settings of a file that is accepted by itself, with an environment whose variables say
nothing about settings but their values. They are given exactly if each variable for a setting says
a text, and are refused because of one that does not. A setting with a variable is the text that the
variable says, which is the variable as it is exactly if that is nothing else as a whole; and every
text can be said between quotes. A setting without a variable is as it is without the environment,
unless the file has its section as a list and the environment leads into the section. -/
theorem loadSettings_of_environment
    (hbase : (loadSettings config [] : CommandM Rehearsal Settings) s = (.ok base, s'))
    (hdirect : ∀ σ : Setting, Variable.IsDirect σ.part σ.name environment) :
    ∃ fields result, s.files.configFields config = .ok fields ∧
      (loadSettings config environment : CommandM Rehearsal Settings) s = (result, s) ∧
      ((∃ settings, result = .ok settings) ↔
        ∀ (σ : Setting) (v : String), σ.written? environment = some v →
          ∃ t, Variable.value v = .text t) ∧
      (∀ e, result = .error e → ∃ (σ : Setting) (v : String), σ.written? environment = some v ∧
        (∀ t, Variable.value v ≠ .text t) ∧ e = .config (.settingType σ.name)) ∧
      ∀ settings, result = .ok settings → ∀ σ : Setting,
        (∀ v, σ.written? environment = some v →
          (∃ t, Variable.value v = .text t ∧ settings.get σ = some t) ∧
          (settings.get σ = some v ↔ Variable.IsLiteral v) ∧
          ∀ t, v = Variable.quote t → settings.get σ = some t) ∧
        (σ.written? environment = none →
          (σ.IsDisplaced fields environment → settings.get σ = none) ∧
          (¬ σ.IsDisplaced fields environment → settings.get σ = base.get σ)) := by
  obtain ⟨⟨fields, hfields, hbelow⟩, -⟩ := loadSettings_nil_eq_ok_iff.mp hbase
  refine ⟨fields, _, hfields, loadSettings_of_fields hfields environment, ⟨?_, ?_⟩, ?_, ?_⟩
  · rintro ⟨settings, h⟩ σ v hwritten
    obtain ⟨hset, -⟩ := Setting.get_of_overFields hbelow hdirect (Outcome.mapError_eq_ok_iff.mp h) σ
    obtain ⟨t, ht, -⟩ := hset v hwritten
    exact ⟨t, ht⟩
  · intro htexts
    cases hmerged : Settings.ofFields (ConfigValue.overFields fields
        (ConfigValue.ofEnvironment environment)) with
    | ok settings => exact ⟨settings, rfl⟩
    | error fault =>
      obtain ⟨σ, v, hwritten, hno, -⟩ := Setting.error_of_overFields hbelow hdirect hmerged
      obtain ⟨t, ht⟩ := htexts σ v hwritten
      exact absurd ht (hno t)
  · intro e h
    obtain ⟨fault, hmerged, rfl⟩ := Outcome.mapError_eq_error_iff.mp h
    obtain ⟨σ, v, hwritten, hno, rfl⟩ := Setting.error_of_overFields hbelow hdirect hmerged
    exact ⟨σ, v, hwritten, hno, rfl⟩
  · intro settings h σ
    obtain ⟨hset, hunset⟩ :=
      Setting.get_of_overFields hbelow hdirect (Outcome.mapError_eq_ok_iff.mp h) σ
    refine ⟨fun v hwritten => ?_, hunset⟩
    obtain ⟨t, ht, hget⟩ := hset v hwritten
    refine ⟨⟨t, ht, hget⟩, ?_, ?_⟩
    · rw [hget, ← Variable.value_eq_text_self_iff, ht, Option.some_inj, ConfigValue.text.injEq]
    · rintro t' rfl
      rw [hget, ConfigValue.text.inj (ht.symm.trans (Variable.value_quote t'))]

/-- A variable on top of a file, and one that is refused. -/
theorem loadSettings_of_environment_alias :
    let s := Scene.start ⟨[(["kmsign.toml"], .file (Octets.ofText
      "[signing]\nkey_alias = \"old\"\n[aws]\nregion = \"eu-west-1\"\n"))]⟩
      fun _ => ⟨.ok (), fun _ => .ok [], none⟩
    let load (environment : List (String × String)) :=
      (loadSettings (some "kmsign.toml") environment : CommandM Rehearsal Settings) s
    let named := [("KMSIGN_SIGNING__KEY_ALIAS", "release")]
    let numbered := [("KMSIGN_SIGNING__KEY_ALIAS", "123")]
    (∃ base, load [] = (.ok base, s) ∧
      (∀ σ : Setting, Variable.IsDirect σ.part σ.name named) ∧
      (∀ σ : Setting, Variable.IsDirect σ.part σ.name numbered) ∧
      ∃ settings, load named = (.ok settings, s) ∧ settings.get .keyAlias = some "release" ∧
        settings.get .region = base.get .region) ∧
    ∃ e, load numbered = (.error e, s) := by
  intro s load named numbered
  have hfields : s.files.configFields (some "kmsign.toml") = .ok
      [("signing", .level [("key_alias", .text "old")]),
        ("aws", .level [("region", .text "eu-west-1")])] :=
    FileTree.configFields_of_read
      (FileTree.read_eq_ok_iff.mpr ⟨["kmsign.toml"], by decide, rfl⟩) (by cbv)
  have hbase : load [] = (.ok ⟨⟨none, none, none, some "old"⟩, ⟨some "eu-west-1", none⟩,
      ⟨none, none⟩⟩, s) :=
    loadSettings_nil_eq_ok_iff.mpr ⟨⟨_, hfields, rfl⟩, rfl⟩
  have hnamed : ∀ σ : Setting, Variable.IsDirect σ.part σ.name named := by
    intro σ
    cases σ <;> decide
  have hnumbered : ∀ σ : Setting, Variable.IsDirect σ.part σ.name numbered := by
    intro σ
    cases σ <;> decide
  obtain ⟨fields, result, -, hload, hloads, -, hsettings⟩ :=
    loadSettings_of_environment hbase hnamed
  obtain ⟨settings, rfl⟩ := hloads.mpr fun σ v hwritten => by
    cases σ <;> cases hwritten
    exact ⟨"release", rfl⟩
  obtain ⟨_, result, -, hrefused, hrefuses, -⟩ := loadSettings_of_environment hbase hnumbered
  refine ⟨⟨_, hbase, hnamed, hnumbered, settings, hload, ?_, ?_⟩, ?_⟩
  · obtain ⟨t, ht, hget⟩ := ((hsettings settings rfl .keyAlias).1 "release" rfl).1
    cases ht
    exact hget
  · exact ((hsettings settings rfl .region).2 rfl).2 fun h => absurd h.2 (by decide)
  · cases result with
    | ok refused =>
      obtain ⟨t, ht⟩ := hrefuses.mp ⟨refused, rfl⟩ .keyAlias "123" rfl
      cases ht
    | error e => exact ⟨e, hrefused⟩

/-- Variables are not taken as they are: a number is refused, and white space is lost. A variable
for a section, or for something beneath a setting, is refused, and any variable hides a list. -/
theorem loadSettings_not_verbatim :
    let s := Scene.start ⟨[(["kmsign.toml"], .file (Octets.ofText
      "signing = [\"SHA256withRSA\"]\n"))]⟩ fun _ => ⟨.ok (), fun _ => .ok [], none⟩
    let load (config : Option String) (environment : List (String × String)) :
        Except CommandError Settings :=
      ((loadSettings config environment : CommandM Rehearsal Settings) s).1
    let loaded (config : Option String) (environment : List (String × String)) (σ : Setting) :
        Except CommandError (Option String) :=
      (load config environment).map (Settings.get · σ)
    load none [] = .ok .default ∧
      Setting.keyAlias.written? [("KMSIGN_SIGNING__KEY_ALIAS", "123")] = some "123" ∧
      load none [("KMSIGN_SIGNING__KEY_ALIAS", "123")] =
        .error (.config (.settingType "key_alias")) ∧
      loaded none [("KMSIGN_SIGNING__KEY_ALIAS", " release ")] .keyAlias = .ok (some "release") ∧
      load none [("KMSIGN_SIGNING", "release")] = .error (.config (.sectionType "signing")) ∧
      load none [("KMSIGN_SIGNING__KEY__PATH", "release")] =
        .error (.config (.settingType "key")) ∧
      loaded (some "kmsign.toml") [] .algorithm = .ok (some "SHA256withRSA") ∧
      loaded (some "kmsign.toml") [("KMSIGN_SIGNING__KEY", "ed.pem")] .algorithm = .ok none := by
  intro s load loaded
  have hfields : s.files.configFields (some "kmsign.toml") = .ok
      [("signing", .list [.text "SHA256withRSA"])] :=
    FileTree.configFields_of_read
      (FileTree.read_eq_ok_iff.mpr ⟨["kmsign.toml"], by decide, rfl⟩) (by cbv)
  have hload (config : Option String) (fields : ConfigValue.Fields)
      (h : s.files.configFields config = .ok fields) (environment : List (String × String)) :
      load config environment = (Settings.ofFields (ConfigValue.overFields fields
        (ConfigValue.ofEnvironment environment))).mapError .config :=
    congrArg Prod.fst (loadSettings_of_fields h environment)
  have hnone := hload none [] rfl
  have hlist := hload _ _ hfields
  simp only [loaded, hnone, hlist]
  refine ⟨rfl, rfl, ?_, ?_, ?_, ?_, rfl, ?_⟩ <;> cbv

end Rehearsal

end KeyCustody
