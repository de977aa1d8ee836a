import KeyCustody.Command.Sign
import KeyCustody.Proofs.Host

/-!
# Signing a file

Until the key is resolved, signing only looks at files and prints, and what it finds is settled by
the flags, the settings and the files. After that there are few ways to go on, and the file is the
last thing that can fail.

## Main definitions

* `SigningTask`, `prepareSign` — what signing finds, and finding it
* `SigningKeyName.StandsFor`, `SignFlags.task` — the key of a name, and what is found in a tree
* `SignRun` — all ways in which a signing command can go

## Main results

* `signFile_eq` — signing begins with finding what it needs
* `SignFlags.task_eq_ok_iff` — what is found
* `Rehearsal.signRun_signFile` — a signing command goes in one of these ways
* `Rehearsal.exists_signFile` — what it needs to succeed
-/

namespace KeyCustody

variable {t : FileTree} {draw : Entropy} {registry : Registry} {settings : Settings}
  {flags : SignFlags}

section Preparation

variable {m : Type → Type} [Monad m] [Host m]

open Host

/-- What is signed, the key, and the algorithm. -/
structure SigningTask where
  data : Octets
  source : KeySource
  algorithm : String

/-- The key that flags and settings name, and the algorithm to use it with. -/
def openNamedKey (settings : Settings) (flags : SignFlags) : CommandM m (KeySource × String) :=
  match flags.keyName settings.signing with
  | .error fault => throw (.invalidInput fault)
  | .ok name => openSigningKey name (flags.algorithmName? settings.signing)

/-- Looks for what a signing command needs, and resolves no key yet. -/
def prepareSign (settings : Settings) (flags : SignFlags) : CommandM m SigningTask := do
  say ("Signing file: " ++ flags.input)
  require flags.input
  let data ← readFile flags.input
  say ("  File size: " ++ data.length.repr ++ " bytes")
  let (source, algorithm) ← openNamedKey settings flags
  pure ⟨data, source, algorithm⟩

/-- Resolves the key, signs, and writes the signature. -/
def signPrepared (draw : Entropy) (registry : Registry) (flags : SignFlags) (task : SigningTask) :
    CommandM m String := do
  let signer ←
    orFail (← ExceptT.lift (adopt (registry.resolve task.source task.algorithm flags.parameters)))
  say "Signing..."
  let signature ← orFail (← ExceptT.lift (converse (signer.sign draw task.data)))
  deliver flags.outputPath signature (signatureLines signer.backend task.algorithm signature)

theorem signFile_eq [LawfulMonad m] (draw : Entropy) (registry : Registry) (settings : Settings)
    (flags : SignFlags) : (signFile draw registry settings flags : CommandM m String) =
      prepareSign settings flags >>= signPrepared draw registry flags := by
  simp only [signFile, prepareSign, openNamedKey, bind_assoc]
  cases flags.keyName settings.signing with
  | error fault => simp
  | ok name => simp only [pure_bind, signPrepared, deliver]

end Preparation

/-! ## What there is to sign -/

/-- The key of a name, and the algorithm to use it with, in a tree. -/
def SigningKeyName.source (name : SigningKeyName) (algorithm : Option String) (t : FileTree) :
    Except CommandError (KeySource × String) :=
  match name with
  | .file path => do
    t.require path
    let (key, _) ← (t.key path).mapError .key
    .ok (.inMemory key, algorithm.getD (SignatureAlgorithm.preferred key.keyType).name)
  | .remote kmsType keyAlias => .ok (.remote ⟨kmsType⟩ keyAlias, algorithm.getD "")

/-- A name stands for a key in a tree: for the key in a file, or for a remote key. -/
inductive SigningKeyName.StandsFor (t : FileTree) : SigningKeyName → KeySource → Prop
  | file {path : String} {content : Octets} {k : PrivateKey} : t.read path = .ok content →
    PrivateKey.ofFile content = .ok k → StandsFor t (.file path) (.inMemory k)
  | remote (kmsType keyAlias : String) :
    StandsFor t (.remote kmsType keyAlias) (.remote ⟨kmsType⟩ keyAlias)

/-- The algorithm to use a key with, where none is named. -/
def KeySource.preferredAlgorithm : KeySource → String
  | .inMemory k => (SignatureAlgorithm.preferred k.keyType).name
  | .remote .. => ""

theorem SigningKeyName.source_eq_ok_iff {name : SigningKeyName} {algorithm : Option String}
    {source : KeySource} {used : String} : name.source algorithm t = .ok (source, used) ↔
      name.StandsFor t source ∧ used = algorithm.getD source.preferredAlgorithm := by
  cases name with
  | file path =>
    simp only [SigningKeyName.source, Outcome.bind_eq_ok_iff, Outcome.mapError_eq_ok_iff,
      Prod.exists, FileTree.key_eq_ok_iff]
    constructor
    · rintro ⟨-, -, k, _, ⟨content, hread, hk, rfl⟩, ⟨⟩⟩
      exact ⟨.file hread hk, rfl⟩
    · rintro ⟨⟨hread, hk⟩, rfl⟩
      exact ⟨(), FileTree.require_of_read hread, _, _, ⟨_, hread, hk, rfl⟩, rfl⟩
  | remote kmsType keyAlias =>
    constructor
    · rintro ⟨⟩
      exact ⟨.remote _ _, rfl⟩
    · rintro ⟨⟨⟩, rfl⟩
      rfl

/-- What a signing command finds in a tree. -/
def SignFlags.task (flags : SignFlags) (settings : Settings) (t : FileTree) :
    Except CommandError SigningTask := do
  t.require flags.input
  let data ← (t.read flags.input).mapError .io
  let (source, algorithm) ← (flags.keyName settings.signing).mapError .invalidInput >>=
    (·.source (flags.algorithmName? settings.signing) t)
  .ok ⟨data, source, algorithm⟩

theorem SignFlags.task_eq_ok_iff {found : SigningTask} : flags.task settings t = .ok found ↔
    t.read flags.input = .ok found.data ∧
      ∃ name, flags.keyName settings.signing = .ok name ∧ name.StandsFor t found.source ∧
        found.algorithm =
          (flags.algorithmName? settings.signing).getD found.source.preferredAlgorithm := by
  simp only [task, Outcome.bind_eq_ok_iff, Outcome.mapError_eq_ok_iff, Prod.exists,
    SigningKeyName.source_eq_ok_iff]
  constructor
  · rintro ⟨-, -, data, hdata, source, algorithm, ⟨name, hname, hsource, halgorithm⟩, ⟨⟩⟩
    exact ⟨hdata, name, hname, hsource, halgorithm⟩
  · rintro ⟨hdata, name, hname, hsource, halgorithm⟩
    exact ⟨(), FileTree.require_of_read hdata, _, hdata, _, _,
      ⟨name, hname, hsource, halgorithm⟩, rfl⟩

namespace Rehearsal

theorem inspects_openSigningKey (name : SigningKeyName) (algorithm : Option String) :
    Inspects (openSigningKey name algorithm) (name.source algorithm) := by
  cases name with
  | file path =>
    have hsteps : Inspects (openSigningKey (.file path) algorithm) _ :=
      (inspects_require _).bind fun _ => (inspects_loadKey _).bind fun _ =>
        (inspects_say _).bind fun _ => inspects_pure _
    exact hsteps
  | remote kmsType keyAlias =>
    have hsteps : Inspects (openSigningKey (.remote kmsType keyAlias) algorithm) _ :=
      (inspects_say _).bind fun _ => inspects_pure _
    exact hsteps

theorem inspects_openNamedKey (settings : Settings) (flags : SignFlags) :
    Inspects (openNamedKey settings flags) fun t =>
      (flags.keyName settings.signing).mapError .invalidInput >>=
        (·.source (flags.algorithmName? settings.signing) t) := by
  rw [openNamedKey]
  cases flags.keyName settings.signing with
  | error fault => exact inspects_of_apply fun _ => rfl
  | ok name => exact inspects_openSigningKey name _

theorem inspects_prepareSign (settings : Settings) (flags : SignFlags) :
    Inspects (prepareSign settings flags) (flags.task settings) := by
  have hsteps : Inspects (prepareSign settings flags) _ :=
    (inspects_say _).bind fun _ => (inspects_require _).bind fun _ =>
      (inspects_readFile _).bind fun _ => (inspects_say _).bind fun _ =>
        (inspects_openNamedKey _ _).bind fun _ => inspects_pure _
  exact hsteps

end Rehearsal

/-! ## How signing goes -/

/-- The scene with a resolution and contacts in it, and more text printed. -/
def Scene.signing (s : Scene) (r : Registry.Resolution) (contacts : List Contact) (text : String) :
    Scene :=
  { s with
    printed := s.printed ++ text
    contacts := s.contacts ++ contacts
    constructions := s.constructions ++ r.construction.toList }

/-- All ways in which a signing command can go: it stops before the key is resolved, when it is
resolved, when the signature is asked for, or when it is written, or it succeeds. -/
inductive SignRun (draw : Entropy) (registry : Registry) (settings : Settings) (flags : SignFlags)
    (s : Scene) : Except CommandError String → Scene → Prop
  | unprepared {e : CommandError} (text : String) : flags.task settings s.files = .error e →
    SignRun draw registry settings flags s (.error e) (s.printing text)
  | unresolved {task : SigningTask} {r : Registry.Resolution} {e : KeyError} (text : String) :
    flags.task settings s.files = .ok task →
    registry.resolve task.source task.algorithm flags.parameters = r → r.outcome = .error e →
    SignRun draw registry settings flags s (.error (.key e)) (s.signing r [] text)
  | unsigned {task : SigningTask} {r : Registry.Resolution} {signer : Signer}
      {contacts : List Contact} {e : KeyError} (text : String) :
    flags.task settings s.files = .ok task →
    registry.resolve task.source task.algorithm flags.parameters = r → r.outcome = .ok signer →
    (signer.sign draw task.data).run s.services = (contacts, .error e) →
    SignRun draw registry settings flags s (.error (.key e)) (s.signing r contacts text)
  | unwritten {task : SigningTask} {r : Registry.Resolution} {signer : Signer}
      {contacts : List Contact} {signature : Octets} {fault : IoFault} (text : String) :
    flags.task settings s.files = .ok task →
    registry.resolve task.source task.algorithm flags.parameters = r → r.outcome = .ok signer →
    (signer.sign draw task.data).run s.services = (contacts, .ok signature) →
    s.files.write flags.outputPath signature = .error fault →
    SignRun draw registry settings flags s (.error (.io fault)) (s.signing r contacts text)
  | written {task : SigningTask} {r : Registry.Resolution} {signer : Signer}
      {contacts : List Contact} {signature : Octets} {files : FileTree} (text : String) :
    flags.task settings s.files = .ok task →
    registry.resolve task.source task.algorithm flags.parameters = r → r.outcome = .ok signer →
    (signer.sign draw task.data).run s.services = (contacts, .ok signature) →
    s.files.write flags.outputPath signature = .ok files →
    SignRun draw registry settings flags s (.ok flags.outputPath)
      { s.signing r contacts text with files }

@[simp] theorem Scene.files_signing (s : Scene) (r : Registry.Resolution)
    (contacts : List Contact) (text : String) : (s.signing r contacts text).files = s.files := rfl

theorem Scene.printing_signing (s : Scene) (r : Registry.Resolution) (contacts : List Contact)
    (text more : String) :
    (s.signing r contacts text).printing more = s.signing r contacts (text ++ more) := by
  rw [signing, signing, printing, String.append_assoc]

namespace Rehearsal

variable {s : Scene} {task : SigningTask} {r : Registry.Resolution}

theorem adopt_apply (r : Registry.Resolution) (s : Scene) (text : String) :
    (ExceptT.lift (Host.adopt r) : CommandM Rehearsal (Except KeyError Signer))
      (s.printing text) = (.ok r.outcome, s.signing r [] text) := by
  rw [Scene.signing, List.append_nil]
  rfl

theorem converse_apply (dialogue : Dialogue (Except KeyError Octets)) (s : Scene)
    (r : Registry.Resolution) (text : String) :
    (ExceptT.lift (Host.converse dialogue) : CommandM Rehearsal (Except KeyError Octets))
      (s.signing r [] text) =
        (.ok (dialogue.run s.services).2, s.signing r (dialogue.run s.services).1 text) := by
  rw [Scene.signing, List.append_nil]
  rfl

theorem orFail_of_ok {α : Type} {a : α} {x : Except KeyError α} (h : x = .ok a) (s : Scene) :
    (Host.orFail x : CommandM Rehearsal α) s = (.ok a, s) := by
  rw [h]
  rfl

/-- Once the task is found, signing goes on in one of the ways that are left. -/
theorem signRun_of_task (htask : flags.task settings s.files = .ok task) (text : String)
    {result : Except CommandError String} {s' : Scene}
    (h : (signPrepared draw registry flags task : CommandM Rehearsal String) (s.printing text) =
      (result, s')) : SignRun draw registry settings flags s result s' := by
  -- The steps are taken off one by one, and each failure is a way of its own.
  rw [signPrepared, bind_of_ok (adopt_apply _ s text)] at h
  generalize hr : registry.resolve task.source task.algorithm flags.parameters = r at h
  cases houtcome : r.outcome with
  | error e =>
    rw [houtcome] at h
    obtain ⟨rfl, rfl⟩ := Prod.mk.inj h
    exact .unresolved text htask hr houtcome
  | ok signer =>
    obtain ⟨more, hsay⟩ := inspects_say "Signing..." (s.signing r [] text)
    rw [Scene.printing_signing] at hsay
    rw [bind_of_ok (orFail_of_ok houtcome _), bind_of_ok hsay,
      bind_of_ok (converse_apply _ s r _)] at h
    rcases hdialogue : (signer.sign draw task.data).run s.services with ⟨contacts, answer⟩
    rw [hdialogue] at h
    dsimp only at h
    cases answer with
    | error e =>
      obtain ⟨rfl, rfl⟩ := Prod.mk.inj h
      exact .unsigned _ htask hr houtcome hdialogue
    | ok signature =>
      obtain ⟨last, hdeliver⟩ := deliver_apply flags.outputPath signature
        (signatureLines signer.backend task.algorithm signature)
        (s.signing r contacts (text ++ more))
      rw [bind_of_ok (orFail_of_ok rfl _), hdeliver, Scene.files_signing] at h
      cases hfiles : s.files.write flags.outputPath signature with
      | error fault =>
        rw [hfiles] at h
        obtain ⟨rfl, rfl⟩ := Prod.mk.inj h
        exact .unwritten _ htask hr houtcome hdialogue hfiles
      | ok files =>
        rw [hfiles] at h
        obtain ⟨rfl, rfl⟩ := Prod.mk.inj h
        have hscene : Scene.printing { s.signing r contacts (text ++ more) with files } last =
            { s.signing r contacts (text ++ more ++ last) with files } :=
          congrArg (fun s : Scene => { s with files }) (Scene.printing_signing s r contacts _ last)
        rw [hscene]
        exact .written _ htask hr houtcome hdialogue hfiles

/-- Signing goes in one of the ways that there are. -/
theorem signRun_signFile {result : Except CommandError String} {s' : Scene}
    (h : (signFile draw registry settings flags : CommandM Rehearsal String) s = (result, s')) :
    SignRun draw registry settings flags s result s' := by
  obtain ⟨text, hprepare⟩ := (inspects_prepareSign settings flags).bind_apply
    (signPrepared draw registry flags) s
  rw [signFile_eq, hprepare] at h
  cases htask : flags.task settings s.files with
  | error e =>
    rw [htask] at h
    obtain ⟨rfl, rfl⟩ := Prod.mk.inj h
    exact .unprepared text htask
  | ok task =>
    rw [htask] at h
    exact signRun_of_task htask text h

/-- With a signer that signs and a place to put the signature, signing succeeds. -/
theorem exists_signFile {signer : Signer} {contacts : List Contact} {signature : Octets}
    (htask : flags.task settings s.files = .ok task)
    (hsigner : (registry.resolve task.source task.algorithm flags.parameters).outcome = .ok signer)
    (hdialogue : (signer.sign draw task.data).run s.services = (contacts, .ok signature))
    (houtput : s.files.IsWritable flags.outputPath) : ∃ s',
      (signFile draw registry settings flags : CommandM Rehearsal String) s =
        (.ok flags.outputPath, s') ∧
      s.files.IsWritten flags.outputPath signature s'.files := by
  obtain ⟨files, hfiles⟩ := FileTree.exists_write_iff.mpr houtput
  rcases hrun : (signFile draw registry settings flags : CommandM Rehearsal String) s with
    ⟨result, s'⟩
  -- The other ways to go need one of the steps to fail.
  cases signRun_signFile hrun with
  | unprepared text hfails => cases htask.symm.trans hfails
  | unresolved text hfound hr hfails =>
    obtain rfl := Except.ok.inj (htask.symm.trans hfound)
    cases hsigner.symm.trans (hr ▸ hfails)
  | unsigned text hfound hr houtcome hfails =>
    obtain rfl := Except.ok.inj (htask.symm.trans hfound)
    obtain rfl := Except.ok.inj (hsigner.symm.trans (hr ▸ houtcome))
    cases hdialogue.symm.trans hfails
  | unwritten text hfound hr houtcome hsigned hfails =>
    obtain rfl := Except.ok.inj (htask.symm.trans hfound)
    obtain rfl := Except.ok.inj (hsigner.symm.trans (hr ▸ houtcome))
    obtain ⟨rfl, ⟨⟩⟩ := Prod.mk.inj (hdialogue.symm.trans hsigned)
    cases hfiles.symm.trans hfails
  | written text hfound hr houtcome hsigned hwritten =>
    obtain rfl := Except.ok.inj (htask.symm.trans hfound)
    obtain rfl := Except.ok.inj (hsigner.symm.trans (hr ▸ houtcome))
    obtain ⟨rfl, ⟨⟩⟩ := Prod.mk.inj (hdialogue.symm.trans hsigned)
    exact ⟨_, rfl, FileTree.isWritten_of_write hwritten⟩

end Rehearsal

end KeyCustody
