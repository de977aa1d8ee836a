import KeyCustody.Proofs.Command.Sign
import KeyCustody.Proofs.Engine.Registry
import KeyCustody.Proofs.Remote.Wire

/-!
# The contacts of a signing command

A signing command contacts a service at one place only, when its signer signs, and by then all is
settled but the answers of the service. So whatever can be found wrong without asking the service
is found before any client is opened.

## Main definitions

* `Registry.IsOfServices` — a registry that knows no backends but those of the services
* `SignFlags.IsObstructed` — what keeps a signing command from contacting a service

## Main results

* `Registry.IsOfServices.resolve_remote` — what a remote key is resolved to
* `SignFlags.IsObstructed.not_resolved` — what is obstructed is not resolved
* `Rehearsal.contacts_of_signFile` — the contacts of a signing command
-/

namespace KeyCustody

variable {r : Registry} {t : KmsType} {signer : Signer} {settings : Settings} {flags : SignFlags}
  {files : FileTree} {draw : Entropy} {s s' : Scene} {result : Except CommandError String}

/-! ## Registries of the services -/

namespace Registry

/-- The registry knows no backends but those of the services, each under its own name. -/
def IsOfServices (r : Registry) : Prop :=
  ∀ t constructor, r.constructor? t = some constructor →
    ∃ c, t = .aws ∧ constructor = .aws c ∨ t = .gcp ∧ constructor = .gcp c

/-- A registry knows the services alone until a caller registers a backend of its own. -/
theorem isOfServices_after {ops : List Operation}
    (h : ∀ op ∈ ops, ∀ t constructor, op ≠ .register t constructor) :
    (empty.after ops).IsOfServices := by
  intro t constructor hconstructor
  rw [constructor?_after_empty, List.lookup_eq_some_iff] at hconstructor
  obtain ⟨l, l', hl, -⟩ := hconstructor
  have hmem : (t, constructor) ∈ registrations ops := by
    rw [← List.mem_reverse, hl]
    simp
  obtain ⟨op, hop, hregistration⟩ := List.mem_filterMap.mp hmem
  cases op with
  | register kmsType constructor' => exact absurd rfl (h _ hop _ _)
  | registerAws c =>
    cases hregistration
    exact ⟨c, .inl ⟨rfl, rfl⟩⟩
  | registerGcp c =>
    cases hregistration
    exact ⟨c, .inr ⟨rfl, rfl⟩⟩
  | contains | kmsTypes | resolve => cases hregistration

end Registry

/-! ## What is found wrong without asking -/

/-- What keeps a signing command from contacting a service: the input is missing, no key is named in
full, or the key is a remote one that cannot be resolved. -/
inductive SignFlags.IsObstructed (r : Registry) (settings : Settings) (flags : SignFlags)
    (files : FileTree) : Prop
  | missingInput : files.isPresent flags.input = false → IsObstructed r settings flags files
  | unnamedKey (fault : InputFault) : flags.keyName settings.signing = .error fault →
    IsObstructed r settings flags files
  | unregistered (kmsType keyAlias : String) :
    flags.keyName settings.signing = .ok (.remote kmsType keyAlias) →
    r.contains ⟨kmsType⟩ = false → IsObstructed r settings flags files
  | missingAlgorithm (keyAlias : String) :
    flags.keyName settings.signing = .ok (.remote "AWS" keyAlias) →
    (flags.algorithmName? settings.signing).getD "" = "" → IsObstructed r settings flags files
  | unmappedAlgorithm (keyAlias algorithm : String) :
    flags.keyName settings.signing = .ok (.remote "AWS" keyAlias) →
    flags.algorithmName? settings.signing = some algorithm →
    (∀ code, (algorithm, code) ∉ Aws.codes) → IsObstructed r settings flags files
  | emptyAlias (keyAlias : String) :
    flags.keyName settings.signing = .ok (.remote "AWS" keyAlias) → Aws.IsNameOf "" keyAlias →
    IsObstructed r settings flags files
  | malformedAlias (keyAlias : String) :
    flags.keyName settings.signing = .ok (.remote "GCP" keyAlias) →
    (∀ n : KeyVersionName, n.IsWellFormed → keyAlias ≠ n.text) → IsObstructed r settings flags files

namespace Registry.IsOfServices

/-- A remote key is resolved only for a known service, and only with what the service needs. -/
theorem resolve_remote (h : r.IsOfServices) {keyAlias algorithm : String}
    {parameters : Option SignatureAlgorithm.Parameters}
    (hsigner : (r.resolve (.remote t keyAlias) algorithm parameters).outcome = .ok signer) :
    r.contains t = true ∧ ∃ v : ServiceSigner, signer = v.toSigner ∧
      (t = .aws → (∃ name, Aws.IsNameOf name keyAlias ∧ name ≠ "") ∧
        ∃ code, (algorithm, code) ∈ Aws.codes) ∧
      (t = .gcp → ∃ n : KeyVersionName, n.IsWellFormed ∧ keyAlias = n.text) := by
  cases hconstructor : r.constructor? t with
  | none =>
    rw [resolve, hconstructor] at hsigner
    cases hsigner
  | some constructor =>
    refine ⟨by rw [contains, hconstructor, Option.isSome_some], ?_⟩
    obtain ⟨c, ⟨rfl, rfl⟩ | ⟨rfl, rfl⟩⟩ := h _ _ hconstructor
    · obtain ⟨name, code, hname, hcode, rfl⟩ := (resolve_aws_eq_ok_iff hconstructor).mp hsigner
      exact ⟨_, rfl, fun _ => ⟨⟨name, hname⟩, code, hcode⟩, fun ht => absurd ht (by decide)⟩
    · obtain ⟨n, hn, hpath, rfl⟩ := (resolve_gcp_eq_ok_iff hconstructor).mp hsigner
      exact ⟨_, rfl, fun ht => absurd ht (by decide), fun _ => ⟨n, hn, hpath⟩⟩

end Registry.IsOfServices

theorem SigningKeyName.StandsFor.eq_remote {kmsType keyAlias : String} {source : KeySource}
    (h : (SigningKeyName.remote kmsType keyAlias).StandsFor files source) :
    source = .remote ⟨kmsType⟩ keyAlias := by
  cases h
  rfl

theorem SigningKeyName.StandsFor.exists_inMemory {path : String} {source : KeySource}
    (h : (SigningKeyName.file path).StandsFor files source) : ∃ k, source = .inMemory k := by
  cases h
  exact ⟨_, rfl⟩

/-- What is obstructed is not resolved: there is nothing to resolve, or resolving it fails. -/
theorem SignFlags.IsObstructed.not_resolved (hobstructed : flags.IsObstructed r settings files)
    (h : r.IsOfServices) {task : SigningTask} (htask : flags.task settings files = .ok task) :
    (r.resolve task.source task.algorithm flags.parameters).outcome ≠ .ok signer := by
  intro hsigner
  obtain ⟨hread, name, hname, hsource, halgorithm⟩ := SignFlags.task_eq_ok_iff.mp htask
  -- What resolving a remote key needs, for the cases in which the key is one.
  have hremote : ∀ {kmsType keyAlias : String},
      flags.keyName settings.signing = .ok (.remote kmsType keyAlias) →
      (r.resolve (.remote ⟨kmsType⟩ keyAlias) ((flags.algorithmName? settings.signing).getD "")
        flags.parameters).outcome = .ok signer := by
    intro kmsType keyAlias hkey
    obtain rfl := Except.ok.inj (hkey.symm.trans hname)
    rw [halgorithm, hsource.eq_remote] at hsigner
    exact hsigner
  cases hobstructed with
  | missingInput hmissing =>
    rw [FileTree.isPresent_of_read hread] at hmissing
    cases hmissing
  | unnamedKey fault hfault =>
    rw [hfault] at hname
    cases hname
  | unregistered kmsType keyAlias hkey hunknown =>
    obtain ⟨hknown, -⟩ := h.resolve_remote (hremote hkey)
    rw [hunknown] at hknown
    cases hknown
  | missingAlgorithm keyAlias hkey hnone =>
    obtain ⟨-, _, -, haws, -⟩ := h.resolve_remote (hremote hkey)
    obtain ⟨-, code, hcode⟩ := haws rfl
    rw [hnone] at hcode
    exact absurd hcode (by simp [Aws.codes])
  | unmappedAlgorithm keyAlias algorithm hkey hnamed hunmapped =>
    obtain ⟨-, _, -, haws, -⟩ := h.resolve_remote (hremote hkey)
    obtain ⟨-, code, hcode⟩ := haws rfl
    rw [hnamed, Option.getD_some] at hcode
    exact hunmapped code hcode
  | emptyAlias keyAlias hkey hempty =>
    obtain ⟨-, _, -, haws, -⟩ := h.resolve_remote (hremote hkey)
    obtain ⟨⟨name, hnamed, hne⟩, -⟩ := haws rfl
    rw [Aws.isNameOf_iff] at hempty hnamed
    exact hne (String.toList_injective (hnamed.symm.trans hempty))
  | malformedAlias keyAlias hkey hmalformed =>
    obtain ⟨-, _, -, -, hgcp⟩ := h.resolve_remote (hremote hkey)
    obtain ⟨n, hn, hpath⟩ := hgcp rfl
    exact hmalformed n hn hpath

/-! ## What is asked -/

theorem ServiceSigner.message_request (v : ServiceSigner) (message : Octets) :
    (v.request message).message = message := by
  cases v <;> rfl

/-- A signer of a service asks once if it can, and then its result is that of the request. -/
theorem ServiceSigner.run_sign (v : ServiceSigner) (draw : Entropy) (message : Octets)
    (services : ConnectorId → Service) :
    (∃ text, (services v.connector).connect = .error text ∧
      (v.toSigner.sign draw message).run services =
        ([.connected v.connector], Dialogue.unopened v.kmsType text)) ∨
    (services v.connector).connect = .ok () ∧
      (v.toSigner.sign draw message).run services =
        ([.connected v.connector, .requested v.connector (v.request message),
          .released v.connector],
          Dialogue.answered v.kmsType ((services v.connector).sign (v.request message))) := by
  rw [sign_toSigner, Dialogue.run_signing]
  cases (services v.connector).connect with
  | error text => exact .inl ⟨text, rfl, rfl⟩
  | ok => exact .inr ⟨rfl, rfl⟩

/-- A key in memory contacts no service. -/
theorem Registry.contacts_of_inMemory {k : PrivateKey} {algorithm : String}
    {parameters : Option SignatureAlgorithm.Parameters}
    (hsigner : (r.resolve (.inMemory k) algorithm parameters).outcome = .ok signer)
    (draw : Entropy) (message : Octets) (services : ConnectorId → Service) :
    ((signer.sign draw message).run services).1 = [] := by
  obtain ⟨_, -, rfl⟩ := Outcome.map_eq_ok_iff.mp hsigner
  rfl

/-- Either a signing command stops before its signer signs, and contacts nobody, or its contacts are
those of its signer. In the end the signature is written, or that fails. -/
theorem SignRun.contacts_cases (h : SignRun draw r settings flags s result s') :
    (∃ e, result = .error e) ∧ s'.contacts = s.contacts ∨
    ∃ task signer contacts answer, flags.task settings s.files = .ok task ∧
      (r.resolve task.source task.algorithm flags.parameters).outcome = .ok signer ∧
      (signer.sign draw task.data).run s.services = (contacts, answer) ∧
      s'.contacts = s.contacts ++ contacts ∧
      ((∃ e, answer = .error e ∧ result = .error (.key e)) ∨
        ∃ signature, answer = .ok signature ∧
          (result = .ok flags.outputPath ∨ ∃ fault, result = .error (.io fault))) := by
  cases h with
  | unprepared text htask => exact .inl ⟨⟨_, rfl⟩, rfl⟩
  | unresolved text htask hr houtcome => exact .inl ⟨⟨_, rfl⟩, List.append_nil _⟩
  | unsigned text htask hr houtcome hdialogue =>
    exact .inr ⟨_, _, _, _, htask, hr ▸ houtcome, hdialogue, rfl, .inl ⟨_, rfl, rfl⟩⟩
  | unwritten text htask hr houtcome hdialogue hfiles =>
    exact .inr ⟨_, _, _, _, htask, hr ▸ houtcome, hdialogue, rfl, .inr ⟨_, rfl, .inr ⟨_, rfl⟩⟩⟩
  | written text htask hr houtcome hdialogue hfiles =>
    exact .inr ⟨_, _, _, _, htask, hr ▸ houtcome, hdialogue, rfl, .inr ⟨_, rfl, .inl rfl⟩⟩

/-- The contacts of a signing command with a registry of the services. It opens at most one client
and sends at most one request, whose message is the content of the input. A local key contacts no
service. Neither does a command that fails because the input is missing, no key is named in full,
the service is not registered, its algorithm is missing or has no code, or its alias is empty or
malformed; each of these makes the command fail. After a contact only opening the client, the
request and writing the signature can fail. And with a remote key the command succeeds only if it
opened one client and its request was answered with a signature. -/
theorem Rehearsal.contacts_of_signFile (h : r.IsOfServices) (draw : Entropy) (settings : Settings)
    (flags : SignFlags) (s s' : Scene) (result : Except CommandError String)
    (hrun : (signFile draw r settings flags : CommandM Rehearsal String) s = (result, s')) :
    ∃ contacts, s'.contacts = s.contacts ++ contacts ∧
      (contacts = [] ∨ ∃ c, contacts = [.connected c] ∨
        ∃ request, s.files.read flags.input = .ok request.message ∧
          contacts = [.connected c, .requested c request, .released c]) ∧
      (∀ path, flags.keyName settings.signing = .ok (.file path) → contacts = []) ∧
      (flags.IsObstructed r settings s.files → (∃ e, result = .error e) ∧ contacts = []) ∧
      (∀ e, result = .error e → contacts ≠ [] →
        (∃ backend cause, e = .key (.backendInit backend cause)) ∨
        (∃ backend cause, e = .key (.signing backend cause)) ∨ ∃ fault, e = .io fault) ∧
      ∀ path kmsType keyAlias, result = .ok path →
        flags.keyName settings.signing = .ok (.remote kmsType keyAlias) →
        ∃ c request signature, contacts = [.connected c, .requested c request, .released c] ∧
          (s.services c).connect = .ok () ∧ (s.services c).sign request = .ok signature := by
  rcases (signRun_signFile hrun).contacts_cases with ⟨⟨e, rfl⟩, hcontacts⟩ |
    ⟨task, signer, contacts, answer, htask, hsigner, hdialogue, hcontacts, hanswer⟩
  · exact ⟨[], by rw [hcontacts, List.append_nil], .inl rfl, fun _ _ => rfl,
      fun _ => ⟨⟨e, rfl⟩, rfl⟩, fun _ _ hne => absurd rfl hne, nofun⟩
  · have hunobstructed : ¬ flags.IsObstructed r settings s.files :=
      fun hobstructed => hobstructed.not_resolved h htask hsigner
    obtain ⟨hread, name, hname, hsource, -⟩ := SignFlags.task_eq_ok_iff.mp htask
    refine ⟨contacts, hcontacts, ?_⟩
    cases name with
    | file path =>
      obtain ⟨k, hk⟩ := hsource.exists_inMemory
      rw [hk] at hsigner
      have hnone := Registry.contacts_of_inMemory hsigner draw task.data s.services
      rw [hdialogue] at hnone
      obtain rfl : contacts = [] := hnone
      refine ⟨.inl rfl, fun _ _ => rfl, fun hobstructed => absurd hobstructed hunobstructed,
        fun _ _ hne => absurd rfl hne, ?_⟩
      intro _ kmsType keyAlias _ hremote
      exact absurd (hname.symm.trans hremote) nofun
    | remote kmsType keyAlias =>
      rw [hsource.eq_remote] at hsigner
      obtain ⟨-, v, rfl, -⟩ := h.resolve_remote hsigner
      have hlocal : ∀ path, flags.keyName settings.signing ≠ .ok (.file path) :=
        fun path hfile => absurd (hname.symm.trans hfile) nofun
      rcases v.run_sign draw task.data s.services with ⟨text, -, hunopened⟩ | ⟨hconnect, hasked⟩
      · -- No client was opened, so there is no signature and the command fails.
        obtain ⟨rfl, rfl⟩ := Prod.mk.inj (hdialogue.symm.trans hunopened)
        obtain ⟨e, he, rfl⟩ | ⟨signature, hsignature, -⟩ := hanswer
        · cases he
          refine ⟨.inr ⟨_, .inl rfl⟩, fun path hfile => absurd hfile (hlocal path),
            fun hobstructed => absurd hobstructed hunobstructed, ?_, nofun⟩
          rintro e ⟨⟩ -
          exact .inl ⟨_, _, rfl⟩
        · cases hsignature
      · obtain ⟨rfl, rfl⟩ := Prod.mk.inj (hdialogue.symm.trans hasked)
        refine ⟨.inr ⟨_, .inr ⟨_, by rw [v.message_request]; exact hread, rfl⟩⟩,
          fun path hfile => absurd hfile (hlocal path),
          fun hobstructed => absurd hobstructed hunobstructed, ?_, ?_⟩
        · rintro e rfl -
          obtain ⟨e, he, ⟨⟩⟩ | ⟨-, -, ⟨⟨⟩⟩ | ⟨fault, ⟨⟩⟩⟩ := hanswer
          · obtain ⟨text, -, rfl⟩ := Outcome.mapError_eq_error_iff.mp he
            exact .inr (.inl ⟨_, _, rfl⟩)
          · exact .inr (.inr ⟨fault, rfl⟩)
        · rintro path - - rfl -
          obtain ⟨e, -, ⟨⟩⟩ | ⟨signature, hsignature, -⟩ := hanswer
          exact ⟨_, _, signature, rfl, hconnect, Outcome.mapError_eq_ok_iff.mp hsignature⟩

/-- A file that is signed with AWS KMS, and one that is not for want of an algorithm. -/
theorem Rehearsal.contacts_of_signFile_aws :
    let s := Scene.start ⟨[(["in"], .file [1, 2])]⟩
      fun _ => ⟨.ok (), fun request => .ok request.message, none⟩
    let r := Registry.empty.after [.registerAws 1, .registerGcp 2]
    let flags : SignFlags :=
      ⟨"in", none, none, some "AWS", some "release", some "SHA256withRSA", none⟩
    let unclear : SignFlags := ⟨"in", none, none, some "AWS", some "release", none, none⟩
    let signed := (signFile (List.replicate · 0) r .default flags : CommandM Rehearsal String) s
    let failed := (signFile (List.replicate · 0) r .default unclear : CommandM Rehearsal String) s
    r.IsOfServices ∧ signed.1 = .ok "in.sig" ∧
      (∃ c request, signed.2.contacts = [.connected c, .requested c request, .released c] ∧
        request.message = [1, 2] ∧ ∃ signature, (s.services c).sign request = .ok signature) ∧
      (∃ e, failed.1 = .error e) ∧ failed.2.contacts = [] := by
  intro s r flags unclear signed failed
  have hregistry : r.IsOfServices := Registry.isOfServices_after (by simp)
  have hcontent : s.files.read "in" = .ok [1, 2] :=
    FileTree.read_eq_ok_iff.mpr ⟨["in"], by decide, rfl⟩
  have htask : flags.task .default s.files =
      .ok ⟨[1, 2], .remote ⟨"AWS"⟩ "release", "SHA256withRSA"⟩ :=
    SignFlags.task_eq_ok_iff.mpr
      ⟨hcontent, .remote "AWS" "release", rfl, .remote "AWS" "release", rfl⟩
  obtain ⟨s', hsigned, -⟩ : ∃ s', signed = (.ok "in.sig", s') ∧
      s.files.IsWritten "in.sig" [1, 2] s'.files :=
    exists_signFile htask rfl rfl ⟨["in.sig"], by decide, by decide⟩
  obtain ⟨contacts, hcontacts, hshape, -, -, -, hasked⟩ :=
    contacts_of_signFile hregistry (List.replicate · 0) .default flags s s' _ hsigned
  obtain ⟨c, request, signature, rfl, -, hsignature⟩ := hasked _ _ _ rfl rfl
  obtain ⟨⟨⟩⟩ | ⟨c, ⟨⟨⟩⟩ | ⟨request, hread, ⟨⟩⟩⟩ := hshape
  have hmessage : [1, 2] = request.message := Except.ok.inj (hcontent.symm.trans hread)
  obtain ⟨none, hnone, -, -, hobstructed, -⟩ :=
    contacts_of_signFile hregistry (List.replicate · 0) .default unclear s failed.2 failed.1 rfl
  obtain ⟨hfailed, rfl⟩ := hobstructed (.missingAlgorithm "release" rfl rfl)
  rw [hsigned]
  exact ⟨hregistry, rfl, ⟨_, _, hcontacts, hmessage.symm, signature, hsignature⟩, hfailed, hnone⟩

end KeyCustody
