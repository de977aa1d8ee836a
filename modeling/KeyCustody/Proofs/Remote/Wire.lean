import KeyCustody.Proofs.Remote.ResourceName
import KeyCustody.Proofs.Remote.Signing
import KeyCustody.Proofs.SignatureAlgorithm

/-!
# What services are asked for

An alias and an algorithm settle what a signer of a service will ask for. Cloud KMS gets the alias
as it is, and for it the alias has to be the name of a version of a key. AWS KMS gets the alias with
its mark, which is put in front unless it is there, and a code that stands for one algorithm alone.

## Main definitions

* `Aws.codes` — the algorithms that AWS KMS can sign with, and their codes
* `Aws.IsNameOf` — an alias without the mark in front of it

## Main results

* `Aws.codeOfName?_eq_some_iff`, `Aws.keyId_eq_ok_iff` — the code and the name that are sent
* `AwsSigner.create_eq_ok_iff`, `GcpSigner.create_eq_ok_iff` — which signers are made
* `Registry.requests_of_resolution` — what the resolved signers ask for
-/

namespace KeyCustody

/-! ## AWS KMS -/

namespace Aws

/-- The algorithms that the service can sign with, by name, and their codes. -/
def codes : List (String × String) := [
  ("SHA256withRSA/PSS", "RSASSA_PSS_SHA_256"), ("SHA512withRSA/PSS", "RSASSA_PSS_SHA_512"),
  ("SHA256withRSA", "RSASSA_PKCS1_V1_5_SHA_256"), ("SHA512withRSA", "RSASSA_PKCS1_V1_5_SHA_512"),
  ("SHA256withECDSA", "ECDSA_SHA_256"), ("SHA512withECDSA", "ECDSA_SHA_512")]

/-- The name is the alias without the mark in front of it, which is taken off once. -/
def IsNameOf (name keyAlias : String) : Prop :=
  keyAlias = "alias/" ++ name ∨ keyAlias = name ∧ ¬ "alias/".toList <+: keyAlias.toList

variable {algorithm code keyAlias id : String}

theorem codeOfName?_eq_some_iff : codeOfName? algorithm = some code ↔ (algorithm, code) ∈ codes := by
  simp only [codeOfName?, Option.bind_eq_bind, Option.bind_eq_some_iff,
    SignatureAlgorithm.ofName?_eq_some_iff]
  constructor
  · rintro ⟨a, rfl, ha⟩
    cases a <;> simp_all [algorithmCode?, codes, SignatureAlgorithm.name]
  · intro h
    have hall : ∀ e ∈ codes, ∃ a : SignatureAlgorithm, e.1 = a.name ∧ algorithmCode? a = some e.2 := by
      simp only [codes, List.forall_mem_cons]
      exact ⟨⟨.sha256WithRsaPss, rfl, rfl⟩, ⟨.sha512WithRsaPss, rfl, rfl⟩,
        ⟨.sha256WithRsa, rfl, rfl⟩, ⟨.sha512WithRsa, rfl, rfl⟩, ⟨.sha256WithEcdsa, rfl, rfl⟩,
        ⟨.sha512WithEcdsa, rfl, rfl⟩, fun _ h => absurd h List.not_mem_nil⟩
    exact hall _ h

/-- Different algorithms have different codes. -/
theorem eq_of_mem_codes {other : String} (h : (algorithm, code) ∈ codes)
    (h' : (other, code) ∈ codes) : algorithm = other := by
  have hinjective : ∀ e ∈ codes, ∀ f ∈ codes, e.2 = f.2 → e.1 = f.1 := by decide
  exact hinjective _ h _ h' rfl

theorem isNameOf_iff {name : String} :
    IsNameOf name keyAlias ↔ aliasName keyAlias.toList = name.toList := by
  rw [IsNameOf, aliasName]
  by_cases hmark : aliasMark <+: keyAlias.toList
  · obtain ⟨rest, hrest⟩ := id hmark
    rw [or_iff_left fun h => h.2 hmark, if_pos (List.isPrefixOf_iff_prefix.mpr hmark),
      String.ext_iff, ← hrest, List.drop_left, String.toList_append]
    exact List.append_right_inj _
  · rw [if_neg (mt List.isPrefixOf_iff_prefix.mp hmark), String.toList_inj]
    constructor
    · rintro (rfl | ⟨h, -⟩)
      · exact absurd (List.prefix_append _ _) (String.toList_append ▸ hmark)
      · exact h
    · exact fun h => .inr ⟨h, hmark⟩

/-- An alias is sent with its mark, once. -/
theorem keyId_eq_ok_iff : keyId keyAlias = .ok id ↔
    ∃ name, IsNameOf name keyAlias ∧ name ≠ "" ∧ id = "alias/" ++ name := by
  simp only [isNameOf_iff]
  unfold keyId
  constructor
  · intro h
    split at h
    · cases h
    · next hne =>
      refine ⟨String.ofList (aliasName keyAlias.toList), String.toList_ofList.symm, ?_, ?_⟩
      · exact mt String.ofList_eq_empty_iff.mp hne
      · rw [← Except.ok.inj h, String.ofList_append]
        rfl
  · rintro ⟨name, hname, hne, rfl⟩
    rw [hname]
    split
    · next hnil => exact absurd (String.toList_eq_nil_iff.mp hnil) hne
    · rw [String.ofList_append, String.ofList_toList]
      rfl

end Aws

/-! ## Signers -/

theorem AwsSigner.create_eq_ok_iff {keyAlias algorithm : String} {connector : ConnectorId}
    {s : AwsSigner} : create keyAlias algorithm connector = .ok s ↔
      ∃ name code, (Aws.IsNameOf name keyAlias ∧ name ≠ "") ∧ (algorithm, code) ∈ Aws.codes ∧
        s = ⟨"alias/" ++ name, code, connector⟩ := by
  simp only [← Aws.codeOfName?_eq_some_iff, create]
  by_cases halgorithm : algorithm = ""
  · subst halgorithm
    have hnone : Aws.codeOfName? "" = none := by decide
    simp [hnone, bind, Except.bind, throw, throwThe, MonadExceptOf.throw]
  · simp only [halgorithm, if_false]
    cases Aws.codeOfName? algorithm with
    | none => simp [throw, throwThe, MonadExceptOf.throw]
    | some code =>
      simp only [Outcome.bind_eq_ok_iff, Aws.keyId_eq_ok_iff, Option.some_inj]
      constructor
      · rintro ⟨id, ⟨name, hname, hne, rfl⟩, hs⟩
        exact ⟨name, code, ⟨hname, hne⟩, rfl, (Except.ok.inj hs).symm⟩
      · rintro ⟨name, code, ⟨hname, hne⟩, rfl, rfl⟩
        exact ⟨_, ⟨name, hname, hne, rfl⟩, rfl⟩

theorem GcpSigner.create_eq_ok_iff {keyAlias algorithm : String} {connector : ConnectorId}
    {s : GcpSigner} : create keyAlias algorithm connector = .ok s ↔
      ∃ n : KeyVersionName, n.IsWellFormed ∧ keyAlias = n.text ∧ s = ⟨n, connector⟩ := by
  simp only [create, Outcome.bind_eq_ok_iff, KeyVersionName.parse_eq_ok_iff, and_assoc]
  constructor
  · rintro ⟨n, hn, hpath, hs⟩
    exact ⟨n, hn, hpath, (Except.ok.inj hs).symm⟩
  · rintro ⟨n, hn, hpath, rfl⟩
    exact ⟨n, hn, hpath, rfl⟩

/-! ## Resolution -/

namespace Registry

variable {r : Registry} {c : ConnectorId} {keyAlias algorithm : String}
  {parameters : Option SignatureAlgorithm.Parameters} {signer : Signer}

theorem outcome_resolve {t : KmsType} {constructor : Constructor}
    (h : r.constructor? t = some constructor) :
    (r.resolve (.remote t keyAlias) algorithm parameters).outcome =
      constructor.create keyAlias algorithm := by
  rw [resolve, h]

theorem resolve_aws_eq_ok_iff (h : r.constructor? .aws = some (.aws c)) :
    (r.resolve (.remote .aws keyAlias) algorithm parameters).outcome = .ok signer ↔
      ∃ name code, (Aws.IsNameOf name keyAlias ∧ name ≠ "") ∧ (algorithm, code) ∈ Aws.codes ∧
        signer = (ServiceSigner.aws ⟨"alias/" ++ name, code, c⟩).toSigner := by
  rw [outcome_resolve h, Constructor.aws, Outcome.map_eq_ok_iff]
  simp only [AwsSigner.create_eq_ok_iff]
  constructor
  · rintro ⟨s, ⟨name, code, hname, hcode, rfl⟩, rfl⟩
    exact ⟨name, code, hname, hcode, rfl⟩
  · rintro ⟨name, code, hname, hcode, rfl⟩
    exact ⟨_, ⟨name, code, hname, hcode, rfl⟩, rfl⟩

theorem resolve_gcp_eq_ok_iff (h : r.constructor? .gcp = some (.gcp c)) :
    (r.resolve (.remote .gcp keyAlias) algorithm parameters).outcome = .ok signer ↔
      ∃ n : KeyVersionName, n.IsWellFormed ∧ keyAlias = n.text ∧
        signer = (ServiceSigner.gcp ⟨n, c⟩).toSigner := by
  rw [outcome_resolve h, Constructor.gcp, Outcome.map_eq_ok_iff]
  simp only [GcpSigner.create_eq_ok_iff]
  constructor
  · rintro ⟨s, ⟨n, hn, hpath, rfl⟩, rfl⟩
    exact ⟨n, hn, hpath, rfl⟩
  · rintro ⟨n, hn, hpath, rfl⟩
    exact ⟨_, ⟨n, hn, hpath, rfl⟩, rfl⟩

/-- What is resolved with the constructors of both services, and what it asks for. A key of Cloud
KMS is resolved if its alias is the well-formed name of a version of a key, whatever the algorithm,
and each signature is asked for under the alias itself and without an algorithm. A key of AWS KMS is
resolved if the algorithm is one of those with a code and the alias, without its mark, is not empty;
each signature is asked for under the marked alias and with the code, which no other algorithm has,
and that name resolves to the same signer again. Parameters make no difference to anything. -/
theorem requests_of_resolution (r : Registry) (c d : ConnectorId)
    (haws : r.constructor? .aws = some (.aws c)) (hgcp : r.constructor? .gcp = some (.gcp d))
    (keyAlias algorithm : String) (parameters : Option SignatureAlgorithm.Parameters) :
    let aws := r.resolve (.remote .aws keyAlias) algorithm parameters
    let gcp := r.resolve (.remote .gcp keyAlias) algorithm parameters
    ((∃ signer, gcp.outcome = .ok signer) ↔
      ∃ n : KeyVersionName, n.IsWellFormed ∧ keyAlias = n.text) ∧
    (∀ signer, gcp.outcome = .ok signer →
      signer.Sends d fun message => ⟨keyAlias, none, message⟩) ∧
    (∀ other, (r.resolve (.remote .gcp keyAlias) other parameters).outcome = gcp.outcome) ∧
    ((∃ signer, aws.outcome = .ok signer) ↔
      (∃ code, (algorithm, code) ∈ Aws.codes) ∧ ∃ name, Aws.IsNameOf name keyAlias ∧ name ≠ "") ∧
    (∀ signer, aws.outcome = .ok signer → ∃ name code,
      Aws.IsNameOf name keyAlias ∧ (algorithm, code) ∈ Aws.codes ∧
      (signer.Sends c fun message => ⟨"alias/" ++ name, some code, message⟩) ∧
      (r.resolve (.remote .aws ("alias/" ++ name)) algorithm parameters).outcome = .ok signer) ∧
    (∀ a b code, (a, code) ∈ Aws.codes → (b, code) ∈ Aws.codes → a = b) ∧
    ∀ other, r.resolve (.remote .aws keyAlias) algorithm other = aws ∧
      r.resolve (.remote .gcp keyAlias) algorithm other = gcp := by
  intro aws gcp
  refine ⟨?_, ?_, ?_, ?_, ?_, fun a b code => Aws.eq_of_mem_codes, fun other => ⟨rfl, rfl⟩⟩
  · simp only [gcp, resolve_gcp_eq_ok_iff hgcp]
    constructor
    · rintro ⟨signer, n, hn, hpath, -⟩
      exact ⟨n, hn, hpath⟩
    · rintro ⟨n, hn, hpath⟩
      exact ⟨_, n, hn, hpath, rfl⟩
  · intro signer h
    obtain ⟨n, -, rfl, rfl⟩ := (resolve_gcp_eq_ok_iff hgcp).mp h
    exact ServiceSigner.sends_toSigner _
  · intro other
    rw [outcome_resolve hgcp, outcome_resolve hgcp]
    rfl
  · simp only [aws, resolve_aws_eq_ok_iff haws]
    constructor
    · rintro ⟨signer, name, code, hname, hcode, -⟩
      exact ⟨⟨code, hcode⟩, name, hname⟩
    · rintro ⟨⟨code, hcode⟩, name, hname⟩
      exact ⟨_, name, code, hname, hcode, rfl⟩
  · intro signer h
    obtain ⟨name, code, ⟨hname, hne⟩, hcode, rfl⟩ := (resolve_aws_eq_ok_iff haws).mp h
    refine ⟨name, code, hname, hcode, ServiceSigner.sends_toSigner _, ?_⟩
    exact (resolve_aws_eq_ok_iff haws).mpr ⟨name, code, ⟨.inl rfl, hne⟩, hcode, rfl⟩

/-- An alias that is marked twice, and the name of a version of a key without an algorithm. -/
theorem requests_of_resolution_marked_twice :
    let r := ((empty.registerAws 1).1.registerGcp 2).1
    let path := "projects/p/locations/l/keyRings/r/cryptoKeys/k/cryptoKeyVersions/1"
    r.constructor? .aws = some (.aws 1) ∧ r.constructor? .gcp = some (.gcp 2) ∧
      (∃ signer, (r.resolve (.remote .aws "alias/alias/x") "SHA256withECDSA" none).outcome =
          .ok signer ∧
        signer.Sends 1 fun message => ⟨"alias/alias/x", some "ECDSA_SHA_256", message⟩) ∧
      ∃ signer, (r.resolve (.remote .gcp path) "" none).outcome = .ok signer ∧
        signer.Sends 2 fun message => ⟨path, none, message⟩ := by
  intro r path
  have haws : r.constructor? .aws = some (.aws 1) := by rfl
  have hgcp : r.constructor? .gcp = some (.gcp 2) := by rfl
  obtain ⟨-, -, -, hresolved, hsent, -⟩ :=
    requests_of_resolution r 1 2 haws hgcp "alias/alias/x" "SHA256withECDSA" none
  obtain ⟨hresolved', hsent', -⟩ := requests_of_resolution r 1 2 haws hgcp path "" none
  obtain ⟨signer, hsigner⟩ := hresolved.mpr
    ⟨⟨"ECDSA_SHA_256", by decide⟩, "alias/x", .inl (by decide), by decide⟩
  obtain ⟨signer', hsigner'⟩ := hresolved'.mpr
    ⟨⟨"p", "l", "r", "k", "1"⟩, by decide, by decide⟩
  obtain ⟨name, code, hname, hcode, hsends, -⟩ := hsent signer hsigner
  obtain rfl : name = "alias/x" :=
    String.toList_injective ((Aws.isNameOf_iff.mp hname).symm.trans (by decide))
  obtain rfl : code = "ECDSA_SHA_256" :=
    Option.some_inj.mp ((Aws.codeOfName?_eq_some_iff.mpr hcode).symm.trans (by decide))
  exact ⟨haws, hgcp, ⟨signer, hsigner, hsends⟩, signer', hsigner', hsent' signer' hsigner'⟩

end Registry

end KeyCustody
