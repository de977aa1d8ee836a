import KeyCustody.Command.Info
import KeyCustody.Proofs.Host
import KeyCustody.Proofs.PublicDocument
import KeyCustody.Proofs.Text.Hex

/-!
# What is shown of a key file

Of a private key file only the public document of the key is shown, its armor and its digest, and
beyond that the type and the size of the key, which the document tells as well, and the size of the
file. So two files of one size with keys of one public document cannot be told apart by what is
shown of them, whatever else is in them.

## Main definitions

* `infoText` — what is printed of a key and of the size of its file

## Main results

* `Rehearsal.info_eq_ok_iff` — of which files something is shown, and what
* `keyText_eq_of_publicDocument_eq` — what is shown is determined by the public document
* `Rehearsal.info_shows_public` — the digest is that of the armored document, and nothing that is
  not public is shown
-/

namespace KeyCustody

variable {k k' : PrivateKey}

/-! ## The text -/

/-- What is printed of a key and of the size of its file. -/
def infoText (path : String) (k : PrivateKey) (fileSize : Nat) : String :=
  "Key info: " ++ path ++ "\n\n" ++ keyText k fileSize ++ "\n"

/-- Under the digest there is a blank line, and then the armor. -/
theorem exists_keyText_eq (k : PrivateKey) (fileSize : Nat) : ∃ front back,
    keyText k fileSize =
      front ++ "  SPKI SHA-256: " ++ k.fingerprint ++ "\n\n" ++ k.publicText ++ back := by
  refine ⟨"\n".intercalate [
    "Key type: private",
    "Algorithm: " ++ k.keyType.name,
    "Size: " ++ k.bits.repr ++ " bits",
    "Signature algorithms: " ++ ", ".intercalate (algorithmNames k.keyType),
    "Default algorithm: " ++ (SignatureAlgorithm.preferred k.keyType).name,
    "",
    "Public key:"] ++ "\n",
    "\n" ++ "\n".intercalate ["File info:",
    "  File size: " ++ fileSize.repr ++ " bytes",
    "",
    "⚠ Keep the private key file safe!"], ?_⟩
  have hblank : "\n\n" = "\n" ++ "\n" := rfl
  simp only [keyText, String.intercalate_cons_cons, String.intercalate_singleton, hblank,
    String.append_assoc, String.empty_append]

/-- The public document settles everything that is shown of a key. -/
theorem keyText_eq_of_publicDocument_eq
    (h : k.publicDocument.content.length < Der.lengthLimit)
    (heq : k.publicDocument = k'.publicDocument) (fileSize : Nat) :
    keyText k fileSize = keyText k' fileSize := by
  obtain ⟨htype, hbits⟩ := PrivateKey.keyType_and_bits_eq h heq
  have hdigest : k.fingerprint = k'.fingerprint := by
    rw [PrivateKey.fingerprint, PrivateKey.fingerprint, PrivateKey.encodePublic,
      PrivateKey.encodePublic, heq]
  have harmor : k.publicText = k'.publicText := by
    rw [PrivateKey.publicText, PrivateKey.publicText, heq]
  rw [keyText, keyText, htype, hbits, hdigest, harmor]

theorem PrivateKey.decode?_publicText (h : k.publicDocument.content.length < Der.lengthLimit) :
    Pem.decode? (Octets.ofText k.publicText) = some ⟨Pem.publicKeyLabel, k.encodePublic⟩ := by
  obtain ⟨t, ht, hdecode⟩ := exists_ofText_armored h
  rw [publicText, Octets.toText?_eq_some_iff.mpr ht, Option.getD_some, hdecode]

/-! ## The command -/

namespace Rehearsal

variable {path : String} {s s' : Scene}

/-- A heading is shown in any case, and behind it what is shown of a key, if one is loaded. -/
theorem info_apply (path : String) (s : Scene) :
    (Command.info path : CommandM Rehearsal Unit) s =
      match s.files.require path >>= fun _ => (s.files.key path).mapError .key with
      | .ok (k, fileSize) => (.ok (), s.printing (infoText path k fileSize))
      | .error e => (.error e, s.printing ("Key info: " ++ path ++ "\n\n")) := by
  let heading := s.printing ("Key info: " ++ path ++ "\n\n")
  have hheading : (s.printing ("Key info: " ++ path ++ "\n")).printing ("" ++ "\n") = heading := by
    rw [Scene.printing_printing, String.empty_append, String.append_assoc]
    rfl
  rw [Command.info, bind_of_ok (say_apply _ s), bind_of_ok (say_apply _ _), hheading]
  have hrequire := require_apply path heading
  have hload := loadKey_apply path heading
  rw [show heading.files = s.files from rfl] at hrequire hload
  cases hpresent : s.files.require path with
  | error e =>
    rw [hpresent] at hrequire
    exact bind_of_error hrequire
  | ok _ =>
    rw [hpresent] at hrequire
    rw [bind_of_ok hrequire]
    cases hkey : s.files.key path with
    | error e =>
      rw [hkey] at hload
      exact bind_of_error hload
    | ok loaded =>
      rw [hkey] at hload
      obtain ⟨k, fileSize⟩ := loaded
      have htext : infoText path k fileSize =
          "Key info: " ++ path ++ "\n\n" ++ (keyText k fileSize ++ "\n") := by
        rw [infoText, String.append_assoc]
      rw [bind_of_ok hload]
      dsimp only [bind, Except.bind, Except.mapError]
      rw [htext, ← Scene.printing_printing]
      rfl

/-- Something is shown of a file exactly if a key is loaded from it. -/
theorem info_eq_ok_iff : (Command.info path : CommandM Rehearsal Unit) s = (.ok (), s') ↔
    ∃ content k, s.files.read path = .ok content ∧ PrivateKey.ofFile content = .ok k ∧
      s' = s.printing (infoText path k content.length) := by
  rw [info_apply]
  constructor
  · intro h
    cases hresult : s.files.require path >>= fun _ => (s.files.key path).mapError .key with
    | error e =>
      rw [hresult] at h
      cases (Prod.mk.inj h).1
    | ok loaded =>
      obtain ⟨k, fileSize⟩ := loaded
      rw [hresult] at h
      obtain ⟨-, -, hkey⟩ := Outcome.bind_eq_ok_iff.mp hresult
      obtain ⟨content, hread, hk, rfl⟩ :=
        FileTree.key_eq_ok_iff.mp (Outcome.mapError_eq_ok_iff.mp hkey)
      exact ⟨content, k, hread, hk, (Prod.mk.inj h).2.symm⟩
  · rintro ⟨content, k, hread, hk, rfl⟩
    rw [FileTree.require_of_read hread, FileTree.key_eq_ok_iff.mpr ⟨content, hread, hk, rfl⟩]
    rfl

/-- Only the public document of a key is shown of it, and consistently. If anything is shown of a
key file, then the digest that is shown is, in lowercase digits, that of the very octets in the
armor that is shown below it, and these are the public document of the key in the file. And what is
shown of two files of one size under one path is the same, if the public documents of their keys
are, whatever else is in the files and in whatever form. -/
theorem info_shows_public :
    (∀ (path : String) (s s' : Scene),
      (Command.info path : CommandM Rehearsal Unit) s = (.ok (), s') →
      ∃ content k front digest armor back,
        s.files.read path = .ok content ∧ PrivateKey.ofFile content = .ok k ∧
        s' = s.printing (front ++ "  SPKI SHA-256: " ++ digest ++ "\n\n" ++ armor ++ back) ∧
        digest = Hex.encode (Sha256.hash k.encodePublic) ∧
        (∀ c ∈ digest.toList, '0' ≤ c ∧ c ≤ '9' ∨ 'a' ≤ c ∧ c ≤ 'f') ∧
        Pem.decode? (Octets.ofText armor) = some ⟨Pem.publicKeyLabel, k.encodePublic⟩ ∧
        PublicKeyDocument.decode? k.encodePublic = some k.publicDocument) ∧
    ∀ (path : String) (s₁ s₂ : Scene) (content₁ content₂ : Octets) (k₁ k₂ : PrivateKey),
      s₁.files.read path = .ok content₁ → s₂.files.read path = .ok content₂ →
      content₁.length = content₂.length → PrivateKey.ofFile content₁ = .ok k₁ →
      PrivateKey.ofFile content₂ = .ok k₂ → k₁.encodePublic = k₂.encodePublic →
      ∃ text, (Command.info path : CommandM Rehearsal Unit) s₁ = (.ok (), s₁.printing text) ∧
        (Command.info path : CommandM Rehearsal Unit) s₂ = (.ok (), s₂.printing text) := by
  constructor
  · intro path s s' h
    obtain ⟨content, k, hread, hk, rfl⟩ := info_eq_ok_iff.mp h
    have hlength := PrivateKey.length_publicDocument_lt_of_ofFile hk
    obtain ⟨front, back, htext⟩ := exists_keyText_eq k content.length
    refine ⟨content, k, "Key info: " ++ path ++ "\n\n" ++ front, k.fingerprint, k.publicText,
      back ++ "\n", hread, hk, ?_, rfl, Hex.isDigit_of_mem_encode, k.decode?_publicText hlength,
      PrivateKey.decode?_encodePublic hlength⟩
    rw [infoText, htext]
    simp only [String.append_assoc]
  · intro path s₁ s₂ content₁ content₂ k₁ k₂ hread₁ hread₂ hsize hk₁ hk₂ hpublic
    have hlength₁ := PrivateKey.length_publicDocument_lt_of_ofFile hk₁
    have hlength₂ := PrivateKey.length_publicDocument_lt_of_ofFile hk₂
    -- The encoded documents are the same, and so are the documents that are read from them.
    have hdocument : k₁.publicDocument = k₂.publicDocument := by
      have hdecode := PrivateKey.decode?_encodePublic hlength₂
      rw [← hpublic, PrivateKey.decode?_encodePublic hlength₁] at hdecode
      exact Option.some_inj.mp hdecode
    have htext : infoText path k₂ content₂.length = infoText path k₁ content₁.length := by
      rw [infoText, infoText, keyText_eq_of_publicDocument_eq hlength₁ hdocument, hsize]
    exact ⟨infoText path k₁ content₁.length,
      info_eq_ok_iff.mpr ⟨content₁, k₁, hread₁, hk₁, rfl⟩,
      info_eq_ok_iff.mpr ⟨content₂, k₂, hread₂, hk₂, by rw [htext]⟩⟩

/-- Two RSA keys of one modulus, with the factors in another order, another private exponent, and
remainders that are not looked at. -/
theorem info_shows_public_swapped :
    let content₁ := PrivateKeyDocument.encode
      ⟨Rsa.algorithm, Rsa.encodeNaturals [0, 55, 3, 7, 5, 11, 3, 7, 1], none⟩
    let content₂ := PrivateKeyDocument.encode
      ⟨Rsa.algorithm, Rsa.encodeNaturals [0, 55, 3, 27, 11, 5, 0, 0, 0], none⟩
    let scene (content : Octets) := Scene.start (FileTree.ofList [("k.der", .file content)])
      fun _ => ⟨.ok (), fun _ => .ok [], none⟩
    let info (content : Octets) := (Command.info "k.der" : CommandM Rehearsal Unit) (scene content)
    ∃ text front digest armor back body, content₁ ≠ content₂ ∧
      info content₁ = (.ok (), (scene content₁).printing text) ∧
      info content₂ = (.ok (), (scene content₂).printing text) ∧
      text = front ++ "  SPKI SHA-256: " ++ digest ++ "\n\n" ++ armor ++ back ∧
      digest = Hex.encode (Sha256.hash body) ∧
      Pem.decode? (Octets.ofText armor) = some ⟨Pem.publicKeyLabel, body⟩ := by
  intro content₁ content₂ scene info
  let r : Rsa.PrivateKey := ⟨⟨55, 3, rfl, rfl, by decide, by decide, by decide⟩, 27, 11, 5,
    by decide, by decide, rfl, rfl, rfl⟩
  have hk₁ : PrivateKey.ofFile content₁ = .ok (.rsa PrivateKey.smallRsa) :=
    PrivateKey.ofFile_of_ofOctets
      (PrivateKey.ofOctets_encodeNaturals (r := PrivateKey.smallRsa) (by decide))
  have hk₂ : PrivateKey.ofFile content₂ = .ok (.rsa r) :=
    PrivateKey.ofFile_of_ofOctets (PrivateKey.ofOctets_encodeNaturals (r := r) (by decide))
  have hread (content : Octets) : (scene content).files.read "k.der" = .ok content := by
    have hplace : Path.segments "k.der" = ["k.der"] := by decide
    have hfiles : (scene content).files = ⟨[(["k.der"], .file content)]⟩ := by
      simp [scene, Scene.start, FileTree.ofList, FileTree.putParents, FileTree.put,
        FileTree.setEntry, FileTree.empty, hplace]
    rw [hfiles]
    exact FileTree.read_eq_ok_iff.mpr ⟨["k.der"], rfl, rfl⟩
  have hsize : content₁.length = content₂.length := by
    simp only [content₁, content₂]
    decide_cbv
  have hother : content₁ ≠ content₂ := by
    simp only [content₁, content₂]
    decide_cbv
  obtain ⟨hshown, hsame⟩ := info_shows_public
  obtain ⟨text, hinfo₁, hinfo₂⟩ := hsame "k.der" (scene content₁) (scene content₂) content₁ content₂
    (.rsa PrivateKey.smallRsa) (.rsa r) (hread content₁) (hread content₂) hsize hk₁ hk₂ rfl
  obtain ⟨_, k, front, digest, armor, back, -, -, hprinted, hdigest, -, harmor, -⟩ :=
    hshown "k.der" _ _ hinfo₁
  have htext := congrArg Scene.printed hprinted
  simp only [Scene.printing, show (scene content₁).printed = "" from rfl,
    String.empty_append] at htext
  exact ⟨text, front, digest, armor, back, k.encodePublic, hother, hinfo₁, hinfo₂, htext, hdigest,
    harmor⟩

end Rehearsal

end KeyCustody
