import KeyCustody.Proofs.Command.Wrap

/-!
# Private keys in place of wrapping keys

A private key that is given for a wrapping key by mistake never passes for one. In armor it is told
by its label, which is looked for in the whole file. A document is handed on as it is, and nothing
looks for private keys in it; it is refused when the package is made, because the reader of public
keys finds a version where it expects an algorithm.

## Main results

* `PrivateKey.rsaPublicKey_eq_none_of_ofOctets` — no document is that of a private and of a public
  key
* `wrappingDocument_of_ofFile` — what is taken from a file that holds a private key
* `WrapFlags.exists_package_eq_error` — there is no package under a private key
* `Rehearsal.wrapFile_refuses_privateKey` — wrapping fails, and nothing is written
-/

namespace KeyCustody

variable {b : Octets} {k : PrivateKey}

/-! ## The content of a file -/

/-- The envelope of a private key is none of a public key, whatever is in it. -/
theorem PrivateKey.rsaPublicKey_eq_none_of_ofOctets (h : ofOctets b = .ok k) :
    Rsa.PublicKey.decode? b = none := by
  obtain ⟨d, hd, -⟩ := ofOctets_eq_ok_iff.mp h
  rw [Rsa.PublicKey.decode?, PublicKeyDocument.decode?_eq_none_of_privateKey hd]
  rfl

/-- The armor of a private key has the mark of private keys in its boundaries. -/
theorem PrivateKey.mark_infix_of_ofArmored (h : ofArmored b = .ok k) : privateKeyMark <:+: b := by
  obtain ⟨d, ⟨-, -, -, -, -, -, -⟩, -⟩ := ofArmored_eq_ok_iff.mp h
  next preamble opened lines closed ending =>
  -- The mark is the label itself, and the first boundary has it behind the opening.
  exact ⟨preamble ++ Pem.opening, Pem.dashes ++ opened ++ lines ++ closed ++
    (Pem.closing ++ Pem.privateKeyLabel ++ Pem.dashes) ++ ending,
    by simp [privateKeyMark, Pem.privateKeyLabel]⟩

/-- A private key in armor is told apart at once; a document is taken for what it is not. -/
theorem wrappingDocument_of_ofFile (h : PrivateKey.ofFile b = .ok k) :
    wrappingDocument b =
      if Pem.isArmored b then .error (.invalidInput .privateWrappingKey) else .ok b := by
  rw [PrivateKey.ofFile_eq_ok_iff] at h
  rw [wrappingDocument]
  split_ifs at h ⊢ with harmored hmark
  · obtain ⟨⟨t, ht⟩, -⟩ := h
    rw [Octets.toText?_eq_some_iff.mpr ht]
  · exact absurd (Octets.occursIn_iff.mpr (PrivateKey.mark_infix_of_ofArmored h.2)) hmark
  · rfl

/-- No wrapping key is read from what is taken of a file that holds a private key. -/
theorem rsaPublicKey_eq_none_of_wrappingDocument (h : PrivateKey.ofFile b = .ok k)
    {document : Octets} (hdocument : wrappingDocument b = .ok document) :
    Rsa.PublicKey.decode? document = none := by
  rw [wrappingDocument_of_ofFile h] at hdocument
  rw [PrivateKey.ofFile_eq_ok_iff] at h
  split_ifs at h hdocument
  obtain rfl := Except.ok.inj hdocument
  exact PrivateKey.rsaPublicKey_eq_none_of_ofOctets h

/-! ## The package -/

variable {t : FileTree} {secrets : PackageSecrets} {flags : WrapFlags}

/-- Under a key that is not read nothing is wrapped. -/
theorem prepareImport_of_decode?_eq_none {document written : Octets}
    (h : Rsa.PublicKey.decode? document = none) (hwritten : k.encode = .ok written) :
    prepareImport secrets k document = .error (.crypto (.keyWrap .wrappingKey)) := by
  have hwrap : Package.wrap secrets document written = .error .wrappingKey :=
    Package.wrap_eq_error_iff.mpr (.inl ⟨h, rfl⟩)
  rw [prepareImport, hwritten]
  exact Outcome.mapError_eq_error_iff.mpr ⟨_, hwrap, rfl⟩

theorem FileTree.wrappingKey_of_read {path : String} (h : t.read path = .ok b) :
    t.wrappingKey path = wrappingDocument b := by
  rw [wrappingKey, require_of_read h, h]
  rfl

/-- There is no package under a private key. If the key file is in order, that is the reason. -/
theorem WrapFlags.exists_package_eq_error (secrets : PackageSecrets)
    (hread : t.read flags.wrappingKey = .ok b) (hb : PrivateKey.ofFile b = .ok k) :
    ∃ e, flags.package secrets t = .error e ∧
      ∀ target size written, t.key flags.key = .ok (target, size) → target.encode = .ok written →
        e = if Pem.isArmored b then .invalidInput .privateWrappingKey
          else .key (.crypto (.keyWrap .wrappingKey)) := by
  cases hp : flags.package secrets t with
  | ok p =>
    obtain ⟨-, target, wrapping, document, -, -, hwrapping, hdocument, himport⟩ :=
      package_eq_ok_iff.mp hp
    obtain rfl := Except.ok.inj (hread.symm.trans hwrapping)
    obtain ⟨written, -, hwrap⟩ := Outcome.bind_eq_ok_iff.mp himport
    obtain ⟨key, hkey, -⟩ := Package.wrap_eq_ok_iff.mp (Outcome.mapError_eq_ok_iff.mp hwrap)
    rw [rsaPublicKey_eq_none_of_wrappingDocument hb hdocument] at hkey
    cases hkey
  | error e =>
    refine ⟨e, rfl, fun target size written hkey hwritten => ?_⟩
    obtain ⟨content, hcontent, -, -⟩ := FileTree.key_eq_ok_iff.mp hkey
    rw [package, FileTree.require_of_read hcontent, hkey, FileTree.wrappingKey_of_read hread,
      wrappingDocument_of_ofFile hb] at hp
    -- In armor the key is refused by the third step, and as a document by the fourth.
    split_ifs at hp ⊢ with harmored
    · exact (Except.error.inj hp).symm
    · have hdocument : wrappingDocument b = .ok b := by
        rw [wrappingDocument_of_ofFile hb, if_neg harmored]
      have himport : prepareImport secrets target b = .error (.crypto (.keyWrap .wrappingKey)) :=
        prepareImport_of_decode?_eq_none (rsaPublicKey_eq_none_of_wrappingDocument hb hdocument)
          hwritten
      have hfails : (prepareImport secrets target b).mapError CommandError.key = .error e := hp
      rw [himport] at hfails
      exact (Except.error.inj hfails).symm

namespace Rehearsal

/-- A private key never passes for a wrapping key. Take any file from which a private key is loaded,
as a document or in armor, any key file, and any random octets. Wrapping with the first file for a
wrapping key fails, and writes nothing. Nothing but the wrapping key is to blame if the key file is
loaded and its key can be written: in armor it is called a private key, and as a document a key that
is not read. For no octets are the document of a private key and of an RSA public key at once. -/
theorem wrapFile_refuses_privateKey :
    (∀ (b : Octets) (k : PrivateKey), PrivateKey.ofFile b = .ok k →
      ∀ (secrets : PackageSecrets) (flags : WrapFlags) (s : Scene),
        s.files.read flags.wrappingKey = .ok b →
        ∃ e s', (wrapFile secrets flags : CommandM Rehearsal String) s = (.error e, s') ∧
          s'.files = s.files ∧
          ∀ target size written, s.files.key flags.key = .ok (target, size) →
            target.encode = .ok written →
              e = if Pem.isArmored b then .invalidInput .privateWrappingKey
                else .key (.crypto (.keyWrap .wrappingKey))) ∧
    ∀ (b : Octets) (k : PrivateKey) (key : Rsa.PublicKey),
      ¬ (PrivateKey.ofOctets b = .ok k ∧ Rsa.PublicKey.decode? b = some key) := by
  constructor
  · intro b k hb secrets flags s hread
    obtain ⟨e, hpackage, he⟩ := WrapFlags.exists_package_eq_error secrets hread hb
    obtain ⟨text, hrun⟩ := wrapFile_apply secrets flags s
    rw [hpackage] at hrun
    exact ⟨e, s.printing text, hrun, rfl, he⟩
  · rintro b k key ⟨hb, hkey⟩
    rw [PrivateKey.rsaPublicKey_eq_none_of_ofOctets hb] at hkey
    cases hkey

/-- Two key files, one in armor and one not, each given as the wrapping key for the other. -/
theorem wrapFile_refuses_privateKey_swapped :
    let d : Octets := [0x30, 0x2e, 0x02, 0x01, 0x00, 0x30, 0x05, 0x06, 0x03, 0x2b, 0x65, 0x70, 0x04,
      0x22, 0x04, 0x20] ++ List.replicate 32 7
    let s := Scene.start (FileTree.ofList [("a.pem", .file (Octets.ofText sampleArmor)),
      ("a.der", .file d)]) fun _ => ⟨.ok (), fun _ => .ok [], none⟩
    let wrap (key wrapping : String) := (wrapFile ⟨List.replicate 32 0x3c, List.replicate 20 0x5a⟩
      ⟨key, wrapping, none, false⟩ : CommandM Rehearsal String) s
    (∃ s', wrap "a.der" "a.pem" = (.error (.invalidInput .privateWrappingKey), s') ∧
      s'.files = s.files) ∧
    (∃ s', wrap "a.pem" "a.der" = (.error (.key (.crypto (.keyWrap .wrappingKey))), s') ∧
      s'.files = s.files) ∧
    ∃ k, PrivateKey.ofOctets d = .ok k ∧ Rsa.PublicKey.decode? d = none := by
  intro d s wrap
  let e : Ed25519.PrivateKey := ⟨List.replicate 32 7, rfl⟩
  let k : PrivateKey := .ed25519 e
  have hplain : PrivateKey.ofOctets d = .ok k := PrivateKey.ofOctets_ed25519_sevens
  have harmor : PrivateKey.ofFile (Octets.ofText sampleArmor) = .ok k :=
    (PrivateKey.ofFile_of_isArmored (by decide)).trans PrivateKey.ofText_sampleArmor
  have hreadPlain : s.files.read "a.der" = .ok d := by decide
  have hreadArmor : s.files.read "a.pem" = .ok (Octets.ofText sampleArmor) := by decide
  have hfile : PrivateKey.ofFile d = .ok k := PrivateKey.ofFile_of_ofOctets hplain
  have hwritten : k.encode = .ok e.document.encode :=
    PrivateKey.encode_eq_ok_iff.mpr ⟨e.document, rfl, rfl⟩
  obtain ⟨hrefuses, hdisjoint⟩ := wrapFile_refuses_privateKey
  have hisArmored : Pem.isArmored (Octets.ofText sampleArmor) = true := by decide
  have hisPlain : Pem.isArmored d = false := by decide
  obtain ⟨_, s₁, hrun₁, hfiles₁, he₁⟩ := hrefuses _ k harmor
    ⟨List.replicate 32 0x3c, List.replicate 20 0x5a⟩ ⟨"a.der", "a.pem", none, false⟩ s hreadArmor
  obtain ⟨_, s₂, hrun₂, hfiles₂, he₂⟩ := hrefuses _ k hfile
    ⟨List.replicate 32 0x3c, List.replicate 20 0x5a⟩ ⟨"a.pem", "a.der", none, false⟩ s hreadPlain
  have hreason₁ := he₁ k _ _ (FileTree.key_eq_ok_iff.mpr ⟨_, hreadPlain, hfile, rfl⟩) hwritten
  have hreason₂ := he₂ k _ _ (FileTree.key_eq_ok_iff.mpr ⟨_, hreadArmor, harmor, rfl⟩) hwritten
  rw [if_pos hisArmored] at hreason₁
  rw [if_neg (by rw [hisPlain]; decide)] at hreason₂
  refine ⟨⟨s₁, hreason₁ ▸ hrun₁, hfiles₁⟩, ⟨s₂, hreason₂ ▸ hrun₂, hfiles₂⟩, k, hplain, ?_⟩
  exact Option.eq_none_iff_forall_ne_some.mpr fun key hkey => hdisjoint d k key ⟨hplain, hkey⟩

end Rehearsal

end KeyCustody
