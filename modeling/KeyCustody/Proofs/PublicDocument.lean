import KeyCustody.Proofs.ArmoredKey

/-!
# Public documents of loaded keys

Only the numbers of an RSA key can be so long that no length can be written in front of them. Those
of a loaded key cannot, because its public document holds less than the document it was loaded from.
So the public document of a loaded key is always one that can be read back, also where no reader of
public keys would accept the size of the key. It tells the type and the size of the key.

## Main results

* `PrivateKey.exists_ofOctets_of_ofFile` — what a file is loaded from
* `PrivateKey.length_publicDocument_lt` — the length of the public document can be written
* `PrivateKey.decode?_encodePublic`, `PrivateKey.exists_ofText_armored` — the public document is
  read back, also from its armor
* `PrivateKey.keyType_and_bits_eq` — type and size are determined by the public document
-/

namespace KeyCustody

open Der

/-- Keys on curves have short public keys. -/
theorem PublicKeyDocument.length_content_lt {a : AlgorithmIdentifier} {key : Octets}
    (ha : a.encode.length ≤ 21) (hkey : key.length ≤ 65) :
    (content ⟨a, key⟩).length < lengthLimit := by
  have hbits := length_encode_le (e := ⟨bitStringTag, 0 :: key⟩)
    (lt_lengthLimit (Nat.succ_le_succ hkey) (by decide))
  rw [List.length_cons] at hbits
  apply lt_lengthLimit (k := 216) _ (by decide)
  calc (content ⟨a, key⟩).length
    _ = a.encode.length + (Element.encode ⟨bitStringTag, 0 :: key⟩).length := List.length_append
    _ ≤ 216 := by omega

/-! ## RSA keys -/

/-- The public document of an RSA key holds less than the document that the key was read from. -/
theorem Rsa.PrivateKey.length_publicDocument_lt_of_decode? {b : Octets} {d : PrivateKeyDocument}
    {k : Rsa.PrivateKey} (hdecode : PrivateKeyDocument.decode? b = some d)
    (hk : ofDocument? d = some k) : k.publicKey.document.content.length < lengthLimit := by
  have hlength := PrivateKeyDocument.length_lt_of_decode? hdecode
  have hbits := length_encode_add_le (k := 0)
    (e := ⟨bitStringTag, 0 :: k.publicKey.document.publicKey⟩)
    (f := ⟨octetStringTag, d.privateKey⟩) (length_publicKey_lt_of_ofDocument? hk)
  rw [algorithm_of_ofDocument? hk, List.length_append] at hlength
  calc k.publicKey.document.content.length
    _ = Rsa.algorithm.encode.length +
        (Element.encode ⟨bitStringTag, 0 :: k.publicKey.document.publicKey⟩).length :=
      List.length_append
    _ ≤ Rsa.algorithm.encode.length + (Element.encode ⟨octetStringTag, d.privateKey⟩).length :=
      Nat.add_le_add_left hbits _
    _ < lengthLimit := hlength

namespace Rsa.PublicKey

variable {k k' : PublicKey}

theorem length_numbers_lt (h : k.document.content.length < lengthLimit) :
    k.numbers.length < lengthLimit := by
  have hbits : k.numbers <:+: k.document.content :=
    calc k.numbers
      _ <:+: k.document.publicKey := Element.content_infix_encode ⟨sequenceTag, k.numbers⟩
      _ <:+: 0 :: k.document.publicKey := (List.suffix_cons _ _).isInfix
      _ <:+: Element.encode ⟨bitStringTag, 0 :: k.document.publicKey⟩ :=
        Element.content_infix_encode ⟨bitStringTag, _⟩
      _ <:+: k.document.content := (List.suffix_append _ _).isInfix
  exact hbits.length_le.trans_lt h

/-- The modulus is the first of the written numbers. -/
theorem modulus_eq_of_document_eq (h : k.document.content.length < lengthLimit)
    (heq : k.document = k'.document) : k.modulus = k'.modulus := by
  have hread {j : PublicKey} (hj : j.document.content.length < lengthLimit) :
      sole? sequenceTag j.document.publicKey = some j.numbers ∧
        takeNatural? j.numbers = some (j.modulus, encodeNatural j.exponent ++ []) := by
    have hnumbers := length_numbers_lt hj
    refine ⟨sole?_encodeSequence hnumbers, takeNatural?_encodeNatural ?_ _⟩
    exact ((Element.content_infix_encode ⟨integerTag, naturalContent j.modulus⟩).trans
      (List.prefix_append _ _).isInfix).length_le.trans_lt hnumbers
  -- Both readers take the first number of the same octets.
  obtain ⟨hnumbers, hmodulus⟩ := hread h
  obtain ⟨hnumbers', hmodulus'⟩ := hread (heq ▸ h)
  rw [← heq, hnumbers, Option.some_inj] at hnumbers'
  rw [← hnumbers', hmodulus, Option.some_inj] at hmodulus'
  exact (Prod.mk.inj hmodulus').1

end Rsa.PublicKey

/-! ## Keys of any type -/

namespace PrivateKey

variable {k k' : PrivateKey} {b : Octets}

/-- A key in a file is loaded from the file as it is, or from the document in armor. -/
theorem exists_ofOctets_of_ofFile (h : ofFile b = .ok k) : ∃ d, ofOctets d = .ok k := by
  rw [ofFile_eq_ok_iff] at h
  split_ifs at h
  · obtain ⟨d, -, hd⟩ := ofArmored_eq_ok_iff.mp h.2
    exact ⟨d, hd⟩
  · exact ⟨b, h⟩

theorem isWritten_algorithm (k : PrivateKey) : k.publicDocument.algorithm.IsWritten := by
  cases k with
  | rsa r => exact Rsa.algorithm_isWritten
  | p256 r => exact P256.algorithm_isWritten
  | ed25519 r => exact Ed25519.algorithm_isWritten

/-- The length of the public document of a loaded key can be written. -/
theorem length_publicDocument_lt (h : ofOctets b = .ok k) :
    k.publicDocument.content.length < lengthLimit := by
  cases k with
  | rsa r =>
    obtain ⟨d, hdecode, type, -, hread⟩ := ofOctets_eq_ok_iff.mp h
    obtain rfl := keyType_of_ofDocument? hread
    obtain ⟨r, hr, ⟨⟩⟩ := Option.map_eq_some_iff.mp hread
    exact Rsa.PrivateKey.length_publicDocument_lt_of_decode? hdecode hr
  | p256 r =>
    exact PublicKeyDocument.length_content_lt P256.length_encode_algorithm.le
      r.publicKey.point.length_encode_le
  | ed25519 r =>
    have halgorithm : Ed25519.algorithm.encode.length ≤ 21 := by
      rw [Ed25519.length_encode_algorithm]
      decide
    have hkey : r.publicOctets.length ≤ 65 := by
      rw [r.length_publicOctets]
      decide
    exact PublicKeyDocument.length_content_lt halgorithm hkey

theorem length_publicDocument_lt_of_ofFile (h : ofFile b = .ok k) :
    k.publicDocument.content.length < lengthLimit := by
  obtain ⟨d, hd⟩ := exists_ofOctets_of_ofFile h
  exact length_publicDocument_lt hd

theorem decode?_encodePublic (h : k.publicDocument.content.length < lengthLimit) :
    PublicKeyDocument.decode? k.encodePublic = some k.publicDocument :=
  PublicKeyDocument.decode?_encode_of_length_content k.isWritten_algorithm h

/-- The armor of the public document is a text, and it stands around the document. -/
theorem exists_ofText_armored (h : k.publicDocument.content.length < lengthLimit) :
    ∃ t, Octets.ofText t = k.publicDocument.armored ∧
      Pem.decode? (Octets.ofText t) = some ⟨Pem.publicKeyLabel, k.encodePublic⟩ := by
  have helement := PublicKeyDocument.isElement_of_decode? (decode?_encodePublic h)
  obtain ⟨t, ht⟩ := PublicKeyDocument.exists_ofText_encode helement
  refine ⟨t, ht, ?_⟩
  rw [ht]
  exact (PublicKeyDocument.isArmor_encode helement).decode?_eq

/-- Public and private documents name the same algorithm. -/
theorem typeOfAlgorithm_publicDocument (k : PrivateKey) :
    typeOfAlgorithm k.publicDocument.algorithm = .ok k.keyType := by
  cases k <;> rfl

/-- The public document tells the type and the size of a key. -/
theorem keyType_and_bits_eq (h : k.publicDocument.content.length < lengthLimit)
    (heq : k.publicDocument = k'.publicDocument) :
    k.keyType = k'.keyType ∧ k.bits = k'.bits := by
  have htype : k.keyType = k'.keyType := by
    have hread := k'.typeOfAlgorithm_publicDocument
    rw [← heq, k.typeOfAlgorithm_publicDocument] at hread
    exact Except.ok.inj hread
  refine ⟨htype, ?_⟩
  cases k <;> cases k' <;> cases htype
  · next r r' =>
    have hmodulus := Rsa.PublicKey.modulus_eq_of_document_eq h heq
    simp only [bits, Rsa.PrivateKey.size, Rsa.PublicKey.size, hmodulus]
  · rfl
  · rfl

end PrivateKey

end KeyCustody
