import KeyCustody.P256.Key
import KeyCustody.Proofs.Der.KeyDocument

/-!
# Reading back documents of keys on P-256

The inner document of a private key is written without the curve, and with the public key in its
longer form. Reading it back passes over the place of the curve, where an element of a greater
number stands, and finds the public key to be that of the scalar.

## Main results

* `P256.PrivateKey.decode?_encode_document`, `P256.PrivateKey.ofDocument?_document` — the private
  key in its envelope
* `P256.PublicKey.decode?_encode` — the public key in its envelope
-/

namespace KeyCustody.P256

open Der

theorem algorithm_isWritten : algorithm.IsWritten where
  arcs := by decide
  parameters := by
    rintro e ⟨⟩
    exact ⟨by decide, lt_lengthLimit (k := 8) (by decide) (by decide)⟩
  length_content := lt_lengthLimit (k := 19) (by decide) (by decide)

theorem length_encode_algorithm : algorithm.encode.length = 21 := by decide

theorem Point.length_encode_le (s : Point) : s.encode.length ≤ 65 := by
  cases s with
  | infinity => simp [encode]
  | affine x y => simp [encode]

namespace PublicKey

/-- A public key is read back if its point is. -/
theorem decode?_encode {k : PublicKey} (h : Point.decode? k.point.encode = some k.point) :
    decode? k.encode = some k := by
  have hdocument : PublicKeyDocument.decode? k.encode = some k.document := by
    apply PublicKeyDocument.decode?_encode algorithm_isWritten
    have hpoint := k.point.length_encode_le
    change algorithm.encode.length + k.point.encode.length < 2 ^ 127
    rw [length_encode_algorithm]
    omega
  have halgorithm : k.document.algorithm = algorithm := rfl
  have hpublic : k.document.publicKey = k.point.encode := rfl
  rw [decode?, hdocument]
  simp [ofDocument?, halgorithm, hpublic, h]

end PublicKey

namespace PrivateKey

theorem ofScalar?_scalar (k : PrivateKey) : ofScalar? k.scalar = some k :=
  dif_pos ⟨k.scalar_pos, k.scalar_lt⟩

theorem toNat_ofNatWidth_scalar (k : PrivateKey) :
    Octets.toNat (Octets.ofNatWidth 32 k.scalar) = k.scalar :=
  Octets.toNat_ofNatWidth_of_lt (k.scalar_lt.trans (by decide))

/-- The public key as the inner document holds it. -/
def publicBits (k : PrivateKey) : Octets :=
  Element.encode ⟨bitStringTag, 0 :: k.publicKey.point.encode⟩

theorem length_publicBits_le (k : PrivateKey) : k.publicBits.length ≤ 195 := by
  have hpoint := k.publicKey.point.length_encode_le
  have hlength : (0 :: k.publicKey.point.encode : Octets).length ≤ 66 := Nat.succ_le_succ hpoint
  have hbits : k.publicBits.length ≤ (0 :: k.publicKey.point.encode : Octets).length + 129 :=
    Der.length_encode_le (lt_lengthLimit hlength (by decide))
  omega

/-- The content of the sequence in the inner document. -/
def fields (k : PrivateKey) : Octets :=
  encodeNatural 1 ++ Element.encode ⟨octetStringTag, Octets.ofNatWidth 32 k.scalar⟩ ++
    Element.encode ⟨0xa1, k.publicBits⟩

theorem content_eq (k : PrivateKey) : k.content = encodeSequence k.fields := rfl

theorem length_fields_le (k : PrivateKey) : k.fields.length ≤ 488 := by
  have hversion : (encodeNatural 1).length = 3 := by
    rw [encodeNatural_of_lt (by decide)]
    rfl
  have hscalar : (Element.encode ⟨octetStringTag, Octets.ofNatWidth 32 k.scalar⟩).length ≤
      (Octets.ofNatWidth 32 k.scalar).length + 129 :=
    Der.length_encode_le (lt_lengthLimit (Octets.length_ofNatWidth 32 _).le (by decide))
  have hpublic : (Element.encode ⟨0xa1, k.publicBits⟩).length ≤ k.publicBits.length + 129 :=
    Der.length_encode_le (lt_lengthLimit k.length_publicBits_le (by decide))
  have hbits := k.length_publicBits_le
  rw [Octets.length_ofNatWidth] at hscalar
  rw [fields, List.length_append, List.length_append, hversion]
  omega

/-- The place of the curve is passed over: what stands there has a greater number. -/
theorem takeCurve?_publicKey (k : PrivateKey) :
    takeCurve? (Element.encode ⟨0xa1, k.publicBits⟩) =
      some (Element.encode ⟨0xa1, k.publicBits⟩) := by
  have hread := takeContext?_of_lt (e := ⟨0xa1, k.publicBits⟩) (show isTag 0xa1 = true by decide)
    (show 0 < tagNumber 0xa1 by decide) []
  rw [List.append_nil] at hread
  simp [takeCurve?, hread]

theorem publicOctets?_publicKey (k : PrivateKey) :
    publicOctets? (Element.encode ⟨0xa1, k.publicBits⟩) = some (some k.publicKey.point.encode) := by
  have hread := takeContext?_encode (e := ⟨0xa1, k.publicBits⟩) (show isTag 0xa1 = true by decide)
    (show isContext 0xa1 = true by decide) (show tagNumber 0xa1 = 1 by decide)
    (lt_lengthLimit k.length_publicBits_le (by decide)) []
  have hpoint := k.publicKey.point.length_encode_le
  have hlength : (0 :: k.publicKey.point.encode : Octets).length ≤ 66 := Nat.succ_le_succ hpoint
  have hbits : sole? bitStringTag k.publicBits = some (0 :: k.publicKey.point.encode) :=
    sole?_encode (e := ⟨bitStringTag, 0 :: k.publicKey.point.encode⟩) rfl
      (lt_lengthLimit hlength (by decide))
  rw [List.append_nil] at hread
  simp [publicOctets?, hread, hbits, wholeBits?]

theorem ofContent?_content (k : PrivateKey) : ofContent? k.content = some k := by
  have hsequence := sole?_encodeSequence (lt_lengthLimit k.length_fields_le (by decide))
  -- Version and scalar are read with whatever is behind them, which is the public key in the end.
  have hversion (rest : Octets) : takeNatural? (encodeNatural 1 ++ rest) = some (1, rest) :=
    takeNatural?_encodeNatural_of_lt (by decide) rest
  have hscalar (rest : Octets) : content? octetStringTag
      (Element.encode ⟨octetStringTag, Octets.ofNatWidth 32 k.scalar⟩ ++ rest) =
        some (Octets.ofNatWidth 32 k.scalar, rest) :=
    content?_encode (e := ⟨octetStringTag, Octets.ofNatWidth 32 k.scalar⟩) rfl
      (lt_lengthLimit (Octets.length_ofNatWidth 32 _).le (by decide)) rest
  rw [content_eq, ofContent?, hsequence]
  simp [fields, hversion, hscalar, takeCurve?_publicKey, publicOctets?_publicKey,
    toNat_ofNatWidth_scalar, ofScalar?_scalar]

theorem ofDocument?_document (k : PrivateKey) : ofDocument? k.document = some k := by
  have halgorithm : k.document.algorithm = algorithm := rfl
  have hprivate : k.document.privateKey = k.content := rfl
  simp [ofDocument?, halgorithm, hprivate, ofContent?_content]

theorem decode?_encode_document (k : PrivateKey) :
    PrivateKeyDocument.decode? k.document.encode = some k.document := by
  apply PrivateKeyDocument.decode?_encode algorithm_isWritten
  have hfields := k.length_fields_le
  have hcontent : k.content.length ≤ k.fields.length + 129 :=
    length_encodeSequence_le (lt_lengthLimit hfields (by decide))
  change algorithm.encode.length + k.content.length + 0 < 2 ^ 127
  rw [length_encode_algorithm]
  omega

end PrivateKey

end KeyCustody.P256
