import KeyCustody.Proofs.ArmoredKey
import KeyCustody.Proofs.Rsa.MersenneKey
import KeyCustody.Proofs.Text.Hex

/-!
# One document for an RSA public key

The encoding leaves no choice anywhere: lengths and numbers have one form, the parameters are
present and empty, no bit is unused, and nothing stands behind an element. So a public key is read
from one octet string alone, which is its document. Armor may be written in several ways, but the
octets in it are the document again. What keys are told apart by is a digest of that document, so
keys have the same fingerprint exactly if they are the same, unless the digest collides.

## Main results

* `Rsa.PublicKey.decode?_eq_some_iff` — the document that a key is read from
* `Rsa.PublicKey.ofArmored?_eq_some_iff` — the texts that a key is read from
* `Rsa.PublicKey.eq_or_collision` — what equal fingerprints mean
* `Rsa.PublicKey.encoding_unique` — documents, texts and fingerprints of a key
-/

namespace KeyCustody.Rsa.PublicKey

open Der

variable {k : PublicKey} {b text : Octets}

/-! ## Documents -/

theorem ofNumbers?_eq_some {n e : Nat} (h : ofNumbers? n e = some k) :
    k.modulus = n ∧ k.exponent = e := by
  unfold ofNumbers? at h
  split_ifs at h
  obtain rfl := Option.some_inj.mp h
  exact ⟨rfl, rfl⟩

/-- Of a document that is read everything is settled by the key: its algorithm, the sequence inside
and the two numbers in that. -/
theorem document_of_ofDocument? {d : PublicKeyDocument} (h : ofDocument? d = some k) :
    k.document = d := by
  simp only [ofDocument?, Option.bind_eq_bind, Option.bind_eq_some_iff,
    Option.guard_eq_some'] at h
  obtain ⟨_, halgorithm, content, hcontent, numbers, hnumbers, hkey⟩ := h
  split at hkey
  · next n e =>
    obtain ⟨read, hread, hbits⟩ := Option.bind_eq_some_iff.mp hkey
    split_ifs at hbits
    obtain rfl := Option.some_inj.mp hbits
    obtain ⟨rfl, rfl⟩ := ofNumbers?_eq_some hread
    obtain ⟨algorithm, publicKey⟩ := d
    obtain rfl : algorithm = Rsa.algorithm := halgorithm
    obtain ⟨-, -, hpublic⟩ := sole?_eq_some_iff.mp hcontent
    rw [naturals?_eq_some hnumbers] at hpublic
    obtain rfl : publicKey = encodeSequence _ := hpublic
    rfl
  · cases hkey

/-- A key is read from its own document and from no other octets. -/
theorem decode?_eq_some_iff : decode? b = some k ↔ b = k.encode ∧ k.bits ≤ maxBits := by
  constructor
  · intro h
    obtain ⟨d, hdecode, hd⟩ := Option.bind_eq_some_iff.mp h
    rw [← PublicKeyDocument.encode_of_decode? hdecode, ← document_of_ofDocument? hd]
    exact ⟨rfl, bits_le_of_ofDocument? hd⟩
  · rintro ⟨rfl, hbits⟩
    exact decode?_encode hbits

/-! ## Texts -/

/-- A key is read from the armor of its own document and from no other text. -/
theorem ofArmored?_eq_some_iff : ofArmored? text = some k ↔
    Pem.IsArmor ⟨Pem.publicKeyLabel, k.encode⟩ text ∧ k.bits ≤ maxBits := by
  constructor
  · intro h
    have hread := h
    simp only [ofArmored?, PublicKeyDocument.ofArmored?, Option.bind_eq_bind,
      Option.bind_eq_some_iff, Option.guard_eq_some'] at hread
    obtain ⟨_, ⟨⟨label, body⟩, harmored, _, hlabel, hdecode⟩, hd⟩ := hread
    obtain rfl : label = Pem.publicKeyLabel := hlabel
    -- The octets in the armor are read as this key, so they are its document.
    have hbody : decode? body = some k := Option.bind_eq_some_iff.mpr ⟨_, hdecode, hd⟩
    obtain ⟨rfl, hbits⟩ := decode?_eq_some_iff.mp hbody
    exact ⟨Pem.decode?_eq_some_iff.mp harmored, hbits⟩
  · rintro ⟨harmor, hbits⟩
    rw [ofArmored?, PublicKeyDocument.ofArmored?_of_isArmor harmor]
    exact decode?_encode hbits

/-! ## Fingerprints -/

/-- Documents with the same fingerprint are the same, or the digest collides. -/
theorem eq_or_collision {c : Octets}
    (h : Hex.encode (Sha256.hash b) = Hex.encode (Sha256.hash c)) :
    b = c ∨ b ≠ c ∧ Sha256.hash b = Sha256.hash c := by
  by_cases heq : b = c
  · exact .inl heq
  · exact .inr ⟨heq, Hex.encode_injective h⟩

theorem fingerprint_eq (w : PrivateKey) :
    (KeyCustody.PrivateKey.rsa w).fingerprint = Hex.encode (Sha256.hash w.publicKey.encode) := rfl

/-! ## One document -/

/-- Every document that is read is the one that the key is written as. The canonical text of that
key is read as the same key, and writing the key again gives the document back; so does every other
text that is read, for the octets in its armor. Two documents of one key are the same. The
fingerprint of a private key is that of the document of its public key, and documents with the same
fingerprint are those of the same key, unless the digest collides on them. -/
theorem encoding_unique :
    (∀ d k, decode? d = some k → k.encode = d ∧
      ∃ t, Octets.ofText t = k.document.armored ∧
        Pem.IsCanonical ⟨Pem.publicKeyLabel, d⟩ (Octets.ofText t) ∧
        ofArmored? (Octets.ofText t) = some k ∧
        (ofArmored? (Octets.ofText t)).map encode = some d) ∧
    (∀ t k, ofArmored? (Octets.ofText t) = some k →
      ∃ body, Pem.IsArmor ⟨Pem.publicKeyLabel, body⟩ (Octets.ofText t) ∧ decode? body = some k ∧
        (ofArmored? (Octets.ofText t)).map encode = some body) ∧
    ∀ d d' k k', decode? d = some k → decode? d' = some k' →
      (k = k' ↔ d = d') ∧
      (∀ w : PrivateKey, w.publicKey = k →
        (KeyCustody.PrivateKey.rsa w).fingerprint = Hex.encode (Sha256.hash d)) ∧
      (Hex.encode (Sha256.hash d) = Hex.encode (Sha256.hash d') ↔
        k = k' ∨ d ≠ d' ∧ Sha256.hash d = Sha256.hash d') := by
  refine ⟨?_, ?_, ?_⟩
  · intro d k h
    obtain ⟨rfl, hbits⟩ := decode?_eq_some_iff.mp h
    obtain ⟨t, ht⟩ := PublicKeyDocument.exists_ofText_encode (isElement_encode hbits)
    have hread : ofArmored? (Octets.ofText t) = some k := by
      rw [ht]
      exact ofArmored?_encode hbits
    refine ⟨rfl, t, ht, ?_, hread, by rw [hread, Option.map_some]⟩
    rw [ht]
    exact Pem.isCanonical_encode _
  · intro t k h
    obtain ⟨harmor, hbits⟩ := ofArmored?_eq_some_iff.mp h
    exact ⟨k.encode, harmor, decode?_encode hbits, by rw [h, Option.map_some]⟩
  · intro d d' k k' h h'
    have hsame : k = k' ↔ d = d' := by
      constructor
      · rintro rfl
        rw [(decode?_eq_some_iff.mp h).1, (decode?_eq_some_iff.mp h').1]
      · rintro rfl
        exact Option.some_inj.mp (h.symm.trans h')
    refine ⟨hsame, ?_, ?_⟩
    · rintro w rfl
      rw [fingerprint_eq, ← (decode?_eq_some_iff.mp h).1]
    · rw [hsame]
      refine ⟨eq_or_collision, ?_⟩
      rintro (rfl | ⟨-, hdigest⟩)
      · rfl
      · rw [hdigest]

/-- A key of 1128 bits, whose characters take several lines, and a small key in armor that is not
the canonical one: there is a line in front, and its lines have other ends. -/
theorem encoding_unique_preamble :
    let k := PrivateKey.mersenne.publicKey
    let t := "key\r\n-----BEGIN PUBLIC KEY-----\r\n" ++
      "MBowDQYJKoZIhvcNAQEBBQADCQAwBgIBNwIBAw==\r\n-----END PUBLIC KEY-----"
    let small : PublicKey := ⟨55, 3, rfl, rfl, by decide, by decide, by decide⟩
    decode? k.encode = some k ∧
      (∃ u, Octets.ofText u = k.document.armored ∧
        (ofArmored? (Octets.ofText u)).map encode = some k.encode) ∧
      ofArmored? (Octets.ofText t) = some small ∧ Octets.ofText t ≠ small.document.armored ∧
      (∃ body, Pem.IsArmor ⟨Pem.publicKeyLabel, body⟩ (Octets.ofText t) ∧
        decode? body = some small ∧ (ofArmored? (Octets.ofText t)).map encode = some body ∧
        body ≠ k.encode) := by
  intro k t small
  obtain ⟨hdocument, htext, hkeys⟩ := encoding_unique
  have hk : decode? k.encode = some k := decode?_encode PrivateKey.bits_mersenne_le
  have ht : ofArmored? (Octets.ofText t) = some small := by decide_cbv
  obtain ⟨-, u, hu, -, -, hback⟩ := hdocument k.encode k hk
  obtain ⟨body, harmor, hbody, hsame⟩ := htext t small ht
  -- The moduli differ in length, so the documents do.
  have hne : small ≠ k := by
    intro h
    have hsize : small.size = 141 := h ▸ PrivateKey.size_mersenne
    revert hsize
    simp only [small]
    decide_cbv
  have hother : body ≠ k.encode := mt (hkeys body k.encode small k hbody hk).1.mpr hne
  exact ⟨hk, ⟨u, hu, hback⟩, ht, by decide, body, harmor, hbody, hsame, hother⟩

end KeyCustody.Rsa.PublicKey
