import KeyCustody.Ed25519.Key
import KeyCustody.Proofs.Der.KeyDocument

/-!
# Reading back documents of Ed25519 keys

A private key is written as an octet string in an octet string, with the public key behind it in
the envelope. A public key is written as the octets that it was read from, and is accepted with
whatever octets stand for a point.

## Main results

* `Ed25519.PrivateKey.decode?_encode_document`, `Ed25519.PrivateKey.ofDocument?_document` — the
  private key in its envelope
* `Ed25519.PublicKey.decode?_encode` — the public key in its envelope
-/

namespace KeyCustody.Ed25519

open Der

theorem algorithm_isWritten : algorithm.IsWritten where
  arcs := by decide
  parameters := by
    rintro e ⟨⟩
  length_content := lt_lengthLimit (k := 5) (by decide) (by decide)

theorem length_encode_algorithm : algorithm.encode.length = 7 := by decide

@[simp] theorem Point.length_encode (s : Point) : s.encode.length = 32 := by
  rw [encode, List.length_reverse, Octets.length_ofNatWidth]

theorem Point.length_of_decode? {b : Octets} {s : Point} (h : decode? b = some s) :
    b.length = 32 := by
  rw [decode?, Option.bind_eq_bind, Option.bind_eq_some_iff] at h
  obtain ⟨_, hguard, -⟩ := h
  simpa using hguard

namespace PublicKey

/-- A key in its envelope: only the octets are looked at. -/
theorem decode?_encode_document {b : Octets} (h : b.length < 2 ^ 64) :
    decode? (PublicKeyDocument.encode ⟨algorithm, b⟩) = ofOctets? b := by
  have hdocument : PublicKeyDocument.decode? (PublicKeyDocument.encode ⟨algorithm, b⟩) =
      some ⟨algorithm, b⟩ := by
    apply PublicKeyDocument.decode?_encode algorithm_isWritten
    change algorithm.encode.length + b.length < 2 ^ 127
    rw [length_encode_algorithm]
    omega
  rw [decode?, hdocument]
  simp [ofDocument?]

theorem ofOctets?_of_decode? {b : Octets} {s : Point} (h : Point.decode? b = some s) :
    ofOctets? b = some ⟨b, s, h⟩ := by
  unfold ofOctets?
  -- The match carries a proof of what was read, so it is split and not rewritten.
  split
  · next read hread =>
    obtain rfl := Option.some_inj.mp (hread.symm.trans h)
    rfl
  · next hread => simp [hread] at h

theorem decode?_encode (k : PublicKey) : decode? k.encode = some k := by
  have hlength := Point.length_of_decode? k.decode_octets
  have hshort : k.octets.length < 2 ^ 64 := by
    rw [hlength]
    decide
  rw [encode, document, decode?_encode_document hshort, ofOctets?_of_decode? k.decode_octets]

end PublicKey

namespace PrivateKey

@[simp] theorem length_publicOctets (k : PrivateKey) : k.publicOctets.length = 32 :=
  Point.length_encode _

/-- The inner document begins with the mark and the length of the seed. -/
theorem privateKey_document (k : PrivateKey) : k.document.privateKey = 0x04 :: 0x20 :: k.seed := by
  change Element.encode ⟨octetStringTag, k.seed⟩ = _
  rw [Element.encode, k.length_seed]
  rfl

theorem publicKey_document (k : PrivateKey) : k.document.publicKey = some k.publicOctets := rfl

theorem ofDocument?_document (k : PrivateKey) : ofDocument? k.document = some k := by
  have halgorithm : k.document.algorithm = algorithm := rfl
  simp [ofDocument?, halgorithm, publicKey_document, privateKey_document, k.length_seed]

theorem decode?_encode_document (k : PrivateKey) :
    PrivateKeyDocument.decode? k.document.encode = some k.document := by
  apply PrivateKeyDocument.decode?_encode algorithm_isWritten
  have halgorithm : k.document.algorithm = algorithm := rfl
  have hprivate : k.document.privateKey.length = 34 := by
    rw [privateKey_document, List.length_cons, List.length_cons, k.length_seed]
  have hpublic : (k.document.publicKey.getD []).length = 32 := by
    rw [publicKey_document, Option.getD_some, length_publicOctets]
  rw [halgorithm, length_encode_algorithm, hprivate, hpublic]
  decide

end PrivateKey

end KeyCustody.Ed25519
