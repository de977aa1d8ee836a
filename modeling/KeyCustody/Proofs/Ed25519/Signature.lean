import KeyCustody.Proofs.Ed25519.Encoding
import KeyCustody.Proofs.Ed25519.Homogeneous
import KeyCustody.Proofs.Ed25519.KeyDocument

/-!
# Ed25519 signatures verify

The second half of a signature is the one-time scalar plus the challenge times the secret scalar,
reduced by the order of the base point. Taken as a multiple of the base point, less the challenge
times the public key, it gives the point in the first half again. The secret scalar itself is not
reduced, and need not be, since only multiples of the base point occur.

## Main results

* `Ed25519.PrivateKey.decode?_encode_publicDocument` — the exported public key is read back
* `Ed25519.PrivateKey.equation` — the equation of signatures
* `Ed25519.PublicKey.verify_sign` — signatures verify
* `Ed25519.verifyWithDocument_complete` — verifying with the key in an encoded document
-/

namespace KeyCustody.Ed25519

namespace PrivateKey

variable (k : PrivateKey) (message : Octets)

theorem publicOctets_eq : k.publicOctets = (ofCurve (k.scalar • base)).encode := by
  rw [publicOctets, ofCurve_nsmul, ofCurve_base]

theorem decode?_publicOctets :
    Point.decode? k.publicOctets = some (ofCurve (k.scalar • base)) := by
  rw [publicOctets_eq]
  exact Point.decode?_encode _

/-- The public key of a private key. -/
def publicKey : PublicKey := ⟨k.publicOctets, ofCurve (k.scalar • base), k.decode?_publicOctets⟩

theorem octets_publicKey : k.publicKey.octets = k.publicOctets := by
  rw [publicKey]

/-- The exported public key is read back. -/
theorem decode?_encode_publicDocument :
    PublicKey.decode? k.publicDocument.encode = some k.publicKey := by
  rw [publicDocument, PublicKey.decode?_encode_document (by rw [length_publicOctets]; decide)]
  exact PublicKey.ofOctets?_of_decode? k.decode?_publicOctets

/-- The one-time scalar of a message. -/
def nonce : Nat := littleEndian (Sha512.hash (k.nonceKey ++ message)) % order

/-- The first half of a signature. -/
def first : Octets := (basePoint.multiply (k.nonce message)).encode

/-- The number in the second half of a signature. -/
def second : Nat :=
  (k.nonce message + challenge (k.first message) k.publicOctets message * k.scalar) % order

theorem sign_eq :
    k.sign message = k.first message ++ (Octets.ofNatWidth 32 (k.second message)).reverse := rfl

theorem length_first : (k.first message).length = 32 := Point.length_encode _

theorem length_sign : (k.sign message).length = 64 := by
  rw [sign_eq, List.length_append, length_first, List.length_reverse, Octets.length_ofNatWidth]

theorem second_lt : k.second message < order := Nat.mod_lt _ (by decide)

theorem take_sign : (k.sign message).take 32 = k.first message := by
  rw [sign_eq, List.take_left' (k.length_first message)]

theorem littleEndian_drop_sign : littleEndian ((k.sign message).drop 32) = k.second message := by
  have hlt : k.second message < 256 ^ 32 := (k.second_lt message).trans (by decide)
  rw [sign_eq, List.drop_left' (k.length_first message), littleEndian, List.reverse_reverse]
  exact Octets.toNat_ofNatWidth_of_lt hlt

/-- What verification computes for a challenge `c`, from a second half that was computed with it. -/
theorem equation (c : Nat) (nonce : Nat) :
    (basePoint.multiply ((nonce + c * k.scalar) % order)).add
      (k.publicKey.point.neg.multiply c) = basePoint.multiply nonce := by
  have hmultiple : ((nonce + c * k.scalar) % order) • base + c • -(k.scalar • base) =
      nonce • base := by
    rw [← nsmul_eq_mod_nsmul _ order_nsmul_base, add_nsmul, mul_nsmul', smul_neg,
      add_neg_cancel_right]
  rw [publicKey, ← ofCurve_neg, ← ofCurve_base, ← ofCurve_nsmul, ← ofCurve_nsmul, ← ofCurve_add,
    hmultiple, ofCurve_nsmul]

end PrivateKey

/-- Signatures verify. -/
theorem PublicKey.verify_sign (k : PrivateKey) (message : Octets) :
    k.publicKey.verify message (k.sign message) = true := by
  rw [verify, k.take_sign, k.littleEndian_drop_sign, k.length_sign, k.octets_publicKey,
    decide_eq_true (k.second_lt message), PrivateKey.second, k.equation, ← PrivateKey.first]
  simp

/-- A signature of another length is none. -/
theorem PublicKey.verify_of_length_ne {k : PublicKey} {message signature : Octets}
    (h : signature.length ≠ 64) : k.verify message signature = false := by
  simp [verify, h]

/-- Verifying with the key in an encoded public-key document. With the document that was exported
from a private key, every signature by that key is accepted. With any document that loads, octets of
another length than a signature are refused. There is an error exactly if the document does not
load, whatever the message and the signature are. -/
theorem verifyWithDocument_complete :
    (∀ (k : PrivateKey) (message : Octets),
      verifyWithDocument k.publicDocument.encode message (k.sign message) = .ok true) ∧
    (∀ document message signature : Octets, signature.length ≠ 64 →
      (PublicKey.decode? document).isSome →
        verifyWithDocument document message signature = .ok false) ∧
    (∀ (document message signature : Octets) (error : CryptoError),
      verifyWithDocument document message signature = .error error ↔
        PublicKey.decode? document = none ∧ error = .publicDocument) := by
  refine ⟨?_, ?_, ?_⟩
  · intro k message
    rw [verifyWithDocument, k.decode?_encode_publicDocument]
    exact congrArg Except.ok (PublicKey.verify_sign k message)
  · intro document message signature hlength hload
    obtain ⟨k, hk⟩ := Option.isSome_iff_exists.mp hload
    rw [verifyWithDocument, hk]
    exact congrArg Except.ok (PublicKey.verify_of_length_ne hlength)
  · intro document message signature error
    rw [verifyWithDocument]
    cases PublicKey.decode? document with
    | none => simp [eq_comm]
    | some k => simp

/-- The empty string is no signature under the exported key of a seed of zeros. -/
theorem verifyWithDocument_complete_zeros :
    let k : PrivateKey := ⟨List.replicate 32 0, rfl⟩
    ([] : Octets).length ≠ 64 ∧ (PublicKey.decode? k.publicDocument.encode).isSome ∧
      verifyWithDocument k.publicDocument.encode [0x61] [] = .ok false := by
  intro k
  have hlength : ([] : Octets).length ≠ 64 := by decide
  have hload : (PublicKey.decode? k.publicDocument.encode).isSome := by
    rw [k.decode?_encode_publicDocument]
    rfl
  exact ⟨hlength, hload, verifyWithDocument_complete.2.1 _ _ _ hlength hload⟩

end KeyCustody.Ed25519
