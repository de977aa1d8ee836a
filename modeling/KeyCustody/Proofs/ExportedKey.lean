import KeyCustody.Proofs.Ed25519.Signature
import KeyCustody.Proofs.Engine.InProcess
import KeyCustody.Proofs.P256.Signature
import KeyCustody.Proofs.Package
import KeyCustody.Proofs.PrivateKey
import KeyCustody.Proofs.Rsa.FixedSignature
import KeyCustody.Proofs.Rsa.SaltedSignature

/-!
# Exported public keys

The public-key document of a private key is meant for others: to check what the key signed, and to
wrap keys that it can unwrap. They read it with a reader of public keys, and that one limits the
size of RSA moduli, which the loader of private keys does not. Up to that size an exported key is
read as the very public key it was exported from, and is good for everything that the private key
does.

## Main definitions

* `PrivateKey.IsImportable` — the keys within the limit
* `PrivateKey.IsPublishedBy` — a document is read as the public key of a private key
* `SignatureAlgorithm.verify` — checking a signature with the key in a document

## Main results

* `PrivateKey.isPublishedBy_encodePublic_iff` — which exported keys are read back
* `PrivateKey.exists_wrap_of_unwrap` — a key that unwraps is a key to wrap with
* `PrivateKey.verify_of_sign` — signatures are checked with the exported key
* `PrivateKey.export_usable` — what an exported key is good for
-/

namespace KeyCustody

/-- Whether octets are a signature of a message for an algorithm, by the key in a public-key
document. For a salted signature, the length of the salt may be asked for. -/
def SignatureAlgorithm.verify (a : SignatureAlgorithm) (document : Octets) (asked : Option Nat)
    (message signature : Octets) : Bool :=
  match a.keyType, a.digest with
  | .rsa, some digest =>
    (Rsa.PublicKey.decode? document).any fun key =>
      if a.isSalted then key.verifyWithSalt digest asked message signature
      else key.verifyFixed digest message signature
  | .p256, some digest =>
    (P256.PublicKey.decode? document).any fun key => key.verify digest message signature
  | .ed25519, none =>
    (Ed25519.PublicKey.decode? document).any fun key => key.verify message signature
  | _, _ => false

namespace InProcessSigner

variable {draw : Entropy} {message signature : Octets}

theorem sign_of_signWithSalt {r : Rsa.PrivateKey} {a : SignatureAlgorithm} {digest : Digest}
    {parameters : Option SignatureAlgorithm.Parameters} (hdigest : a.digest = some digest)
    (hsalted : a.isSalted = true)
    (h : r.signWithSalt digest (parameters.map fun p => p.saltLength) draw message =
      .ok signature) : sign ⟨.rsa r, a, parameters⟩ draw message = .ok signature := by
  have hprimitive : primitive ⟨.rsa r, a, parameters⟩ draw message = some (.ok signature) := by
    simp [primitive, saltLength?, hdigest, hsalted, h, Except.mapError]
  exact sign_of_primitive hprimitive

end InProcessSigner

theorem Rsa.PrivateKey.verifyWithSalt_of_signWithSalt {k : Rsa.PrivateKey} {digest : Digest}
    {asked : Option Nat} {draw : Entropy} (hdraw : ∀ n, (draw n).length = n)
    {message signature : Octets} (h : k.signWithSalt digest asked draw message = .ok signature) :
    k.publicKey.verifyWithSalt digest asked message signature = true := by
  unfold signWithSalt at h
  dsimp only at h
  split_ifs at h
  -- The salt that was drawn has the length that was asked for.
  exact ((verifySalted_of_signSalted h).2 _).mpr (hdraw _).symm

namespace PrivateKey

/-- Every key is within the limit for public keys, unless it is an RSA key with a longer
modulus. -/
def IsImportable : PrivateKey → Prop
  | rsa k => k.publicKey.bits ≤ 4096
  | p256 _ | ed25519 _ => True

/-- A document is read, by the reader of its type, as the public key of a private key. -/
def IsPublishedBy (k : PrivateKey) (document : Octets) : Prop :=
  match k with
  | rsa k => Rsa.PublicKey.decode? document = some k.publicKey
  | p256 k => P256.PublicKey.decode? document = some k.publicKey
  | ed25519 k => Ed25519.PublicKey.decode? document = some k.publicKey

variable {k : PrivateKey} {b : Octets}

theorem isPublishedBy_encodePublic_iff : k.IsPublishedBy k.encodePublic ↔ k.IsImportable := by
  cases k with
  | rsa r =>
    exact ⟨fun h => Rsa.PublicKey.bits_le_of_decode? h, fun h => Rsa.PublicKey.decode?_encode h⟩
  | p256 e => exact iff_of_true e.decode?_encode_publicKey trivial
  | ed25519 e => exact iff_of_true e.decode?_encode_publicDocument trivial

/-! ## Wrapping -/

/-- An ephemeral key leaves room for its padding only in 74 octets. -/
theorem le_size_of_unwrap {w : Rsa.PrivateKey} {package privateKey : Octets}
    (h : Package.unwrap w package = .ok privateKey) : 74 ≤ w.size := by
  obtain ⟨ephemeralKey, hdecrypt, hlength, -⟩ := (Package.unwrap_eq_ok_iff.mp h).exists_key
  obtain ⟨-, m, -, hopen⟩ := Rsa.PrivateKey.decrypt_eq_ok_iff.mp hdecrypt
  have hpadded := Rsa.length_of_openMessage? hopen
  rw [hlength, Octets.length_ofNatWidth, Package.ephemeralKeyLength] at hpadded
  exact hpadded

theorem exists_wrap_of_unwrap {w : Rsa.PrivateKey} (hw : (rsa w).IsImportable)
    {package privateKey : Octets} (h : Package.unwrap w package = .ok privateKey)
    {secrets : PackageSecrets} (hkey : secrets.ephemeralKey.length = Package.ephemeralKeyLength)
    {data : Octets} (hne : data ≠ []) (hlong : data.length < 2 ^ 32) :
    ∃ p, Package.wrap secrets (rsa w).encodePublic data = .ok p := by
  have hroom : secrets.ephemeralKey.length + 42 ≤ w.publicKey.size := by
    rw [hkey]
    exact le_size_of_unwrap h
  obtain ⟨p, hp⟩ := (Package.exists_wrapWith_iff secrets w.publicKey hlong).mpr ⟨hne, hroom⟩
  exact ⟨p, Package.wrap_eq_ok_iff.mpr
    ⟨w.publicKey, isPublishedBy_encodePublic_iff.mpr hw, hp⟩⟩

/-! ## Signing -/

theorem verify_of_sign (hk : k.IsImportable) {a : SignatureAlgorithm}
    {parameters : Option SignatureAlgorithm.Parameters} {s : InProcessSigner}
    (hs : InProcessSigner.ofAlgorithm k a parameters = .ok s) {draw : Entropy}
    (hdraw : ∀ n, (draw n).length = n) {message signature : Octets}
    (h : s.sign draw message = .ok signature) :
    a.verify k.encodePublic s.saltLength? message signature = true := by
  obtain ⟨rfl, hbound⟩ := InProcessSigner.ofAlgorithm_eq_ok_iff.mp hs
  have htype : a.keyType = k.keyType := hbound.keyType
  have hpublic := isPublishedBy_encodePublic_iff.mpr hk
  have hsigned := InProcessSigner.primitive_of_sign h
  unfold SignatureAlgorithm.verify
  unfold InProcessSigner.primitive at hsigned
  rw [htype]
  -- The type of the key decides which reader is meant, and with the digest, which primitive.
  cases k with
  | rsa r =>
    cases hdigest : a.digest with
    | none => simp [hdigest] at hsigned
    | some digest =>
      have hread : Rsa.PublicKey.decode? (rsa r).encodePublic = some r.publicKey := hpublic
      simp only [hdigest, Option.some_inj, Outcome.mapError_eq_ok_iff] at hsigned
      simp only [keyType, hread, Option.any_some]
      split_ifs at hsigned ⊢ with hsalted
      · exact Rsa.PrivateKey.verifyWithSalt_of_signWithSalt hdraw hsigned
      · exact Rsa.PrivateKey.verifyFixed_of_signFixed hsigned
  | p256 e =>
    cases hdigest : a.digest with
    | none => simp [hdigest] at hsigned
    | some digest =>
      have hread : P256.PublicKey.decode? (p256 e).encodePublic = some e.publicKey := hpublic
      simp only [hdigest, Option.some_inj] at hsigned
      simp only [keyType, hread, Option.any_some]
      cases hsignature : e.sign? digest message with
      | none =>
        rw [hsignature] at hsigned
        cases hsigned
      | some made =>
        rw [hsignature] at hsigned
        rw [← Except.ok.inj hsigned]
        exact e.verify_publicKey_of_sign? hsignature
  | ed25519 e =>
    cases hdigest : a.digest with
    | some digest => simp [hdigest] at hsigned
    | none =>
      have hread : Ed25519.PublicKey.decode? (ed25519 e).encodePublic = some e.publicKey := hpublic
      simp only [hdigest, Option.some_inj] at hsigned
      simp only [keyType, hread, Option.any_some]
      rw [← Except.ok.inj hsigned]
      exact Ed25519.PublicKey.verify_sign e message

/-! ## What an exported key is good for -/

/-- The exported document of a private key is read as its public key exactly if it is no RSA key
with more than 4096 bits. Then whatever is signed with the key is checked with the document; and an
RSA key by which anything at all was unwrapped is one to wrap with, through its document, for
everything that can be wrapped. The ephemeral key and the salts need to have the lengths that are
asked for. -/
theorem export_usable (k : PrivateKey) :
    (k.IsPublishedBy k.encodePublic ↔ k.IsImportable) ∧
    (k.IsImportable →
      (∀ w package privateKey, k = rsa w → Package.unwrap w package = .ok privateKey →
        ∀ (secrets : PackageSecrets) (data : Octets),
          secrets.ephemeralKey.length = Package.ephemeralKeyLength →
          data ≠ [] → data.length < 2 ^ 32 →
          ∃ p, Package.wrap secrets k.encodePublic data = .ok p) ∧
      ∀ a parameters s, InProcessSigner.ofAlgorithm k a parameters = .ok s →
        ∀ draw : Entropy, (∀ n, (draw n).length = n) →
        ∀ message signature, s.sign draw message = .ok signature →
          a.verify k.encodePublic s.saltLength? message signature = true) := by
  refine ⟨isPublishedBy_encodePublic_iff, fun hk => ⟨?_, ?_⟩⟩
  · rintro w package privateKey rfl hunwrap secrets data hkey hne hlong
    exact exists_wrap_of_unwrap hk hunwrap hkey hne hlong
  · intro a parameters s hs draw hdraw message signature hsign
    exact verify_of_sign hk hs hdraw hsign

/-- A key of two Mersenne primes, as a key to wrap with and as one that signs with a salt. -/
theorem export_usable_mersenne :
    let k := rsa Rsa.PrivateKey.mersenne
    let s : InProcessSigner := ⟨k, .sha256WithRsaPss, some ⟨20⟩⟩
    let secrets : PackageSecrets := ⟨List.replicate 32 0x3c, List.replicate 20 0x5a⟩
    k.IsPublishedBy k.encodePublic ∧
      (∃ package, Package.unwrap Rsa.PrivateKey.mersenne package = .ok [1, 2, 3]) ∧
      (∃ p, Package.wrap secrets k.encodePublic [4, 5] = .ok p) ∧
      ∃ signature, s.sign (List.replicate · 0x5a) [0x61] = .ok signature ∧
        SignatureAlgorithm.sha256WithRsaPss.verify k.encodePublic (some 20) [0x61] signature =
          true := by
  intro k s secrets
  obtain ⟨hpublished, husable⟩ := export_usable k
  have hk : k.IsImportable := Rsa.PrivateKey.bits_mersenne_le
  have hprimes := Rsa.PrivateKey.hasDistinctPrimes_mersenne
  have hsize := Rsa.PrivateKey.size_mersenne
  have hroom : secrets.ephemeralKey.length + 42 ≤ Rsa.PrivateKey.mersenne.publicKey.size := by
    rw [← Rsa.PrivateKey.size_eq, hsize]
    decide
  have hlong : ([1, 2, 3] : Octets).length < 2 ^ 32 := by decide
  obtain ⟨made, hmade⟩ := (Package.exists_wrapWith_iff secrets Rsa.PrivateKey.mersenne.publicKey
    hlong).mpr ⟨List.cons_ne_nil _ _, hroom⟩
  have hunwrap := Package.unwrap_of_wrapWith hprimes rfl rfl hmade
  have hdraw : ∀ n, (List.replicate n 0x5a : Octets).length = n := fun n => List.length_replicate
  have hfits : Digest.sha256.size + 20 + 2 ≤ Rsa.PrivateKey.mersenne.publicKey.saltedLength := by
    rw [Rsa.PrivateKey.saltedLength_mersenne]
    decide
  have hsalted : ∃ signature, Rsa.PrivateKey.mersenne.signWithSalt .sha256 (some 20)
      (List.replicate · 0x5a) [0x61] = .ok signature := by
    rw [Rsa.PrivateKey.signWithSalt_of_le _ _ hfits]
    exact hprimes.exists_signSalted [0x61] hfits
  obtain ⟨signature, hsignature⟩ := hsalted
  have hs : InProcessSigner.ofAlgorithm k .sha256WithRsaPss (some ⟨20⟩) = .ok s := rfl
  have hsign : s.sign (List.replicate · 0x5a) [0x61] = .ok signature :=
    InProcessSigner.sign_of_signWithSalt rfl rfl hsignature
  exact ⟨hpublished.mpr hk, ⟨made.octets, hunwrap⟩,
    (husable hk).1 _ _ _ rfl hunwrap secrets [4, 5] rfl (List.cons_ne_nil _ _) (by decide),
    signature, hsign, (husable hk).2 _ _ s hs _ hdraw _ _ hsign⟩

/-- A key with a modulus of 4098 bits is loaded, even from its own export, but no public key is
read from its document. -/
theorem export_unusable_long :
    let w : Rsa.PrivateKey := {
      publicKey := {
        modulus := (2 ^ 2048 + 1) * (2 ^ 2049 + 1)
        exponent := 3
        modulus_odd := by decide +kernel
        exponent_odd := by decide
        two_le_exponent := by decide
        exponent_le := by decide
        exponent_lt_modulus := by decide +kernel }
      exponent := (2 ^ 2049 + 1) / 3
      p := 2 ^ 2048 + 1
      q := 2 ^ 2049 + 1
      one_lt_p := by decide +kernel
      one_lt_q := by decide +kernel
      product := rfl
      inverse_p := by decide +kernel
      inverse_q := by decide +kernel }
    ∃ b, (rsa w).encode = .ok b ∧ ofOctets b = .ok (rsa w) ∧
      Rsa.PublicKey.decode? (rsa w).encodePublic ≠ some w.publicKey := by
  intro w
  -- The second factor is one less than twice the first, so its negative is its inverse.
  obtain ⟨b, hb⟩ := (exists_encode_iff (rsa w)).mpr fun r hr => ⟨2 ^ 2048, by
    obtain rfl := PrivateKey.rsa.inj hr
    decide +kernel⟩
  have hcountable : (rsa w).IsCountable := ⟨by decide +kernel, by decide +kernel⟩
  have hlong : ¬ w.publicKey.bits ≤ Rsa.PublicKey.maxBits := by decide +kernel
  exact ⟨b, hb, ofOctets_encode hcountable hb, mt Rsa.PublicKey.bits_le_of_decode? hlong⟩

end PrivateKey

end KeyCustody
