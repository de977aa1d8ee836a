import KeyCustody.Proofs.Rsa.MersenneKey
import KeyCustody.Rsa.Operations

/-!
# Deterministic signatures

The padding of a message is determined by the digest and the length of the modulus, and as a
number it lies below every modulus of that length. A signature that is returned verifies, because
the private operation hands out nothing that the public operation does not confirm; no property of
the factors is needed. If the factors are distinct primes, a signature is returned as soon as the
padding fits, and since raising to the public exponent is then injective on the residues and
verification insists on the length and on a residue, there is no second one.

The fill ends at the first octet other than `ff`, and the mark of the hash function comes right
behind it. So a padding tells which function its digest came from and what the digest is, and what
verifies with one function never verifies with the other.

## Main definitions

* `Rsa.leastFixedSize` — the least length of a modulus for a deterministic signature
* `Rsa.fixedFrame` — the padding around any octets in the place of the digest
* `Rsa.PublicKey.IsSignatureOf` — the signatures of a digest

## Main results

* `Rsa.fixedPadding?_isSome_iff` — when the padding fits
* `Rsa.fixedFrame_inj` — a padding tells the function and the digest
* `Rsa.PublicKey.verifyFixed_eq_true_iff` — what verification checks
* `Rsa.PrivateKey.signFixed_complete_unique` — signatures verify, and are the only ones that do
* `Rsa.PublicKey.digest_of_signature` — a signature is one of a single digest
-/

namespace KeyCustody.Rsa

/-! ## Padding -/

/-- The least length of a modulus, in octets, for a deterministic signature: the mark and the
digest, eight octets of fill and three octets around it. -/
def leastFixedSize : Digest → Nat
  | .sha256 => 62
  | .sha512 => 94

@[simp] theorem length_digestMark (digest : Digest) : (digestMark digest).length = 19 := by
  cases digest <;> rfl

theorem leastFixedSize_eq (digest : Digest) : leastFixedSize digest = digest.size + 30 := by
  cases digest <;> rfl

/-- The deterministic padding around octets in the place of the digest. -/
def fixedFrame (digest : Digest) (hashed : Octets) (size : Nat) : Octets :=
  [0x00, 0x01] ++ List.replicate (size - (digestMark digest ++ hashed).length - 3) 0xff ++
    [0x00] ++ (digestMark digest ++ hashed)

theorem length_fixedFrame {digest : Digest} {hashed : Octets} {size : Nat}
    (hhashed : hashed.length = digest.size) (hsize : leastFixedSize digest ≤ size) :
    (fixedFrame digest hashed size).length = size := by
  rw [leastFixedSize_eq] at hsize
  simp only [fixedFrame, List.length_append, List.length_cons, List.length_replicate,
    List.length_nil, length_digestMark, hhashed]
  omega

theorem fixedPadding?_eq_some_iff {digest : Digest} {message padded : Octets} {size : Nat} :
    fixedPadding? digest message size = some padded ↔
      leastFixedSize digest ≤ size ∧ fixedFrame digest (digest.hash message) size = padded := by
  have hmarked : (digestMark digest ++ digest.hash message).length + 11 =
      leastFixedSize digest := by
    rw [List.length_append, length_digestMark, Digest.length_hash, leastFixedSize_eq]
    omega
  simp only [fixedPadding?, hmarked]
  split_ifs with hsize
  · rw [Option.some_inj]
    exact (and_iff_right hsize).symm
  · simp [hsize]

theorem fixedPadding?_isSome_iff (digest : Digest) (message : Octets) (size : Nat) :
    (fixedPadding? digest message size).isSome ↔ leastFixedSize digest ≤ size := by
  simp only [Option.isSome_iff_exists, fixedPadding?_eq_some_iff]
  constructor
  · rintro ⟨padded, hsize, -⟩
    exact hsize
  · exact fun hsize => ⟨_, hsize, rfl⟩

theorem length_of_fixedPadding? {digest : Digest} {message padded : Octets} {size : Nat}
    (h : fixedPadding? digest message size = some padded) : padded.length = size := by
  obtain ⟨hsize, rfl⟩ := fixedPadding?_eq_some_iff.mp h
  exact length_fixedFrame (Digest.length_hash _ _) hsize

/-- The padding begins with a zero octet, so it spells a residue of every modulus of its
length. -/
theorem toNat_of_fixedPadding?_lt {digest : Digest} {message padded : Octets} {k : PublicKey}
    (h : fixedPadding? digest message k.size = some padded) :
    Octets.toNat padded < k.modulus := by
  have hlength := length_of_fixedPadding? h
  obtain ⟨-, rfl⟩ := fixedPadding?_eq_some_iff.mp h
  exact k.toNat_zero_cons_lt hlength

theorem digestMark_injective : Function.Injective digestMark := by
  intro digest other h
  cases digest <;> cases other
  case sha256.sha256 | sha512.sha512 => rfl
  case sha256.sha512 | sha512.sha256 => exact absurd h (by decide)

/-- What is left behind the fill is the mark and the digest, after one zero octet. -/
theorem dropWhile_fixedFrame (digest : Digest) (hashed : Octets) (size : Nat) :
    ((fixedFrame digest hashed size).drop 2).dropWhile (· == 0xff) =
      0x00 :: (digestMark digest ++ hashed) := by
  have hfill : ∀ x ∈ List.replicate (size - (digestMark digest ++ hashed).length - 3)
      (0xff : UInt8), (x == 0xff) = true := by
    intro x hx
    rw [List.eq_of_mem_replicate hx, beq_self_eq_true]
  have hhead : ([0x00, 0x01] : Octets).length = 2 := rfl
  rw [fixedFrame, List.append_assoc, List.append_assoc, List.drop_left' hhead,
    List.dropWhile_append_of_pos hfill]
  rfl

/-- A padding tells which function its digest came from, and the digest. -/
theorem fixedFrame_inj {digest other : Digest} {hashed hashed' : Octets} {size : Nat}
    (h : fixedFrame digest hashed size = fixedFrame other hashed' size) :
    digest = other ∧ hashed = hashed' := by
  -- The fill is as long as the digest leaves it, so the paddings are compared from behind it.
  have hmarked : digestMark digest ++ hashed = digestMark other ++ hashed' := by
    apply List.tail_eq_of_cons_eq
    rw [← dropWhile_fixedFrame digest hashed size, h, dropWhile_fixedFrame]
  -- The marks are of one length, so they end at the same place.
  have hlength : (digestMark digest).length = (digestMark other).length := by
    rw [length_digestMark, length_digestMark]
  obtain ⟨hmark, hhashed⟩ := List.append_inj hmarked hlength
  exact ⟨digestMark_injective hmark, hhashed⟩

/-! ## Verification -/

/-- The octets are a signature of a digest: they spell a residue in the length of the modulus, and
the public operation leads from it to the padding around the digest, for which there is room. -/
structure PublicKey.IsSignatureOf (k : PublicKey) (signature : Octets) (digest : Digest)
    (hashed : Octets) : Prop where
  length_eq : signature.length = k.size
  lt_modulus : Octets.toNat signature < k.modulus
  fits : leastFixedSize digest ≤ k.size
  frame_eq : fixedFrame digest hashed k.size =
    Octets.ofNatWidth k.size (k.raise (Octets.toNat signature))

theorem PublicKey.verifyFixed_eq_true_iff {k : PublicKey} {digest : Digest}
    {message signature : Octets} : k.verifyFixed digest message signature = true ↔
      signature.length = k.size ∧ Octets.toNat signature < k.modulus ∧
        fixedPadding? digest message k.size =
          some (Octets.ofNatWidth k.size (k.raise (Octets.toNat signature))) := by
  simp only [verifyFixed, Bool.and_eq_true, beq_iff_eq, decide_eq_true_eq, and_assoc]

/-- Verification looks at a message through its digest alone. -/
theorem PublicKey.verifyFixed_iff_isSignatureOf {k : PublicKey} {digest : Digest}
    {message signature : Octets} : k.verifyFixed digest message signature = true ↔
      k.IsSignatureOf signature digest (digest.hash message) := by
  rw [verifyFixed_eq_true_iff, fixedPadding?_eq_some_iff]
  constructor
  · rintro ⟨hlength, hlt, hfits, hframe⟩
    exact ⟨hlength, hlt, hfits, hframe⟩
  · rintro ⟨hlength, hlt, hfits, hframe⟩
    exact ⟨hlength, hlt, hfits, hframe⟩

theorem PublicKey.IsSignatureOf.unique {k : PublicKey} {signature : Octets} {digest other : Digest}
    {hashed hashed' : Octets} (h : k.IsSignatureOf signature digest hashed)
    (h' : k.IsSignatureOf signature other hashed') : digest = other ∧ hashed = hashed' :=
  fixedFrame_inj (h.frame_eq.trans h'.frame_eq.symm)

namespace PrivateKey

variable {k : PrivateKey} {digest : Digest} {message : Octets}

theorem signFixed_eq_ok_iff {signature : Octets} : k.signFixed digest message = .ok signature ↔
    ∃ padded m, fixedPadding? digest message k.size = some padded ∧
      k.recover? (Octets.toNat padded) = .ok m ∧ Octets.ofNatWidth k.size m = signature := by
  unfold signFixed
  cases fixedPadding? digest message k.size with
  | none => simp
  | some padded =>
    cases hrecover : k.recover? (Octets.toNat padded) with
    | error fault => simp [Except.map, hrecover]
    | ok m => simp [Except.map, hrecover]

theorem verifyFixed_of_signFixed {signature : Octets}
    (h : k.signFixed digest message = .ok signature) :
    k.publicKey.verifyFixed digest message signature = true := by
  obtain ⟨padded, m, hpadded, hrecover, rfl⟩ := signFixed_eq_ok_iff.mp h
  -- What was returned passed the check by the public operation, which is what verification repeats.
  obtain ⟨-, hroot, hraise⟩ := recover?_eq_ok_iff.mp hrecover
  have hm : m < k.publicKey.modulus := hroot ▸ k.root_lt _
  rw [size_eq] at hpadded ⊢
  rw [PublicKey.verifyFixed_eq_true_iff, PublicKey.toNat_ofNatWidth_size hm, hraise,
    Octets.ofNatWidth_toNat_of_length (length_of_fixedPadding? hpadded)]
  exact ⟨Octets.length_ofNatWidth _ _, hm, hpadded⟩

theorem HasDistinctPrimes.exists_signFixed (hprimes : k.HasDistinctPrimes) (message : Octets)
    (hsize : leastFixedSize digest ≤ k.size) :
    ∃ signature, k.signFixed digest message = .ok signature := by
  obtain ⟨padded, hpadded⟩ := Option.isSome_iff_exists.mp
    ((fixedPadding?_isSome_iff digest message k.size).mpr hsize)
  have hrecover := hprimes.recover?_of_lt (toNat_of_fixedPadding?_lt hpadded)
  exact ⟨_, signFixed_eq_ok_iff.mpr ⟨padded, _, hpadded, hrecover, rfl⟩⟩

/-- With distinct prime factors the padding has one root, so all signatures that verify are that
root in the width of the modulus. -/
theorem HasDistinctPrimes.eq_of_verifyFixed (hprimes : k.HasDistinctPrimes)
    {signature other : Octets} (h : k.publicKey.verifyFixed digest message signature = true)
    (hother : k.publicKey.verifyFixed digest message other = true) : signature = other := by
  obtain ⟨hlength, hlt, hpadded⟩ := PublicKey.verifyFixed_eq_true_iff.mp h
  obtain ⟨hlength', hlt', hpadded'⟩ := PublicKey.verifyFixed_eq_true_iff.mp hother
  -- Verification compares the whole padding, which is the fixed-width form of the power.
  have hraise : k.publicKey.raise (Octets.toNat signature) =
      k.publicKey.raise (Octets.toNat other) := by
    have hforms := Option.some_inj.mp (hpadded.symm.trans hpadded')
    have hvalues := congrArg Octets.toNat hforms
    rwa [PublicKey.toNat_ofNatWidth_size (k.publicKey.raise_lt _),
      PublicKey.toNat_ofNatWidth_size (k.publicKey.raise_lt _)] at hvalues
  apply Octets.toNat_injOn_length (hlength.trans hlength'.symm)
  rw [← hprimes.root_raise hlt, hraise, hprimes.root_raise hlt']

/-- Deterministic signatures. Whatever the factors of the key, a signature that is returned has
the length of the modulus and verifies under the public key. If the factors are distinct primes
and the modulus is long enough for the padding, a signature is returned, and of all octet strings
it is the only one that verifies. -/
theorem signFixed_complete_unique (k : PrivateKey) (digest : Digest) (message : Octets) :
    (∀ signature, k.signFixed digest message = .ok signature →
      signature.length = k.size ∧ k.publicKey.verifyFixed digest message signature = true) ∧
    (k.p.Prime → k.q.Prime → k.p ≠ k.q → leastFixedSize digest ≤ k.size →
      ∃ signature, k.signFixed digest message = .ok signature ∧
        ∀ other, k.publicKey.verifyFixed digest message other = true ↔ other = signature) := by
  constructor
  · intro signature h
    have hverify := verifyFixed_of_signFixed h
    exact ⟨(PublicKey.verifyFixed_eq_true_iff.mp hverify).1, hverify⟩
  · intro hp hq hpq hsize
    have hprimes : k.HasDistinctPrimes := ⟨hp, hq, hpq⟩
    obtain ⟨signature, h⟩ := hprimes.exists_signFixed message hsize
    have hverify := verifyFixed_of_signFixed h
    refine ⟨signature, h, fun other => ⟨fun hother => ?_, ?_⟩⟩
    · exact hprimes.eq_of_verifyFixed hother hverify
    · rintro rfl
      exact hverify

/-- A key that meets the conditions, with the longer of the two paddings. -/
theorem signFixed_complete_unique_mersenne :
    ∃ signature, mersenne.signFixed .sha512 [0x61] = .ok signature ∧ signature.length = 141 ∧
      ∀ other, mersenne.publicKey.verifyFixed .sha512 [0x61] other = true ↔ other = signature := by
  obtain ⟨hsound, hcomplete⟩ := signFixed_complete_unique mersenne .sha512 [0x61]
  obtain ⟨hp, hq, hpq⟩ := hasDistinctPrimes_mersenne
  obtain ⟨signature, hsign, hunique⟩ := hcomplete hp hq hpq (by rw [size_mersenne]; decide)
  exact ⟨signature, hsign, (hsound signature hsign).1.trans size_mersenne, hunique⟩

end PrivateKey

namespace PublicKey

/-- A signature is one of a single digest. Verification looks at a message through its digest alone,
and whatever the hash functions and the factors of the key are, the octets of a signature determine
the function that the digest came from and the digest itself. So nothing verifies with both
functions, be it for one message or for two. -/
theorem digest_of_signature (k : PublicKey) (signature : Octets) :
    (∀ digest message, k.verifyFixed digest message signature = true ↔
      k.IsSignatureOf signature digest (digest.hash message)) ∧
    (∀ digest other hashed hashed', k.IsSignatureOf signature digest hashed →
      k.IsSignatureOf signature other hashed' → digest = other ∧ hashed = hashed') ∧
    ∀ m₁ m₂, ¬ (k.verifyFixed .sha256 m₁ signature = true ∧
      k.verifyFixed .sha512 m₂ signature = true) := by
  refine ⟨fun digest message => verifyFixed_iff_isSignatureOf, ?_, ?_⟩
  · intro digest other hashed hashed' h h'
    exact h.unique h'
  · rintro m₁ m₂ ⟨h, h'⟩
    have hsame := (verifyFixed_iff_isSignatureOf.mp h).unique (verifyFixed_iff_isSignatureOf.mp h')
    exact absurd hsame.1 (by decide)

/-- A signature that verifies with the shorter digest, and with the longer one for no message. -/
theorem digest_of_signature_mersenne :
    ∃ signature, PrivateKey.mersenne.publicKey.IsSignatureOf signature .sha256
        (Digest.hash .sha256 [0x61]) ∧
      (∀ digest hashed, PrivateKey.mersenne.publicKey.IsSignatureOf signature digest hashed →
        Digest.sha256 = digest ∧ Digest.hash .sha256 [0x61] = hashed) ∧
      ∀ message, PrivateKey.mersenne.publicKey.verifyFixed .sha512 message signature = false := by
  obtain ⟨signature, hsign⟩ : ∃ s, PrivateKey.mersenne.signFixed .sha256 [0x61] = .ok s :=
    PrivateKey.hasDistinctPrimes_mersenne.exists_signFixed [0x61]
      (by rw [PrivateKey.size_mersenne]; decide)
  have hverify := PrivateKey.verifyFixed_of_signFixed hsign
  obtain ⟨hdigest, hunique, hseparate⟩ :=
    digest_of_signature PrivateKey.mersenne.publicKey signature
  have hsignature := (hdigest .sha256 [0x61]).mp hverify
  refine ⟨signature, hsignature, fun digest hashed => hunique _ _ _ _ hsignature, fun message => ?_⟩
  exact Bool.eq_false_iff.mpr fun h => hseparate [0x61] message ⟨hverify, h⟩

end PublicKey

end KeyCustody.Rsa
