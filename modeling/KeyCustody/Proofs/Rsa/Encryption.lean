import KeyCustody.Proofs.Outcome
import KeyCustody.Proofs.Rsa.MersenneKey
import KeyCustody.Rsa.Operations
import Mathlib.Data.List.TakeWhile

/-!
# Encryption of short messages

The padding hides a message under two masks, each computed from the other half, and opening takes
them off in the opposite order. Behind the label's digest only zeros precede the mark before the
message, so the message begins where the first octet other than zero is left behind. The padded
octets begin with a zero and are a residue of every modulus of their length; the ciphertext is
written in the full length of the modulus, so that its length says nothing of its value.

Nothing else can be opened. The checks leave open only what the masks hide, and putting these on
again gives the same octets, so what opens is a padding of the message that it opens to. As the
private operation confirms its result by the public one, what decrypts is a ciphertext.

## Main results

* `Rsa.length_mask` — masks have the length that is asked for
* `Rsa.sealMessage?_isSome_iff` — when the padding fits
* `Rsa.openMessage?_sealMessage?`, `Rsa.sealMessage?_of_openMessage?` — the padding is undone, and
  nothing but a padding is
* `Rsa.PublicKey.encrypt_eq_ok_iff` — what encryption returns, and when
* `Rsa.PrivateKey.HasDistinctPrimes.decrypt_of_encrypt` — with distinct prime factors decryption
  undoes encryption
* `Rsa.PrivateKey.exists_encrypt_of_decrypt` — what decrypts is a ciphertext, whatever the factors
* `Rsa.PrivateKey.decrypt_inverts_encrypt` — when messages are encrypted, and what is decrypted
-/

namespace KeyCustody.Rsa

/-! ## Masks -/

section Mask

variable {hash : Octets → Octets} {size : Nat}

theorem length_maskBlocks (hhash : ∀ b, (hash b).length = size) (seed : Octets)
    (count counter : Nat) : (maskBlocks hash seed count counter).length = count * size := by
  induction count generalizing counter with
  | zero => simp [maskBlocks]
  | succ count ih => rw [maskBlocks, List.length_append, hhash, ih, Nat.succ_mul, Nat.add_comm]

theorem length_mask (hhash : ∀ b, (hash b).length = size) (hsize : 0 < size) (seed : Octets)
    (length : Nat) : (mask hash size seed length).length = length := by
  have henough : length ≤ (length + size - 1) / size * size := by
    have hdivision := Nat.div_add_mod' (length + size - 1) size
    have hremainder := Nat.mod_lt (length + size - 1) hsize
    omega
  rw [mask, List.length_take, length_maskBlocks hhash, Nat.min_eq_left henough]

end Mask

/-! ## Padding -/

@[simp] theorem length_labelDigest : labelDigest.length = 20 := Sha1.length_hash []

theorem sealMessage?_isSome_iff (message seed : Octets) (size : Nat) :
    (sealMessage? message seed size).isSome ↔ message.length + 42 ≤ size := by
  simp only [sealMessage?]
  split_ifs with h <;> simp [h]

/-- What is masked: the label's digest, zeros, the mark and the message. -/
def sealedData (message : Octets) (size : Nat) : Octets :=
  labelDigest ++ List.replicate (size - message.length - 42) 0 ++ [0x01] ++ message

theorem length_sealedData {message : Octets} {size : Nat} (h : message.length + 42 ≤ size) :
    (sealedData message size).length = size - 21 := by
  simp only [sealedData, List.length_append, length_labelDigest, List.length_replicate,
    List.length_cons, List.length_nil]
  omega

/-- The message is what follows the first octet other than zero. -/
theorem dropWhile_sealedData (message : Octets) (size : Nat) :
    ((sealedData message size).drop 20).dropWhile (· == 0) = 0x01 :: message := by
  have hzeros : ∀ x ∈ List.replicate (size - message.length - 42) (0 : UInt8),
      (x == 0) = true := by
    intro x hx
    rw [List.eq_of_mem_replicate hx, beq_self_eq_true]
  rw [sealedData, List.append_assoc, List.append_assoc,
    List.drop_left' length_labelDigest, List.dropWhile_append_of_pos hzeros]
  rfl

variable {message seed padded : Octets} {size : Nat}

/-- Between the label's digest and the mark there are zeros, and the length tells how many. -/
theorem eq_sealedData {data : Octets} (hsize : 42 ≤ size) (hlength : data.length = size - 21)
    (hlabel : data.take 20 = labelDigest)
    (hmark : (data.drop 20).dropWhile (· == 0) = 0x01 :: message) :
    message.length + 42 ≤ size ∧ data = sealedData message size := by
  have hzero : ∀ x ∈ (data.drop 20).takeWhile (· == 0), x = 0 := by
    intro x hx
    have hx' := List.mem_takeWhile_imp hx
    exact beq_iff_eq.mp hx'
  obtain ⟨count, hzeros⟩ : ∃ count, (data.drop 20).takeWhile (· == 0) = List.replicate count 0 :=
    ⟨_, List.eq_replicate_of_mem hzero⟩
  have hdata : data = labelDigest ++ List.replicate count 0 ++ [0x01] ++ message :=
    calc data = data.take 20 ++ data.drop 20 := (List.take_append_drop 20 data).symm
      _ = labelDigest ++ (List.replicate count 0 ++ 0x01 :: message) := by
          rw [hlabel, ← List.takeWhile_append_dropWhile (p := (· == 0)) (l := data.drop 20),
            hzeros, hmark]
      _ = labelDigest ++ List.replicate count 0 ++ [0x01] ++ message := by simp
  have hcount : data.length = 20 + count + 1 + message.length := by
    simp [hdata, Nat.add_assoc, Nat.add_comm 1]
  have hfill : count = size - message.length - 42 := by omega
  refine ⟨by omega, ?_⟩
  rw [hdata, sealedData, hfill]

/-- The padding is a zero octet, the masked seed and the masked data. -/
theorem sealMessage?_eq_some_iff : sealMessage? message seed size = some padded ↔
    message.length + 42 ≤ size ∧ ∃ maskedSeed masked,
      padded = 0x00 :: (maskedSeed ++ masked) ∧
      masked = Octets.xor (sealedData message size)
        (mask Sha1.hash 20 seed (sealedData message size).length) ∧
      maskedSeed = Octets.xor seed (mask Sha1.hash 20 masked 20) := by
  simp only [sealMessage?]
  constructor
  · intro h
    split_ifs at h with hfits
    exact ⟨hfits, _, _, (Option.some_inj.mp h).symm, rfl, rfl⟩
  · rintro ⟨hfits, maskedSeed, masked, rfl, rfl, rfl⟩
    rw [if_pos hfits]
    rfl

theorem length_of_sealMessage? (hseed : seed.length = 20)
    (h : sealMessage? message seed size = some padded) : padded.length = size := by
  obtain ⟨hfits, maskedSeed, masked, rfl, rfl, rfl⟩ := sealMessage?_eq_some_iff.mp h
  rw [List.length_cons, List.length_append, Octets.length_xor, Octets.length_xor,
    length_mask Sha1.length_hash (by omega), length_mask Sha1.length_hash (by omega),
    length_sealedData hfits, hseed]
  omega

/-- The padding begins with a zero octet, so it spells a residue of every modulus of its
length. -/
theorem toNat_of_sealMessage?_lt {k : PublicKey} (hseed : seed.length = 20)
    (h : sealMessage? message seed k.size = some padded) : Octets.toNat padded < k.modulus := by
  have hlength := length_of_sealMessage? hseed h
  obtain ⟨-, maskedSeed, masked, rfl, -, -⟩ := sealMessage?_eq_some_iff.mp h
  exact k.toNat_zero_cons_lt hlength

theorem openMessage?_sealMessage? (hseed : seed.length = 20)
    (h : sealMessage? message seed size = some padded) : openMessage? padded = some message := by
  have hlength := length_of_sealMessage? hseed h
  obtain ⟨hfits, maskedSeed, masked, rfl, hmasked, hmaskedSeed⟩ := sealMessage?_eq_some_iff.mp h
  -- Each mask is as long as what it covers, so taking it off once more leaves what was there.
  have hmask : ∀ s n, (mask Sha1.hash 20 s n).length = n :=
    length_mask Sha1.length_hash (by omega)
  have hlengthSeed : maskedSeed.length = 20 := by
    rw [hmaskedSeed, Octets.length_xor, hmask, hseed, Nat.min_self]
  have hlengthMasked : masked.length = (sealedData message size).length := by
    rw [hmasked, Octets.length_xor, hmask, Nat.min_self]
  have hseedBack : Octets.xor maskedSeed (mask Sha1.hash 20 masked 20) = seed := by
    rw [hmaskedSeed, Octets.xor_xor_cancel (by rw [hmask, hseed])]
  have hdataBack : Octets.xor masked (mask Sha1.hash 20 seed masked.length) =
      sealedData message size := by
    rw [hlengthMasked, hmasked, Octets.xor_xor_cancel (by rw [hmask])]
  -- The three checks: the zero octet in front, the least length, and the label.
  have hlabel : (sealedData message size).take 20 = labelDigest := by
    rw [sealedData, List.append_assoc, List.append_assoc, List.take_left' length_labelDigest]
  have hlong : 42 ≤ (0x00 :: (maskedSeed ++ masked) : Octets).length := by omega
  unfold openMessage?
  dsimp only
  rw [List.take_left' hlengthSeed, List.drop_left' hlengthSeed, hseedBack, hdataBack,
    if_pos ⟨rfl, hlong, hlabel⟩, dropWhile_sealedData]
  rfl

/-- What is found in octets that open, when the masks are taken off. -/
theorem openMessage?_eq_some {b : Octets} (h : openMessage? b = some message) :
    ∃ maskedSeed masked seed data, b = 0x00 :: (maskedSeed ++ masked) ∧
      maskedSeed.length = 20 ∧ 42 ≤ b.length ∧
      seed = Octets.xor maskedSeed (mask Sha1.hash 20 masked 20) ∧
      data = Octets.xor masked (mask Sha1.hash 20 seed masked.length) ∧
      data.take 20 = labelDigest ∧ (data.drop 20).dropWhile (· == 0) = 0x01 :: message := by
  cases b with
  | nil => cases h
  | cons first rest =>
    unfold openMessage? at h
    dsimp only at h
    split_ifs at h with hchecks
    obtain ⟨rfl, hlong, hlabel⟩ := hchecks
    refine ⟨rest.take 20, rest.drop 20, _, _, by rw [List.take_append_drop], ?_, hlong, rfl, rfl,
      hlabel, ?_⟩
    · rw [List.length_cons] at hlong
      rw [List.length_take]
      omega
    · split at h
      · next x opened hopened =>
        split_ifs at h with hx
        obtain rfl := Option.some_inj.mp h
        rw [hopened, hx]
      · cases h

/-- Octets that open are a padding of the message that they open to. -/
theorem sealMessage?_of_openMessage? {b : Octets} (h : openMessage? b = some message) :
    ∃ seed, seed.length = 20 ∧ sealMessage? message seed b.length = some b := by
  obtain ⟨maskedSeed, masked, seed, data, hb, hlengthSeed, hlong, hseed, hdata, hlabel, hmark⟩ :=
    openMessage?_eq_some h
  have hmask : ∀ s n, (mask Sha1.hash 20 s n).length = n :=
    length_mask Sha1.length_hash (by omega)
  have hlength : b.length = masked.length + 21 := by
    rw [hb, List.length_cons, List.length_append, hlengthSeed]
    omega
  have hlengthData : data.length = masked.length := by
    rw [hdata, Octets.length_xor, hmask, Nat.min_self]
  obtain ⟨hfits, rfl⟩ := eq_sealedData hlong (by omega) hlabel hmark
  -- Putting a mask on once more gives back what it was taken off from.
  refine ⟨seed, ?_, sealMessage?_eq_some_iff.mpr ⟨hfits, maskedSeed, masked, hb, ?_, ?_⟩⟩
  · rw [hseed, Octets.length_xor, hmask, hlengthSeed, Nat.min_self]
  · rw [hlengthData, hdata, Octets.xor_xor_cancel (by rw [hmask])]
  · rw [hseed, Octets.xor_xor_cancel (by rw [hmask, hlengthSeed])]

/-- Padding takes up 42 octets. -/
theorem length_of_openMessage? {b : Octets} (h : openMessage? b = some message) :
    message.length + 42 ≤ b.length := by
  obtain ⟨seed, -, hseal⟩ := sealMessage?_of_openMessage? h
  exact (sealMessage?_eq_some_iff.mp hseal).1

/-! ## Encryption and decryption -/

/-- A message is encrypted exactly when it leaves room for the padding. -/
theorem PublicKey.encrypt_eq_ok_iff {k : PublicKey} {ciphertext : Octets} :
    k.encrypt seed message = .ok ciphertext ↔ ∃ padded, sealMessage? message seed k.size =
      some padded ∧ ciphertext = Octets.ofNatWidth k.size (k.raise (Octets.toNat padded)) := by
  unfold encrypt
  cases sealMessage? message seed k.size with
  | none => simp
  | some padded => simp [eq_comm]

theorem PublicKey.exists_encrypt_iff {k : PublicKey} :
    (∃ ciphertext, k.encrypt seed message = .ok ciphertext) ↔ message.length + 42 ≤ k.size := by
  rw [← sealMessage?_isSome_iff message seed, Option.isSome_iff_exists]
  simp only [encrypt_eq_ok_iff]
  constructor
  · rintro ⟨ciphertext, padded, hpadded, -⟩
    exact ⟨padded, hpadded⟩
  · rintro ⟨padded, hpadded⟩
    exact ⟨_, padded, hpadded, rfl⟩

theorem PublicKey.encrypt_eq_error_iff {k : PublicKey} {fault : Fault} :
    k.encrypt seed message = .error fault ↔
      k.size < message.length + 42 ∧ fault = .messageTooLong := by
  have hfits := sealMessage?_isSome_iff message seed k.size
  unfold encrypt
  cases hpadded : sealMessage? message seed k.size with
  | none =>
    rw [hpadded] at hfits
    have hshort : k.size < message.length + 42 := by simpa using hfits
    simp [hshort, eq_comm]
  | some padded =>
    rw [hpadded] at hfits
    have hlong : ¬ k.size < message.length + 42 := by simpa using hfits
    simp [hlong]

/-- A ciphertext has the full length of the modulus, also where its number is short. -/
theorem PublicKey.length_of_encrypt {k : PublicKey} {ciphertext : Octets}
    (h : k.encrypt seed message = .ok ciphertext) : ciphertext.length = k.size := by
  obtain ⟨padded, -, rfl⟩ := encrypt_eq_ok_iff.mp h
  exact Octets.length_ofNatWidth _ _

/-- Decryption returns what the padding under the private result holds. -/
theorem PrivateKey.decrypt_eq_ok_iff {k : PrivateKey} {ciphertext : Octets} :
    k.decrypt ciphertext = .ok message ↔ ciphertext.length = k.size ∧
      ∃ m, k.recover? (Octets.toNat ciphertext) = .ok m ∧
        openMessage? (Octets.ofNatWidth k.size m) = some message := by
  unfold decrypt
  split_ifs with hlength
  · rw [Outcome.bind_eq_ok_iff]
    constructor
    · rintro ⟨m, hm, hopen⟩
      refine ⟨hlength, m, hm, ?_⟩
      cases hpadded : openMessage? (Octets.ofNatWidth k.size m) with
      | none => simp [hpadded] at hopen
      | some opened => simpa [hpadded] using hopen
    · rintro ⟨-, m, hm, hopen⟩
      exact ⟨m, hm, by rw [hopen]⟩
  · simp [hlength]

theorem PrivateKey.decrypt_eq_error {k : PrivateKey} {ciphertext : Octets} {fault : Fault}
    (h : k.decrypt ciphertext = .error fault) : fault = .decryption ∨ fault = .internal := by
  unfold decrypt at h
  split_ifs at h with hlength
  · rcases Outcome.bind_eq_error_iff.mp h with hrecover | ⟨m, -, hopen⟩
    · exact recover?_eq_error hrecover
    · cases hpadded : openMessage? (Octets.ofNatWidth k.size m) with
      | none =>
        rw [hpadded] at hopen
        exact .inl (Except.error.inj hopen).symm
      | some opened => simp [hpadded] at hopen
  · exact .inl (Except.error.inj h).symm

/-- With distinct prime factors decryption undoes encryption. -/
theorem PrivateKey.HasDistinctPrimes.decrypt_of_encrypt {k : PrivateKey}
    (hprimes : k.HasDistinctPrimes) (hseed : seed.length = 20) {ciphertext : Octets}
    (h : k.publicKey.encrypt seed message = .ok ciphertext) :
    k.decrypt ciphertext = .ok message := by
  obtain ⟨padded, hpadded, rfl⟩ := PublicKey.encrypt_eq_ok_iff.mp h
  rw [PrivateKey.decrypt_eq_ok_iff, PrivateKey.size_eq,
    PublicKey.toNat_ofNatWidth_size (k.publicKey.raise_lt _)]
  refine ⟨Octets.length_ofNatWidth _ _, Octets.toNat padded, ?_, ?_⟩
  · exact hprimes.recover?_raise (toNat_of_sealMessage?_lt hseed hpadded)
  · rw [Octets.ofNatWidth_toNat_of_length (length_of_sealMessage? hseed hpadded)]
    exact openMessage?_sealMessage? hseed hpadded

/-- What a private key decrypts is a ciphertext of the message, whatever the factors: the private
operation hands out a number only if the public one leads back from it. -/
theorem PrivateKey.exists_encrypt_of_decrypt {k : PrivateKey} {ciphertext : Octets}
    (h : k.decrypt ciphertext = .ok message) :
    ∃ seed, seed.length = 20 ∧ k.publicKey.encrypt seed message = .ok ciphertext := by
  obtain ⟨hlength, m, hrecover, hopen⟩ := decrypt_eq_ok_iff.mp h
  obtain ⟨-, hroot, hraise⟩ := recover?_eq_ok_iff.mp hrecover
  have hm : m < k.publicKey.modulus := hroot ▸ k.root_lt _
  obtain ⟨seed, hseed, hpadded⟩ := sealMessage?_of_openMessage? hopen
  rw [Octets.length_ofNatWidth] at hpadded
  refine ⟨seed, hseed, PublicKey.encrypt_eq_ok_iff.mpr ⟨_, hpadded, ?_⟩⟩
  calc ciphertext = Octets.ofNatWidth k.size (Octets.toNat ciphertext) :=
        (Octets.ofNatWidth_toNat_of_length hlength).symm
    _ = Octets.ofNatWidth k.size (k.publicKey.raise m) := by rw [hraise]
    _ = Octets.ofNatWidth k.size
          (k.publicKey.raise (Octets.toNat (Octets.ofNatWidth k.size m))) := by
        rw [PrivateKey.size_eq, PublicKey.toNat_ofNatWidth_size hm]

/-- Octets of another length, and those that spell no residue, are refused before any padding is
looked at. -/
theorem PrivateKey.decrypt_of_not_residue {k : PrivateKey} {ciphertext : Octets}
    (h : ciphertext.length ≠ k.size ∨ k.publicKey.modulus ≤ Octets.toNat ciphertext) :
    k.decrypt ciphertext = .error .decryption := by
  unfold decrypt
  split_ifs with hlength
  · have hvalue : ¬ Octets.toNat ciphertext < k.publicKey.modulus :=
      not_lt.mpr (h.resolve_left (not_not.mpr hlength))
    -- The private operation takes residues only, so no number is there to look for a padding in.
    rw [recover?, if_neg hvalue]
    rfl
  · rfl

/-- Encryption of short messages. A message is encrypted exactly if it leaves 42 octets of the
modulus over, whatever the seed, and its ciphertext has the length of the modulus. A private key
whose factors are distinct primes decrypts every ciphertext of a message to that message. Whatever
the factors, it decrypts nothing to a message but the ciphertexts of that message; octets of another
length than the modulus, and those that spell a number not below it, are refused. -/
theorem PrivateKey.decrypt_inverts_encrypt :
    (∀ (k : PublicKey) (seed message : Octets),
      ((∃ ciphertext, k.encrypt seed message = .ok ciphertext) ↔ message.length + 42 ≤ k.size) ∧
      ∀ ciphertext, k.encrypt seed message = .ok ciphertext → ciphertext.length = k.size) ∧
    ∀ (k : PrivateKey) (ciphertext : Octets),
      (∀ message, k.decrypt ciphertext = .ok message →
        ∃ seed, seed.length = 20 ∧ k.publicKey.encrypt seed message = .ok ciphertext) ∧
      (k.p.Prime → k.q.Prime → k.p ≠ k.q → ∀ seed message, seed.length = 20 →
        k.publicKey.encrypt seed message = .ok ciphertext → k.decrypt ciphertext = .ok message) ∧
      (ciphertext.length ≠ k.size ∨ k.publicKey.modulus ≤ Octets.toNat ciphertext →
        k.decrypt ciphertext = .error .decryption) := by
  constructor
  · intro k seed message
    exact ⟨PublicKey.exists_encrypt_iff, fun ciphertext => PublicKey.length_of_encrypt⟩
  · intro k ciphertext
    refine ⟨fun message => exists_encrypt_of_decrypt, ?_, decrypt_of_not_residue⟩
    intro hp hq hpq seed message hseed h
    have hprimes : k.HasDistinctPrimes := ⟨hp, hq, hpq⟩
    exact hprimes.decrypt_of_encrypt hseed h

/-- The empty message, a message that is one octet too long, and octets one short of the modulus. -/
theorem PrivateKey.decrypt_inverts_encrypt_empty :
    let seed : Octets := List.replicate 20 7
    let k := mersenne.publicKey
    (∃ ciphertext, k.encrypt seed [] = .ok ciphertext ∧ ciphertext.length = 141 ∧
      mersenne.decrypt ciphertext = .ok []) ∧
    (¬ ∃ ciphertext, k.encrypt seed (List.replicate 100 0) = .ok ciphertext) ∧
    mersenne.decrypt (List.replicate 140 0) = .error .decryption := by
  intro seed k
  have hsize : k.size = 141 := size_mersenne
  obtain ⟨hencrypt, hdecrypt⟩ := decrypt_inverts_encrypt
  obtain ⟨hfits, hlength⟩ := hencrypt k seed []
  obtain ⟨hprime_p, hprime_q, hne⟩ := hasDistinctPrimes_mersenne
  obtain ⟨ciphertext, hciphertext⟩ := hfits.mpr (by rw [hsize]; decide)
  refine ⟨⟨ciphertext, hciphertext, (hlength _ hciphertext).trans hsize, ?_⟩, ?_, ?_⟩
  · exact (hdecrypt mersenne ciphertext).2.1 hprime_p hprime_q hne seed [] rfl hciphertext
  · rw [(hencrypt k seed (List.replicate 100 0)).1, hsize, List.length_replicate]
    omega
  · apply (hdecrypt mersenne (List.replicate 140 0)).2.2
    rw [size_mersenne, List.length_replicate]
    exact .inl (by omega)

end KeyCustody.Rsa
