import KeyCustody.Proofs.Rsa.Encryption
import KeyCustody.Proofs.Rsa.MersenneKey

/-!
# Salted signatures

Under the mask of a salted padding stand zeros, one mark, and the salt. The padding has a fixed
length, so the place of the mark tells the length of the salt, and verification looks for the mark
in the place that belongs to the length it is given. Whatever the hash functions do, a signature
therefore verifies with the length of its own salt and with no other.

The padding is a number of one bit less than the modulus: the bits of its first octet beyond that
are cleared, after masking. The octet under them is a zero or the mark, whose single bit is never
among those cleared, so nothing is lost.

## Main results

* `Rsa.checkSalted_of_saltedPadding?` — the check accepts a padding for the length of its salt only
* `Rsa.saltedPadding?_isSome_iff`, `Rsa.toNat_of_saltedPadding?_lt` — when the padding fits, and
  that it is a residue
* `Rsa.PrivateKey.verifySalted_of_signSalted` — a signature that is returned is accepted for the
  length of its salt only
* `Rsa.PrivateKey.signWithSalt_binds_salt` — when there is a signature, and for which lengths it
  verifies
-/

namespace KeyCustody.Rsa

/-! ## Clearing leading bits -/

/-- A mask that is applied around the clearing of bits leaves those that were not cleared. -/
theorem and_xor_and (x y c : UInt8) : ((x ^^^ y) &&& c ^^^ y) &&& c = x &&& c := by
  apply UInt8.eq_of_toBitVec_eq
  ext i hi
  simp only [UInt8.toBitVec_and, UInt8.toBitVec_xor, BitVec.getElem_and, BitVec.getElem_xor]
  cases x.toBitVec[i] <;> cases y.toBitVec[i] <;> cases c.toBitVec[i] <;> rfl

@[simp] theorem length_clearLeading (count : Nat) (b : Octets) :
    (clearLeading count b).length = b.length := by
  cases b <;> rfl

theorem clearLeading_clearLeading (count : Nat) (b : Octets) :
    clearLeading count (clearLeading count b) = clearLeading count b := by
  cases b with
  | nil => rfl
  | cons x b => rw [clearLeading, clearLeading, UInt8.and_assoc, UInt8.and_self]

/-- Taking a mask off cleared octets leaves what was under it, cleared. -/
theorem clearLeading_xor_clearLeading {a m : Octets} (count : Nat) (h : a.length ≤ m.length) :
    clearLeading count (Octets.xor (clearLeading count (Octets.xor a m)) m) =
      clearLeading count a := by
  cases a with
  | nil => rfl
  | cons x a =>
    cases m with
    | nil => simp at h
    | cons y m =>
      have hrest : Octets.xor (Octets.xor a m) m = a := Octets.xor_xor_cancel (by simpa using h)
      simp only [Octets.xor, List.zipWith_cons_cons, clearLeading] at hrest ⊢
      rw [and_xor_and, hrest]

/-- Octets with cleared bits spell a number of that many bits less. -/
theorem toNat_clearLeading_lt {count : Nat} {b : Octets} (hcount : count ≤ 8) (hb : b ≠ []) :
    Octets.toNat (clearLeading count b) < 2 ^ (8 * b.length - count) := by
  obtain ⟨x, rest, rfl⟩ := List.exists_cons_of_ne_nil hb
  have hmask : (UInt8.ofNat (0xff >>> count)).toNat < 2 ^ (8 - count) := by
    interval_cases count <;> decide
  have hfirst : (x &&& UInt8.ofNat (0xff >>> count)).toNat < 2 ^ (8 - count) := by
    rw [UInt8.toNat_and]
    exact Nat.and_lt_two_pow _ hmask
  have hrest := Octets.toNat_lt rest
  have hlength : 8 * (rest.length + 1) - count = (8 - count) + 8 * rest.length := by omega
  rw [clearLeading, Octets.toNat_cons, List.length_cons, hlength]
  calc (x &&& UInt8.ofNat (0xff >>> count)).toNat * 256 ^ rest.length + Octets.toNat rest
      < (x &&& UInt8.ofNat (0xff >>> count)).toNat * 256 ^ rest.length + 256 ^ rest.length := by
        omega
    _ = ((x &&& UInt8.ofNat (0xff >>> count)).toNat + 1) * 256 ^ rest.length := by ring
    _ ≤ 2 ^ (8 - count) * 256 ^ rest.length := Nat.mul_le_mul_right _ hfirst
    _ = 2 ^ (8 - count + 8 * rest.length) := by rw [pow_add, pow_mul]; norm_num

/-! ## The data under the mask -/

/-- What is masked: zeros, the mark and the salt. -/
def saltedData (zeros : Nat) (salt : Octets) : Octets :=
  List.replicate zeros 0 ++ [0x01] ++ salt

theorem length_saltedData (zeros : Nat) (salt : Octets) :
    (saltedData zeros salt).length = zeros + salt.length + 1 := by
  simp only [saltedData, List.length_append, List.length_replicate, List.length_cons,
    List.length_nil]
  omega

theorem take_saltedData (zeros : Nat) (salt : Octets) :
    (saltedData zeros salt).take zeros = List.replicate zeros 0 := by
  rw [saltedData, List.append_assoc, List.take_left' List.length_replicate]

theorem drop_saltedData (zeros : Nat) (salt : Octets) :
    (saltedData zeros salt).drop zeros = 0x01 :: salt := by
  rw [saltedData, List.append_assoc, List.drop_left' List.length_replicate]
  rfl

/-- Neither a zero nor the mark has a bit among the first seven. -/
theorem clearLeading_saltedData {count : Nat} (hcount : count ≤ 7) (zeros : Nat) (salt : Octets) :
    clearLeading count (saltedData zeros salt) = saltedData zeros salt := by
  cases zeros with
  | zero =>
    have hmark : (0x01 : UInt8) &&& UInt8.ofNat (0xff >>> count) = 0x01 := by
      interval_cases count <;> decide
    simp only [saltedData, List.replicate_zero, List.nil_append, List.singleton_append,
      clearLeading, hmark]
  | succ zeros =>
    simp only [saltedData, List.replicate_succ, List.cons_append, clearLeading, UInt8.zero_and]

/-- Only zeros stand before the mark, and the mark is not one: there is one place for it. -/
theorem saltedData_mark_iff {zeros n : Nat} {salt : Octets} :
    (((saltedData zeros salt).take n).all (· == 0) = true ∧
      ((saltedData zeros salt).drop n).head? = some 0x01) ↔ n = zeros := by
  constructor
  · rintro ⟨hzeros, hmark⟩
    have hvalue : ∀ i < zeros, (saltedData zeros salt)[i]? = some 0 := by
      intro i hi
      rw [saltedData, List.append_assoc, List.getElem?_append_left (by simpa using hi),
        List.getElem?_replicate, if_pos hi]
    have hplace : (saltedData zeros salt)[zeros]? = some 0x01 := by
      rw [← List.head?_drop, drop_saltedData, List.head?_cons]
    rw [List.head?_drop] at hmark
    rcases Nat.lt_trichotomy n zeros with hlt | heq | hgt
    · rw [hvalue n hlt] at hmark
      exact absurd hmark (by decide)
    · exact heq
    · -- A later place would have the mark among the zeros before it.
      have hmem : (0x01 : UInt8) ∈ (saltedData zeros salt).take n := by
        apply List.mem_of_getElem? (i := zeros)
        rw [List.getElem?_take_of_lt hgt, hplace]
      have := List.all_eq_true.mp hzeros _ hmem
      exact absurd this (by decide)
  · rintro rfl
    rw [take_saltedData, drop_saltedData]
    exact ⟨by simp, rfl⟩

/-! ## Padding -/

variable {digest : Digest} {message salt padded : Octets} {bits : Nat}

@[simp] theorem length_saltedDigest (digest : Digest) (message salt : Octets) :
    (saltedDigest digest message salt).length = digest.size :=
  digest.length_hash _

theorem saltedPadding?_isSome_iff (digest : Digest) (message salt : Octets) (bits : Nat) :
    (saltedPadding? digest message salt bits).isSome ↔
      digest.size + salt.length + 2 ≤ (bits + 7) / 8 := by
  simp only [saltedPadding?]
  split_ifs with h <;> simp [h]

/-- The padding is the masked data, the digest and a last mark. The data is cleared of the bits
beyond `bits` once it is masked, and is what taking the mask off and clearing once more leaves. -/
theorem saltedPadding?_eq_some (h : saltedPadding? digest message salt bits = some padded) :
    digest.size + salt.length + 2 ≤ (bits + 7) / 8 ∧ ∃ masked,
      padded = masked ++ saltedDigest digest message salt ++ [0xbc] ∧
      masked.length = (bits + 7) / 8 - digest.size - 1 ∧
      clearLeading (8 * ((bits + 7) / 8) - bits) masked = masked ∧
      clearLeading (8 * ((bits + 7) / 8) - bits) (Octets.xor masked
        (mask digest.hash digest.size (saltedDigest digest message salt) masked.length)) =
          saltedData ((bits + 7) / 8 - salt.length - digest.size - 2) salt := by
  simp only [saltedPadding?] at h
  split_ifs at h with hfits
  obtain rfl := Option.some_inj.mp h
  have hmask : ∀ n, (mask digest.hash digest.size (saltedDigest digest message salt) n).length = n :=
    length_mask digest.length_hash digest.size_pos _
  have hdata := length_saltedData ((bits + 7) / 8 - salt.length - digest.size - 2) salt
  have hclear := clearLeading_saltedData (by omega : 8 * ((bits + 7) / 8) - bits ≤ 7)
    ((bits + 7) / 8 - salt.length - digest.size - 2) salt
  rw [saltedData] at hdata hclear ⊢
  refine ⟨hfits, _, rfl, ?_, clearLeading_clearLeading _ _, ?_⟩
  · rw [length_clearLeading, Octets.length_xor, hmask, Nat.min_self, hdata]
    omega
  · rw [length_clearLeading, Octets.length_xor, hmask, Nat.min_self,
      clearLeading_xor_clearLeading _ (hmask _).ge, hclear]

theorem length_of_saltedPadding? (h : saltedPadding? digest message salt bits = some padded) :
    padded.length = (bits + 7) / 8 := by
  obtain ⟨hfits, masked, rfl, hmasked, -, -⟩ := saltedPadding?_eq_some h
  rw [List.length_append, List.length_append, hmasked, length_saltedDigest,
    List.length_singleton]
  omega

/-- The bits that are cleared in the first octet are those that the padding must not have. -/
theorem toNat_of_saltedPadding?_lt (h : saltedPadding? digest message salt bits = some padded) :
    Octets.toNat padded < 2 ^ bits := by
  have hlength := length_of_saltedPadding? h
  obtain ⟨hfits, masked, hpadded, hmasked, hclear, -⟩ := saltedPadding?_eq_some h
  have hne : masked ≠ [] := by
    rw [← List.length_pos_iff, hmasked]
    omega
  -- Nothing but the first octet is touched, and that is also the first one of the whole padding.
  have hwhole : clearLeading (8 * ((bits + 7) / 8) - bits) padded = padded := by
    obtain ⟨x, rest, rfl⟩ := List.exists_cons_of_ne_nil hne
    rw [hpadded]
    simp only [clearLeading, List.cons_append] at hclear ⊢
    rw [(List.cons.inj hclear).1]
  have hpaddedne : padded ≠ [] := by
    rw [← List.length_pos_iff, hlength]
    omega
  have hlt := toNat_clearLeading_lt (by omega : 8 * ((bits + 7) / 8) - bits ≤ 8) hpaddedne
  have hbits : 8 * ((bits + 7) / 8) - (8 * ((bits + 7) / 8) - bits) = bits := by omega
  rwa [hwhole, hlength, hbits] at hlt

/-- The check accepts a padding for the length of its own salt and for no other. -/
theorem checkSalted_of_saltedPadding? (h : saltedPadding? digest message salt bits = some padded)
    (length : Nat) : checkSalted digest message length bits padded = true ↔ length = salt.length := by
  have hlength := length_of_saltedPadding? h
  obtain ⟨hfits, masked, hpadded, hmasked, hclear, hdata⟩ := saltedPadding?_eq_some h
  have hlast : padded.getLast? = some 0xbc := by rw [hpadded, List.getLast?_concat]
  have htake : padded.take ((bits + 7) / 8 - digest.size - 1) = masked := by
    rw [hpadded, List.append_assoc, List.take_left' hmasked]
  have hdrop : (padded.drop ((bits + 7) / 8 - digest.size - 1)).take digest.size =
      saltedDigest digest message salt := by
    rw [hpadded, List.append_assoc, List.drop_left' hmasked,
      List.take_left' (length_saltedDigest _ _ _)]
  simp only [checkSalted]
  split_ifs with hshape
  · rw [htake, hdrop, hclear, hdata]
    simp only [Bool.and_eq_true, beq_iff_eq, beq_self_eq_true, true_and]
    rw [saltedData_mark_iff]
    constructor
    · rintro ⟨hzeros, -⟩
      omega
    · rintro rfl
      have hzeros : (bits + 7) / 8 - digest.size - salt.length - 2 =
          (bits + 7) / 8 - salt.length - digest.size - 2 := by omega
      refine ⟨hzeros, ?_⟩
      rw [hzeros, ← List.drop_drop, drop_saltedData]
      rfl
  · -- The shape is right for the length of the salt itself.
    simp only [false_iff]
    rintro rfl
    exact hshape ⟨hlength, hfits, hlast⟩

/-! ## Signatures -/

namespace PublicKey

variable {k : PublicKey}

theorem two_pow_bits_le (k : PublicKey) : 2 ^ (k.bits - 1) ≤ k.modulus := by
  have hmodulus : k.modulus ≠ 0 := Nat.ne_of_gt (Nat.zero_lt_of_lt k.one_lt_modulus)
  rw [bits, Octets.bitLength, if_neg hmodulus, Nat.add_sub_cancel]
  exact Nat.log2_self_le hmodulus

/-- A padding that the public operation arrives at is checked as it was made. -/
theorem verifySalted_of_raise {signature : Octets} (hlength : signature.length = k.size)
    (hpadded : saltedPadding? digest message salt (k.bits - 1) = some padded)
    (hraise : k.raise (Octets.toNat signature) = Octets.toNat padded) (length : Nat) :
    k.verifySalted digest length message signature = true ↔ length = salt.length := by
  have hwidth := length_of_saltedPadding? hpadded
  have hlt : Octets.toNat padded < Nat.pow 256 ((k.bits - 1 + 7) / 8) := by
    rw [← hwidth]
    exact Octets.toNat_lt padded
  rw [← checkSalted_of_saltedPadding? hpadded length, verifySalted]
  simp only [hlength, hraise, hlt, Octets.ofNatWidth_toNat_of_length hwidth, beq_self_eq_true,
    decide_true, Bool.true_and]

end PublicKey

namespace PrivateKey

variable {k : PrivateKey}

theorem signSalted_eq_ok_iff {signature : Octets} :
    k.signSalted digest salt message = .ok signature ↔
      ∃ padded m, saltedPadding? digest message salt (k.publicKey.bits - 1) = some padded ∧
        k.recover? (Octets.toNat padded) = .ok m ∧ Octets.ofNatWidth k.size m = signature := by
  unfold signSalted
  cases saltedPadding? digest message salt (k.publicKey.bits - 1) with
  | none => simp
  | some padded =>
    cases hrecover : k.recover? (Octets.toNat padded) with
    | error fault => simp [hrecover, Except.map]
    | ok m => simp [hrecover, Except.map]

/-- A signature that is returned has the length of the modulus, and verifies for the length of its
own salt and no other. No property of the factors is needed, since the private operation hands out
nothing that the public operation does not confirm. -/
theorem verifySalted_of_signSalted {signature : Octets}
    (h : k.signSalted digest salt message = .ok signature) :
    signature.length = k.size ∧ ∀ length,
      k.publicKey.verifySalted digest length message signature = true ↔ length = salt.length := by
  obtain ⟨padded, m, hpadded, hrecover, rfl⟩ := signSalted_eq_ok_iff.mp h
  obtain ⟨-, hroot, hraise⟩ := recover?_eq_ok_iff.mp hrecover
  have hm : m < k.publicKey.modulus := hroot ▸ k.root_lt _
  refine ⟨Octets.length_ofNatWidth _ _, PublicKey.verifySalted_of_raise ?_ hpadded ?_⟩
  · exact Octets.length_ofNatWidth _ _
  · rw [size_eq, PublicKey.toNat_ofNatWidth_size hm, hraise]

/-- With distinct prime factors there is a signature as soon as the padding fits. -/
theorem HasDistinctPrimes.exists_signSalted (hprimes : k.HasDistinctPrimes) (message : Octets)
    (hfits : digest.size + salt.length + 2 ≤ k.publicKey.saltedLength) :
    ∃ signature, k.signSalted digest salt message = .ok signature := by
  obtain ⟨padded, hpadded⟩ := Option.isSome_iff_exists.mp
    ((saltedPadding?_isSome_iff digest message salt (k.publicKey.bits - 1)).mpr hfits)
  have hlt : Octets.toNat padded < k.publicKey.modulus :=
    (toNat_of_saltedPadding?_lt hpadded).trans_le k.publicKey.two_pow_bits_le
  exact ⟨_, signSalted_eq_ok_iff.mpr ⟨padded, _, hpadded, hprimes.recover?_of_lt hlt, rfl⟩⟩

theorem signWithSalt_of_le {asked : Option Nat} (draw : Entropy) (message : Octets)
    (h : digest.size + saltLength digest asked + 2 ≤ k.publicKey.saltedLength) :
    k.signWithSalt digest asked draw message =
      k.signSalted digest (draw (saltLength digest asked)) message :=
  if_pos h

theorem signWithSalt_of_lt {asked : Option Nat} (draw : Entropy) (message : Octets)
    (h : k.publicKey.saltedLength < digest.size + saltLength digest asked + 2) :
    k.signWithSalt digest asked draw message = .error .internal :=
  if_neg (Nat.not_le.mpr h)

/-- Salted signatures, with salts of any length and any octets. Whatever the factors of the key, a
signature that is returned has the length of the modulus, is accepted when the length of its salt
is asked for, and is refused for every other length. A length that is not given means that of the
digest, in signing and in verifying. Where the padding is too short for the salt there is no
signature; where it is long enough, and the factors are distinct primes, there is one. -/
theorem signWithSalt_binds_salt (k : PrivateKey) (digest : Digest) (message : Octets)
    (draw : Entropy) (hdraw : ∀ n, (draw n).length = n) :
    (∀ s signature, k.signWithSalt digest (some s) draw message = .ok signature →
      signature.length = k.size ∧
      k.publicKey.verifyWithSalt digest (some s) message signature = true ∧
      ∀ t, t ≠ s → k.publicKey.verifyWithSalt digest (some t) message signature = false) ∧
    (k.signWithSalt digest none draw message =
      k.signWithSalt digest (some digest.size) draw message ∧
      ∀ signature, k.publicKey.verifyWithSalt digest none message signature =
        k.publicKey.verifyWithSalt digest (some digest.size) message signature) ∧
    (∀ s, k.publicKey.saltedLength < digest.size + s + 2 →
      k.signWithSalt digest (some s) draw message = .error .internal) ∧
    (k.p.Prime → k.q.Prime → k.p ≠ k.q → ∀ s, digest.size + s + 2 ≤ k.publicKey.saltedLength →
      ∃ signature, k.signWithSalt digest (some s) draw message = .ok signature) := by
  refine ⟨?_, ⟨rfl, fun _ => rfl⟩, ?_, ?_⟩
  · intro s signature h
    rcases Nat.lt_or_ge k.publicKey.saltedLength (digest.size + s + 2) with hshort | hfits
    · rw [signWithSalt_of_lt draw message hshort] at h
      cases h
    · rw [signWithSalt_of_le draw message hfits] at h
      obtain ⟨hlength, hverify⟩ := verifySalted_of_signSalted h
      -- The length of the salt is the one that was asked for, so the mark stands in its place.
      have hsalt : (draw (saltLength digest (some s))).length = s := hdraw _
      refine ⟨hlength, (hverify s).mpr hsalt.symm, fun t ht => ?_⟩
      have hrefused := mt (hverify t).mp (hsalt.symm ▸ ht)
      exact Bool.eq_false_iff.mpr hrefused
  · intro s hshort
    exact signWithSalt_of_lt draw message hshort
  · intro hp hq hpq s hfits
    have hprimes : k.HasDistinctPrimes := ⟨hp, hq, hpq⟩
    have hsalt : (draw (saltLength digest (some s))).length = s := hdraw _
    rw [signWithSalt_of_le draw message hfits]
    exact hprimes.exists_signSalted message (by rw [hsalt]; exact hfits)

theorem saltedLength_mersenne : mersenne.publicKey.saltedLength = 141 := by
  rw [PublicKey.saltedLength, bits_mersenne]

/-- The longest salt that fits. -/
theorem signWithSalt_binds_salt_mersenne :
    ∃ signature, mersenne.signWithSalt .sha256 (some 107) (List.replicate · 0x5a) [0x61] =
        .ok signature ∧
      signature.length = 141 ∧
      mersenne.publicKey.verifyWithSalt .sha256 (some 107) [0x61] signature = true ∧
      mersenne.publicKey.verifyWithSalt .sha256 (some 106) [0x61] signature = false := by
  obtain ⟨hbinds, -, -, hcomplete⟩ := signWithSalt_binds_salt mersenne .sha256 [0x61]
    (List.replicate · 0x5a) fun n => List.length_replicate
  obtain ⟨hp, hq, hpq⟩ := hasDistinctPrimes_mersenne
  obtain ⟨signature, hsign⟩ := hcomplete hp hq hpq 107 (by rw [saltedLength_mersenne]; decide)
  obtain ⟨hlength, haccepted, hrefused⟩ := hbinds 107 signature hsign
  exact ⟨signature, hsign, hlength.trans size_mersenne, haccepted, hrefused 106 (by decide)⟩

end PrivateKey

end KeyCustody.Rsa
