import KeyCustody.Proofs.Cipher.KeyWrap
import KeyCustody.Proofs.Rsa.Encryption
import KeyCustody.Proofs.Rsa.KeyDocument
import KeyCustody.Proofs.Rsa.MersenneKey
import KeyCustody.Package

/-!
# Packages unwrap to what was wrapped, and nothing else unwraps

Nothing in a package says where the encrypted ephemeral key ends, and nothing has to: encryption
fills the modulus, so the modulus of the wrapping key gives the boundary. In one direction the
layers undo each other, and a key that was wrapped is recovered. In the other, whatever is
recovered fixes every octet of the second segment, because unwrapping accepts a single form of
it; a package can therefore not carry anything else, not even by its length.

## Main definitions

* `Package.Holds` — the octets are a package of the private key for the wrapping key
* `Package.openSegment` — the last step of unwrapping, behind the recovery of the ephemeral key

## Main results

* `Package.wrap_eq_ok_iff`, `Package.wrap_eq_error_iff` — how a package comes about, or fails to
* `Package.unwrap_eq_ok_iff`, `Package.unwrap_eq_error_iff` — what is recovered, or why nothing is
* `Package.wrap_recoverable` — wrapping succeeds when it should, and unwrapping undoes it
* `Package.holds_of_unwrap` — only genuine packages unwrap
-/

namespace KeyCustody.Package

/-! ## Segments -/

theorem ofOctets_eq_ok_iff {b : Octets} {length : Nat} {p : Package} :
    ofOctets b length = .ok p ↔ p.octets = b ∧ p.modulusLength = length := by
  unfold ofOctets
  split_ifs with hlength
  · constructor
    · rintro ⟨⟩
      exact ⟨rfl, rfl⟩
    · rintro ⟨rfl, rfl⟩
      rfl
  · constructor
    · rintro ⟨⟩
    · rintro ⟨rfl, rfl⟩
      exact absurd p.modulusLength_lt hlength

theorem ofOctets_eq_error_iff {b : Octets} {length : Nat} {fault : WrapFault} :
    ofOctets b length = .error fault ↔
      b.length ≤ length ∧ fault = .shortPackage b.length length := by
  unfold ofOctets
  split_ifs with hlength
  · simp [Nat.not_le.mpr hlength]
  · simp [Nat.not_lt.mp hlength, eq_comm]

/-! ## Wrapping -/

variable {secrets : PackageSecrets} {spki privateKey : Octets} {p : Package}

/-- A package is the two segments in a row, and knows the length of the first. -/
theorem wrapWith_eq_ok_iff {key : Rsa.PublicKey} : wrapWith secrets key privateKey = .ok p ↔
    ∃ wrapped encrypted, KeyWrap.wrap secrets.ephemeralKey privateKey = .ok wrapped ∧
      key.encrypt secrets.seed secrets.ephemeralKey = .ok encrypted ∧
      p.octets = encrypted ++ wrapped ∧ p.modulusLength = encrypted.length := by
  unfold wrapWith
  by_cases hempty : privateKey = []
  · -- Nothing to wrap is refused at once, and the inner layer would refuse it as well.
    have hinner : ∀ wrapped, KeyWrap.wrap secrets.ephemeralKey privateKey ≠ .ok wrapped :=
      fun wrapped h => (KeyWrap.wrap_eq_ok_iff.mp h).1 hempty
    simp [hempty ▸ hinner, hempty, bind, Except.bind]
  · simp only [hempty, if_false, Outcome.bind_eq_ok_iff, Outcome.mapError_eq_ok_iff,
      ofOctets_eq_ok_iff, exists_and_left]

/-- The layers refuse in the order in which they are applied, and joining their results never
fails: the second segment is not empty. -/
theorem wrapWith_eq_error {key : Rsa.PublicKey} {fault : WrapFault}
    (h : wrapWith secrets key privateKey = .error fault) :
    (privateKey = [] ∧ fault = .emptyPrivateKey) ∨
    (2 ^ 32 ≤ privateKey.length ∧ fault = .inner .dataLength) ∨
    (key.size < secrets.ephemeralKey.length + 42 ∧ fault = .encryption .messageTooLong) := by
  unfold wrapWith at h
  by_cases hempty : privateKey = []
  · left
    simp only [hempty, if_true] at h
    exact ⟨hempty, (Except.error.inj h).symm⟩
  · right
    simp only [hempty, if_false, Outcome.bind_eq_error_iff, Outcome.mapError_eq_error_iff,
      Outcome.mapError_eq_ok_iff, ofOctets_eq_error_iff] at h
    -- What can fail is the inner layer, then the outer one, then the boundary between them.
    rcases h with ⟨cause, hwrap, rfl⟩ | ⟨wrapped, hwrap, hrest⟩
    · rcases KeyWrap.wrap_eq_error_iff.mp hwrap with ⟨hnone, -⟩ | ⟨hlong, rfl⟩
      · exact absurd hnone hempty
      · exact .inl ⟨hlong, rfl⟩
    · rcases hrest with ⟨cause, hencrypt, rfl⟩ | ⟨encrypted, -, hboundary, -⟩
      · obtain ⟨hsize, rfl⟩ := Rsa.PublicKey.encrypt_eq_error_iff.mp hencrypt
        exact .inr ⟨hsize, rfl⟩
      · have hlength := KeyWrap.length_of_wrap hwrap
        rw [List.length_append, hlength, KeyWrap.wrappedLength] at hboundary
        omega

theorem wrap_eq_ok_iff : wrap secrets spki privateKey = .ok p ↔
    ∃ key, Rsa.PublicKey.decode? spki = some key ∧ wrapWith secrets key privateKey = .ok p := by
  unfold wrap
  cases Rsa.PublicKey.decode? spki with
  | none => simp
  | some key => simp

theorem wrap_eq_error_iff {fault : WrapFault} : wrap secrets spki privateKey = .error fault ↔
    (Rsa.PublicKey.decode? spki = none ∧ fault = .wrappingKey) ∨
    ∃ key, Rsa.PublicKey.decode? spki = some key ∧
      wrapWith secrets key privateKey = .error fault := by
  unfold wrap
  cases Rsa.PublicKey.decode? spki with
  | none => simp [eq_comm]
  | some key => simp

/-- A key of acceptable length is wrapped exactly under a modulus with room for the padding. -/
theorem exists_wrapWith_iff (secrets : PackageSecrets) (key : Rsa.PublicKey)
    (hlong : privateKey.length < 2 ^ 32) :
    (∃ p, wrapWith secrets key privateKey = .ok p) ↔
      privateKey ≠ [] ∧ secrets.ephemeralKey.length + 42 ≤ key.size := by
  constructor
  · rintro ⟨p, h⟩
    obtain ⟨wrapped, encrypted, hwrap, hencrypt, -⟩ := wrapWith_eq_ok_iff.mp h
    exact ⟨(KeyWrap.wrap_eq_ok_iff.mp hwrap).1, Rsa.PublicKey.exists_encrypt_iff.mp ⟨_, hencrypt⟩⟩
  · rintro ⟨hne, hsize⟩
    obtain ⟨wrapped, hwrap⟩ := KeyWrap.exists_wrap secrets.ephemeralKey hne hlong
    obtain ⟨encrypted, hencrypt⟩ := Rsa.PublicKey.exists_encrypt_iff.mpr hsize
    have hlength := KeyWrap.length_of_wrap hwrap
    have hboundary : encrypted.length < (encrypted ++ wrapped).length := by
      rw [List.length_append, hlength, KeyWrap.wrappedLength]
      omega
    refine ⟨⟨encrypted ++ wrapped, encrypted.length, hboundary⟩, ?_⟩
    exact wrapWith_eq_ok_iff.mpr ⟨wrapped, encrypted, hwrap, hencrypt, rfl, rfl⟩

/-- Encryption fills the modulus, so the lengths of a package are known beforehand. -/
theorem length_of_wrapWith {key : Rsa.PublicKey} (h : wrapWith secrets key privateKey = .ok p) :
    p.modulusLength = key.size ∧
      p.octets.length = expectedLength key.size privateKey.length := by
  obtain ⟨wrapped, encrypted, hwrap, hencrypt, hoctets, hmodulus⟩ := wrapWith_eq_ok_iff.mp h
  have hlength := Rsa.PublicKey.length_of_encrypt hencrypt
  constructor
  · rw [hmodulus, hlength]
  · rw [hoctets, List.length_append, hlength, KeyWrap.length_of_wrap hwrap, expectedLength]

/-! ## Unwrapping -/

/-- The octets are a package of a private key for a wrapping key. -/
structure Holds (wrappingKey : Rsa.PrivateKey) (b privateKey : Octets) : Prop where
  ne_nil : privateKey ≠ []
  length_eq : b.length = expectedLength wrappingKey.size privateKey.length
  /-- The octets before the boundary decrypt to an ephemeral key, and those behind it are the
  private key wrapped under that. -/
  exists_key : ∃ ephemeralKey, wrappingKey.decrypt (b.take wrappingKey.size) = .ok ephemeralKey ∧
    ephemeralKey.length = ephemeralKeyLength ∧
    KeyWrap.wrap ephemeralKey privateKey = .ok (b.drop wrappingKey.size)

variable {w : Rsa.PrivateKey} {b : Octets}

/-- The second segment determines the length of the private key and rules out an empty one. -/
theorem Holds.of_exists_key
    (h : ∃ ephemeralKey, w.decrypt (b.take w.size) = .ok ephemeralKey ∧
      ephemeralKey.length = ephemeralKeyLength ∧
      KeyWrap.wrap ephemeralKey privateKey = .ok (b.drop w.size)) : Holds w b privateKey := by
  obtain ⟨ephemeralKey, -, -, hwrap⟩ := id h
  have hlength := KeyWrap.length_of_wrap hwrap
  rw [List.length_drop] at hlength
  refine ⟨(KeyWrap.wrap_eq_ok_iff.mp hwrap).1, ?_, h⟩
  have hpositive : 0 < KeyWrap.wrappedLength privateKey.length := by
    rw [KeyWrap.wrappedLength]
    omega
  rw [expectedLength]
  omega

/-- The last step: what was decrypted is taken as an ephemeral key and opens the second
segment. -/
def openSegment (ephemeralKey segment : Octets) : Except WrapFault Octets :=
  if ephemeralKey.length = ephemeralKeyLength then
    (KeyWrap.unwrap ephemeralKey segment).mapError .inner
  else .error (.ephemeralLength ephemeralKey.length)

theorem openSegment_eq_ok_iff {ephemeralKey segment : Octets} :
    openSegment ephemeralKey segment = .ok privateKey ↔
      ephemeralKey.length = ephemeralKeyLength ∧
        KeyWrap.wrap ephemeralKey privateKey = .ok segment := by
  unfold openSegment
  split_ifs with hlength
  · rw [Outcome.mapError_eq_ok_iff, KeyWrap.unwrap_eq_ok_iff]
    simp [hlength]
  · simp [hlength]

theorem openSegment_eq_error {ephemeralKey segment : Octets} {fault : WrapFault}
    (h : openSegment ephemeralKey segment = .error fault) :
    (ephemeralKey.length ≠ ephemeralKeyLength ∧ fault = .ephemeralLength ephemeralKey.length) ∨
      fault = .inner .dataLength ∨ fault = .inner .integrity := by
  unfold openSegment at h
  split_ifs at h with hlength
  · right
    obtain ⟨cause, hunwrap, rfl⟩ := Outcome.mapError_eq_error_iff.mp h
    rcases KeyWrap.unwrap_eq_error hunwrap with rfl | rfl
    · exact .inl rfl
    · exact .inr rfl
  · exact .inl ⟨hlength, (Except.error.inj h).symm⟩

/-- Octets beyond the modulus are needed before anything is decrypted. -/
theorem unwrap_eq (w : Rsa.PrivateKey) (b : Octets) : unwrap w b =
    if w.size < b.length then
      (w.decrypt (b.take w.size)).mapError .decryption >>= (openSegment · (b.drop w.size))
    else .error (.shortPackage b.length w.size) := by
  unfold unwrap ofOctets
  split_ifs with hlength
  · rfl
  · rfl

/-- Unwrapping recovers a private key from its packages and from nothing else. -/
theorem unwrap_eq_ok_iff : unwrap w b = .ok privateKey ↔ Holds w b privateKey := by
  rw [unwrap_eq]
  split_ifs with hlength
  · simp only [Outcome.bind_eq_ok_iff, Outcome.mapError_eq_ok_iff, openSegment_eq_ok_iff]
    exact ⟨Holds.of_exists_key, Holds.exists_key⟩
  · -- Octets that are refused for their number are no package either.
    have hshort : ¬ Holds w b privateKey := by
      intro h
      have hpackage := h.length_eq
      rw [expectedLength, KeyWrap.wrappedLength] at hpackage
      omega
    simp [hshort]

theorem unwrap_eq_error_iff {fault : WrapFault} : unwrap w b = .error fault ↔
    (b.length ≤ w.size ∧ fault = .shortPackage b.length w.size) ∨
    (w.size < b.length ∧ ∃ cause, w.decrypt (b.take w.size) = .error cause ∧
      fault = .decryption cause) ∨
    (w.size < b.length ∧ ∃ ephemeralKey, w.decrypt (b.take w.size) = .ok ephemeralKey ∧
      openSegment ephemeralKey (b.drop w.size) = .error fault) := by
  rw [unwrap_eq]
  split_ifs with hlength
  · simp only [Outcome.bind_eq_error_iff, Outcome.mapError_eq_error_iff,
      Outcome.mapError_eq_ok_iff]
    simp [hlength, Nat.not_le.mpr hlength]
  · simp [hlength, Nat.not_lt.mp hlength, eq_comm]

/-! ## Both directions -/

/-- Distinct prime factors let the ephemeral key be recovered, and with it the private key. -/
theorem unwrap_of_wrapWith (hprimes : w.HasDistinctPrimes)
    (hkey : secrets.ephemeralKey.length = ephemeralKeyLength) (hseed : secrets.seed.length = 20)
    (h : wrapWith secrets w.publicKey privateKey = .ok p) : unwrap w p.octets = .ok privateKey := by
  obtain ⟨wrapped, encrypted, hwrap, hencrypt, hoctets, -⟩ := wrapWith_eq_ok_iff.mp h
  have hboundary : encrypted.length = w.size := Rsa.PublicKey.length_of_encrypt hencrypt
  rw [unwrap_eq_ok_iff]
  apply Holds.of_exists_key
  -- Decryption needs the very octets that encryption wrote, so the boundary must fall behind them.
  rw [hoctets, List.take_left' hboundary, List.drop_left' hboundary]
  exact ⟨secrets.ephemeralKey, hprimes.decrypt_of_encrypt hseed hencrypt, hkey, hwrap⟩

/-- Wrapping succeeds when it should, and unwrapping undoes it. With an ephemeral key of its length
and a seed of its length, whatever their octets, a private key of one octet up to below `2 ^ 32`
is wrapped under every key of distinct primes with a modulus from 74 octets up to the bound for
imported keys; the package has the expected length, its boundary is the length of the modulus, and
the private key is recovered. For arbitrary octets in place of the wrapping key, wrapping succeeds
exactly if the private key is not empty and the octets are a public key with a modulus of 74
octets or more, and it only fails as a key wrapping does. -/
theorem wrap_recoverable (secrets : PackageSecrets)
    (hkey : secrets.ephemeralKey.length = ephemeralKeyLength)
    (hseed : secrets.seed.length = 20) :
    (∀ (w : Rsa.PrivateKey) (privateKey : Octets), w.p.Prime → w.q.Prime → w.p ≠ w.q →
      74 ≤ w.size → w.publicKey.bits ≤ Rsa.PublicKey.maxBits →
      privateKey ≠ [] → privateKey.length < 2 ^ 32 →
      ∃ p, wrap secrets w.publicKey.encode privateKey = .ok p ∧
        p.octets.length = expectedLength w.size privateKey.length ∧
        p.modulusLength = w.size ∧ p.ephemeralSegment = p.octets.take w.size ∧
        unwrap w p.octets = .ok privateKey) ∧
    (∀ spki privateKey : Octets, privateKey.length < 2 ^ 32 →
      ((∃ p, wrap secrets spki privateKey = .ok p) ↔
        privateKey ≠ [] ∧ ∃ key, Rsa.PublicKey.decode? spki = some key ∧ 74 ≤ key.size)) ∧
    (∀ (spki privateKey : Octets) (error : CryptoError),
      (wrap secrets spki privateKey).mapError .keyWrap = .error error →
      ∃ fault, error = .keyWrap fault ∧
        fault ∈ [WrapFault.wrappingKey, .emptyPrivateKey, .inner .dataLength,
          .encryption .messageTooLong]) := by
  have hsize : ∀ {size : Nat}, secrets.ephemeralKey.length + 42 ≤ size ↔ 74 ≤ size := by
    intro size
    rw [hkey, ephemeralKeyLength]
  refine ⟨?_, ?_, ?_⟩
  · intro w privateKey hp hq hpq hmodulus hbits hne hlong
    obtain ⟨p, hwrap⟩ := (exists_wrapWith_iff secrets w.publicKey hlong).mpr
      ⟨hne, hsize.mpr hmodulus⟩
    obtain ⟨hboundary, hlength⟩ := length_of_wrapWith hwrap
    -- The written public key is read back as the one that the private key belongs to.
    have hread := Rsa.PublicKey.decode?_encode hbits
    have hback := unwrap_of_wrapWith ⟨hp, hq, hpq⟩ hkey hseed hwrap
    refine ⟨p, wrap_eq_ok_iff.mpr ⟨w.publicKey, hread, hwrap⟩, hlength, hboundary, ?_, hback⟩
    rw [ephemeralSegment, hboundary]
    rfl
  · intro spki privateKey hlong
    simp only [wrap_eq_ok_iff]
    constructor
    · rintro ⟨p, key, hread, hwrap⟩
      obtain ⟨hne, hmodulus⟩ := (exists_wrapWith_iff secrets key hlong).mp ⟨p, hwrap⟩
      exact ⟨hne, key, hread, hsize.mp hmodulus⟩
    · rintro ⟨hne, key, hread, hmodulus⟩
      obtain ⟨p, hwrap⟩ := (exists_wrapWith_iff secrets key hlong).mpr ⟨hne, hsize.mpr hmodulus⟩
      exact ⟨p, key, hread, hwrap⟩
  · intro spki privateKey error h
    obtain ⟨fault, hfault, rfl⟩ := Outcome.mapError_eq_error_iff.mp h
    refine ⟨fault, rfl, ?_⟩
    rcases wrap_eq_error_iff.mp hfault with ⟨-, rfl⟩ | ⟨key, -, hwrap⟩
    · simp
    · rcases wrapWith_eq_error hwrap with ⟨-, rfl⟩ | ⟨-, rfl⟩ | ⟨-, rfl⟩ <;> simp

/-- A key of two Mersenne primes wraps nine octets, which take two semiblocks. -/
theorem wrap_recoverable_mersenne :
    ∃ p, wrap ⟨List.replicate 32 0x3c, List.replicate 20 0x5a⟩
        Rsa.PrivateKey.mersenne.publicKey.encode [1, 2, 3, 4, 5, 6, 7, 8, 9] = .ok p ∧
      p.octets.length = 165 ∧
      unwrap Rsa.PrivateKey.mersenne p.octets = .ok [1, 2, 3, 4, 5, 6, 7, 8, 9] := by
  obtain ⟨hrecoverable, -, -⟩ :=
    wrap_recoverable ⟨List.replicate 32 0x3c, List.replicate 20 0x5a⟩ rfl rfl
  obtain ⟨hp, hq, hpq⟩ := Rsa.PrivateKey.hasDistinctPrimes_mersenne
  have hsize := Rsa.PrivateKey.size_mersenne
  obtain ⟨p, hwrap, hlength, -, -, hback⟩ := hrecoverable Rsa.PrivateKey.mersenne
    [1, 2, 3, 4, 5, 6, 7, 8, 9] hp hq hpq (by omega) Rsa.PrivateKey.bits_mersenne_le
    (List.cons_ne_nil _ _) (by decide)
  refine ⟨p, hwrap, ?_, hback⟩
  rw [hlength, hsize]
  rfl

/-- Only genuine packages unwrap. Whatever the factors of the wrapping key, octets whose second
segment is not a bare check value are either refused, as a key wrapping is, or unwrap to a private
key of which they are a package; and of every package the private key is recovered. The refusals
are those of octets that are too short, of a first segment that does not decrypt or decrypts to
something else than an ephemeral key, and of a second segment that wrapping does not produce. -/
theorem holds_of_unwrap (w : Rsa.PrivateKey) : ∀ b : Octets, b.length ≠ w.size + 8 →
    ((∃ error, (unwrap w b).mapError CryptoError.keyWrap = .error error) ∨
      ∃ privateKey, unwrap w b = .ok privateKey ∧ Holds w b privateKey) ∧
    (∀ privateKey, Holds w b privateKey → unwrap w b = .ok privateKey) ∧
    (∀ error, (unwrap w b).mapError CryptoError.keyWrap = .error error →
      ∃ fault, error = .keyWrap fault ∧
        (fault = .shortPackage b.length w.size ∨
          fault ∈ [WrapFault.decryption .decryption, .decryption .internal, .inner .dataLength,
            .inner .integrity] ∨
          ∃ length, length ≠ ephemeralKeyLength ∧ fault = .ephemeralLength length)) := by
  intro b _
  refine ⟨?_, fun privateKey => unwrap_eq_ok_iff.mpr, ?_⟩
  · cases hunwrap : unwrap w b with
    | error fault => exact .inl ⟨_, rfl⟩
    | ok privateKey => exact .inr ⟨privateKey, rfl, unwrap_eq_ok_iff.mp hunwrap⟩
  · intro error h
    obtain ⟨fault, hfault, rfl⟩ := Outcome.mapError_eq_error_iff.mp h
    refine ⟨fault, rfl, ?_⟩
    rcases unwrap_eq_error_iff.mp hfault with ⟨-, rfl⟩ | ⟨-, cause, hdecrypt, rfl⟩ |
      ⟨-, ephemeralKey, -, hopen⟩
    · exact .inl rfl
    · rcases Rsa.PrivateKey.decrypt_eq_error hdecrypt with rfl | rfl <;> simp
    · rcases openSegment_eq_error hopen with ⟨hlength, rfl⟩ | rfl | rfl
      · exact .inr (.inr ⟨_, hlength, rfl⟩)
      · simp
      · simp

/-- A package that unwraps under a key of two Mersenne primes. -/
theorem holds_of_unwrap_mersenne : ∃ b privateKey : Octets,
    b.length ≠ Rsa.PrivateKey.mersenne.size + 8 ∧
      unwrap Rsa.PrivateKey.mersenne b = .ok privateKey ∧
      Holds Rsa.PrivateKey.mersenne b privateKey := by
  let secrets : PackageSecrets := ⟨List.replicate 32 0x3c, List.replicate 20 0x5a⟩
  have hsize := Rsa.PrivateKey.size_mersenne
  have hroom : secrets.ephemeralKey.length + 42 ≤ Rsa.PrivateKey.mersenne.publicKey.size := by
    rw [← Rsa.PrivateKey.size_eq, hsize]
    decide
  have hlong : ([1, 2, 3] : Octets).length < 2 ^ 32 := by decide
  obtain ⟨p, hwrap⟩ := (exists_wrapWith_iff secrets Rsa.PrivateKey.mersenne.publicKey hlong).mpr
    ⟨List.cons_ne_nil _ _, hroom⟩
  have hunwrap := unwrap_of_wrapWith Rsa.PrivateKey.hasDistinctPrimes_mersenne rfl rfl hwrap
  have hlength : p.octets.length ≠ Rsa.PrivateKey.mersenne.size + 8 := by
    rw [(length_of_wrapWith hwrap).2, ← Rsa.PrivateKey.size_eq, hsize]
    decide
  obtain ⟨hrefused | ⟨privateKey, hrecovered, hholds⟩, -, -⟩ :=
    holds_of_unwrap Rsa.PrivateKey.mersenne p.octets hlength
  · obtain ⟨error, herror⟩ := hrefused
    rw [hunwrap] at herror
    cases herror
  · exact ⟨p.octets, privateKey, hlength, hrecovered, hholds⟩

end KeyCustody.Package
