import KeyCustody.PrivateKey
import KeyCustody.Proofs.Ed25519.KeyDocument
import KeyCustody.Proofs.Outcome
import KeyCustody.Proofs.P256.KeyDocument
import KeyCustody.Proofs.Rsa.KeyDocument
import Mathlib

/-!
# Private keys survive their export

An envelope is accepted in several versions, with parts that may be missing and numbers that are
not looked at, but it is written in one form. What was loaded is found again in that form, by the
same loader, so an export can take the place of the document that it was loaded from.

## Main results

* `PrivateKey.ofOctets_eq_ok_iff` — what is loaded
* `PrivateKey.exists_encode_iff` — which keys are written
* `PrivateKey.ofOctets_encode` — a key is loaded from its own document
* `PrivateKey.reload_of_ofOctets` — a loaded key is loaded again from its export
-/

namespace KeyCustody.PrivateKey

variable {k : PrivateKey} {b : Octets}

/-! ## Loading -/

/-- A key is loaded from the envelope that the octets spell, as a key of the type that the algorithm
in the envelope names. -/
theorem ofOctets_eq_ok_iff : ofOctets b = .ok k ↔
    ∃ d, PrivateKeyDocument.decode? b = some d ∧
      ∃ type, typeOfAlgorithm d.algorithm = .ok type ∧ ofDocument? type d = some k := by
  unfold ofOctets detectType
  simp only [Outcome.bind_eq_ok_iff, Outcome.mapError_eq_ok_iff]
  cases PrivateKeyDocument.decode? b with
  | none => simp
  | some d =>
    simp only [Option.bind_eq_bind, Option.bind_some, Option.some_inj, exists_eq_left']
    apply exists_congr
    intro type
    cases ofDocument? type d with
    | none => simp [throw, throwThe, MonadExceptOf.throw]
    | some read => simp

/-- A loaded key is of the type that was asked for, and of no other. -/
theorem keyType_of_ofDocument? {type : KeyType} {d : PrivateKeyDocument}
    (h : ofDocument? type d = some k) : k.keyType = type := by
  cases type <;>
  · obtain ⟨_, -, rfl⟩ := Option.map_eq_some_iff.mp h
    rfl

/-! ## Writing -/

theorem encode_eq_ok_iff : k.encode = .ok b ↔ ∃ d, k.document? = some d ∧ b = d.encode := by
  rw [encode]
  cases k.document? <;> simp [eq_comm]

/-- Elliptic keys are always written; RSA keys are if their coefficient exists. -/
theorem exists_encode_iff (k : PrivateKey) : (∃ b, k.encode = .ok b) ↔
    ∀ r, k = rsa r → ∃ x, x * r.q ≡ 1 [MOD r.p] := by
  have hdocument : (∃ b, k.encode = .ok b) ↔ k.document?.isSome := by
    rw [encode]
    cases k.document? <;> simp
  rw [hdocument]
  cases k with
  | rsa r =>
    have hcoprime : Nat.Coprime r.q r.p ↔ ∃ x, x * r.q ≡ 1 [MOD r.p] := by
      constructor
      · intro h
        obtain ⟨x, hx⟩ := Option.isSome_iff_exists.mp ((Modular.inverse?_isSome_iff _ _).mpr h)
        exact ⟨x, Modular.mul_of_inverse?_eq_some (Nat.zero_lt_of_lt r.one_lt_p) hx⟩
      · rintro ⟨x, hx⟩
        exact Nat.coprime_of_mul_modEq_one x (Nat.mul_comm _ _ ▸ hx)
    simp [document?, Rsa.PrivateKey.document?_isSome_iff, hcoprime]
  | p256 r => simp [document?]
  | ed25519 r => simp [document?]

/-! ## Loading what was written -/

/-- The conditions on the size of a key under which its document can be read: an RSA key has numbers
of any size. -/
def IsCountable : PrivateKey → Prop
  | rsa k => Octets.byteLength k.publicKey.modulus < 2 ^ 64 ∧ Octets.byteLength k.exponent < 2 ^ 64
  | p256 _ | ed25519 _ => True

/-- The numbers of a loaded key are no longer than what they were loaded from. -/
theorem isCountable_of_ofOctets (hb : b.length < 2 ^ 64) (h : ofOctets b = .ok k) :
    k.IsCountable := by
  obtain ⟨d, hdecode, type, -, hread⟩ := ofOctets_eq_ok_iff.mp h
  cases k with
  | rsa r =>
    obtain rfl := keyType_of_ofDocument? hread
    obtain ⟨r, hr, ⟨⟩⟩ := Option.map_eq_some_iff.mp hread
    have hle := (PrivateKeyDocument.parts_infix_of_decode? hdecode).2.1.length_le
    obtain ⟨hmodulus, hexponent⟩ := Rsa.PrivateKey.byteLength_le_of_ofDocument? hr
    exact ⟨by omega, by omega⟩
  | p256 r => trivial
  | ed25519 r => trivial

/-- The numbers of a key are no longer than the document that it is written as. -/
theorem isCountable_of_encode (hb : b.length < 2 ^ 64) (h : k.encode = .ok b) :
    k.IsCountable := by
  obtain ⟨d, hd, rfl⟩ := encode_eq_ok_iff.mp h
  cases k with
  | rsa r =>
    obtain ⟨coefficient, -, hd⟩ := Rsa.PrivateKey.document?_eq_some_iff.mp hd
    have hkey : d.privateKey = Rsa.encodeNaturals (r.numbers coefficient) := by rw [hd]
    have hle {n : Nat} (hn : n ∈ r.numbers coefficient) : Octets.byteLength n < 2 ^ 64 := by
      calc Octets.byteLength n
        _ ≤ ((r.numbers coefficient).flatMap Der.encodeNatural).length :=
          Rsa.byteLength_le_of_mem hn
        _ ≤ (Rsa.encodeNaturals (r.numbers coefficient)).length :=
          (Der.Element.content_infix_encode ⟨Der.sequenceTag, _⟩).length_le
        _ ≤ d.encode.length := hkey ▸ d.privateKey_infix_encode.length_le
        _ < 2 ^ 64 := hb
    exact ⟨hle (by simp [Rsa.PrivateKey.numbers]), hle (by simp [Rsa.PrivateKey.numbers])⟩
  | p256 r => trivial
  | ed25519 r => trivial

/-- The envelope that a key is written in names the algorithm of its type. -/
theorem typeOfAlgorithm_of_document? {d : PrivateKeyDocument} (h : k.document? = some d) :
    typeOfAlgorithm d.algorithm = .ok k.keyType := by
  cases k with
  | rsa r =>
    obtain ⟨coefficient, -, rfl⟩ := Rsa.PrivateKey.document?_eq_some_iff.mp h
    rfl
  | p256 r =>
    obtain rfl := Option.some_inj.mp h
    rfl
  | ed25519 r =>
    obtain rfl := Option.some_inj.mp h
    rfl

theorem ofDocument?_of_document? (hk : k.IsCountable) {d : PrivateKeyDocument}
    (h : k.document? = some d) :
    PrivateKeyDocument.decode? d.encode = some d ∧ ofDocument? k.keyType d = some k := by
  cases k with
  | rsa r =>
    obtain ⟨hdecode, hread⟩ := Rsa.PrivateKey.ofDocument?_document? h hk.1 hk.2
    exact ⟨hdecode, Option.map_eq_some_iff.mpr ⟨r, hread, rfl⟩⟩
  | p256 r =>
    obtain rfl := Option.some_inj.mp h
    exact ⟨r.decode?_encode_document,
      Option.map_eq_some_iff.mpr ⟨r, r.ofDocument?_document, rfl⟩⟩
  | ed25519 r =>
    obtain rfl := Option.some_inj.mp h
    exact ⟨r.decode?_encode_document,
      Option.map_eq_some_iff.mpr ⟨r, r.ofDocument?_document, rfl⟩⟩

/-- An RSA key is loaded from its first numbers, whatever the last three are. -/
theorem ofOctets_encodeNaturals {r : Rsa.PrivateKey} {dp dq coefficient : Nat}
    (h : ∀ n ∈ [0, r.publicKey.modulus, r.publicKey.exponent, r.exponent, r.p, r.q, dp, dq,
      coefficient], Octets.byteLength n ≤ 2 ^ 64) :
    ofOctets (PrivateKeyDocument.encode ⟨Rsa.algorithm, Rsa.encodeNaturals [0, r.publicKey.modulus,
      r.publicKey.exponent, r.exponent, r.p, r.q, dp, dq, coefficient], none⟩) = .ok (rsa r) := by
  obtain ⟨hdecode, hread⟩ := Rsa.PrivateKey.ofDocument?_encodeNaturals h
  exact ofOctets_eq_ok_iff.mpr ⟨_, hdecode, .rsa, rfl,
    Option.map_eq_some_iff.mpr ⟨r, hread.trans r.ofNumbers?_self, rfl⟩⟩

/-- A key is loaded from its own document. -/
theorem ofOctets_encode (hk : k.IsCountable) (h : k.encode = .ok b) : ofOctets b = .ok k := by
  obtain ⟨d, hd, rfl⟩ := encode_eq_ok_iff.mp h
  obtain ⟨hdecode, hread⟩ := ofDocument?_of_document? hk hd
  exact ofOctets_eq_ok_iff.mpr ⟨d, hdecode, k.keyType, typeOfAlgorithm_of_document? hd, hread⟩

/-- Whatever document a key was loaded from, its export loads as the same key, with the same public
key, fingerprint and size, and that key is written as the same octets again. The export fails for
those RSA keys alone whose second factor is not invertible modulo the first. The condition on the
document is that a machine can count its octets. -/
theorem reload_of_ofOctets {b : Octets} (hb : b.length < 2 ^ 64) {k : PrivateKey}
    (h : ofOctets b = .ok k) :
    (∀ written, k.encode = .ok written → ∃ again, ofOctets written = .ok again ∧
      again = k ∧ again.keyType = k.keyType ∧ again.encodePublic = k.encodePublic ∧
      again.fingerprint = k.fingerprint ∧ again.bits = k.bits ∧ again.encode = .ok written) ∧
    ((∃ written, k.encode = .ok written) ↔ ∀ r, k = rsa r → ∃ x, x * r.q ≡ 1 [MOD r.p]) := by
  refine ⟨?_, k.exists_encode_iff⟩
  intro written hwritten
  have hagain := ofOctets_encode (isCountable_of_ofOctets hb h) hwritten
  exact ⟨k, hagain, rfl, rfl, rfl, rfl, rfl, hwritten⟩

/-- The RSA key with the factors 5 and 11. -/
def smallRsa : Rsa.PrivateKey := ⟨⟨55, 3, rfl, rfl, by decide, by decide, by decide⟩, 7, 5, 11,
  by decide, by decide, rfl, rfl, rfl⟩

/-- The second factor is one modulo the first, so the coefficient is one. -/
theorem encode_smallRsa : (rsa smallRsa).encode = .ok (PrivateKeyDocument.encode
    ⟨Rsa.algorithm, Rsa.encodeNaturals [0, 55, 3, 7, 5, 11, 3, 7, 1], none⟩) :=
  encode_eq_ok_iff.mpr ⟨_, by decide_cbv, rfl⟩

/-- An RSA document whose last three numbers are wrong: its export is another one. -/
theorem reload_of_ofOctets_wrong_remainders :
    let b := PrivateKeyDocument.encode
      ⟨Rsa.algorithm, Rsa.encodeNaturals [0, 55, 3, 7, 5, 11, 0, 0, 0], none⟩
    b.length < 2 ^ 64 ∧ ∃ k, ofOctets b = .ok k ∧
      ∃ written, k.encode = .ok written ∧ written ≠ b ∧ ofOctets written = .ok k := by
  intro b
  have hlength : b.length < 2 ^ 64 := by
    simp only [b]
    decide_cbv
  have hload : ofOctets b = .ok (rsa smallRsa) :=
    ofOctets_encodeNaturals (r := smallRsa) (by decide)
  have hother : PrivateKeyDocument.encode
      ⟨Rsa.algorithm, Rsa.encodeNaturals [0, 55, 3, 7, 5, 11, 3, 7, 1], none⟩ ≠ b := by
    simp only [b]
    decide_cbv
  obtain ⟨hreload, -⟩ := reload_of_ofOctets hlength hload
  obtain ⟨again, hagain, hsame, -⟩ := hreload _ encode_smallRsa
  exact ⟨hlength, rsa smallRsa, hload, _, encode_smallRsa, hother, hsame ▸ hagain⟩

end KeyCustody.PrivateKey
