import KeyCustody.P256.Signature
import KeyCustody.Proofs.P256.KeyDocument
import KeyCustody.Proofs.P256.Weighted

/-!
# Signatures on P-256 verify

A signature fixes two factors, one for the generator and one for the public key, and the sum of the
two multiples is the point that the one-time scalar gave. So its first coordinate is found again.
Around that equation everything that travels as octets is read back: the public key, which is a
point on the curve other than infinity, and the pair of numbers.

## Main results

* `P256.Point.decode?_encode` — points of the curve are read back
* `P256.Signature.decode?_encode` — pairs in range are read back
* `P256.PrivateKey.accepts_of_signWith?` — the equation of signatures
* `P256.PrivateKey.verify_of_sign?` — signatures verify under the exported public key
-/

namespace KeyCustody.P256

open Der
open scoped Fin.CommRing Residue

/-! ## Points -/

theorem coordinate?_eq_some {b : Octets} {x : Coordinate} (h : Octets.toNat b = x.val) :
    coordinate? b = some x := by
  have hlt : Octets.toNat b < fieldSize := by
    rw [h]
    exact x.isLt
  rw [coordinate?, dif_pos hlt, Option.some_inj]
  exact Fin.ext h

theorem coordinate?_ofNatWidth (x : Coordinate) :
    coordinate? (Octets.ofNatWidth 32 x.val) = some x :=
  coordinate?_eq_some (Octets.toNat_ofNatWidth_of_lt (x.isLt.trans (by decide)))

/-- A point is read back from both its coordinates. -/
theorem Point.decode?_encode {x y : Coordinate} (h : isOnCurve x y = true) :
    decode? (encode (.affine x y)) = some (.affine x y) := by
  have hlength : (Octets.ofNatWidth 32 x.val ++ Octets.ofNatWidth 32 y.val).length = 64 := by
    simp
  rw [encode, decode?, if_pos ⟨rfl, hlength⟩]
  simp [coordinate?_ofNatWidth, h]

/-! ## Keys -/

namespace PrivateKey

theorem publicKey_eq (k : PrivateKey) : k.publicKey = ⟨ofCurve (k.scalar • base)⟩ := by
  rw [publicKey, ofCurve_nsmul, ofCurve_base]

/-- A public key is not at infinity, since the scalar is below the order. -/
theorem nsmul_base_ne_zero (k : PrivateKey) : k.scalar • base ≠ 0 := by
  intro hzero
  have hdvd := addOrderOf_dvd_of_nsmul_eq_zero hzero
  rw [addOrderOf_base] at hdvd
  exact absurd k.scalar_lt (not_lt.mpr (Nat.le_of_dvd k.scalar_pos hdvd))

/-- The exported public key is read back. -/
theorem decode?_encode_publicKey (k : PrivateKey) :
    PublicKey.decode? k.publicKey.encode = some k.publicKey := by
  apply PublicKey.decode?_encode
  rw [publicKey_eq]
  cases hpoint : ofCurve (k.scalar • base) with
  | infinity =>
    have hzero := ofCurve_injective (hpoint.trans ofCurve_zero.symm)
    exact absurd hzero k.nsmul_base_ne_zero
  | affine x y => exact Point.decode?_encode (isOnCurve_of_ofCurve hpoint)

end PrivateKey

/-! ## Pairs of numbers -/

theorem length_naturalContent_le_of_lt {n : Nat} (h : n < order) :
    (naturalContent n).length ≤ 33 := by
  have hbytes : Octets.byteLength n ≤ 32 := Octets.byteLength_le_of_lt (h.trans (by decide))
  exact (length_naturalContent_le n).trans (Nat.succ_le_succ hbytes)

theorem length_encodeNatural_le_of_lt {n : Nat} (h : n < order) :
    (encodeNatural n).length ≤ 162 := by
  have hcontent := length_naturalContent_le_of_lt h
  have hlength := length_encodeNatural_le (lt_lengthLimit hcontent (by decide))
  omega

/-- A pair of numbers in range is read back. -/
theorem Signature.decode?_encode {x : Signature} (hr : 0 < x.r ∧ x.r < order)
    (hs : 0 < x.s ∧ x.s < order) : decode? x.encode = some x := by
  have hread {n : Nat} (hn : n < order) (rest : Octets) :
      takeNatural? (encodeNatural n ++ rest) = some (n, rest) :=
    takeNatural?_encodeNatural (lt_lengthLimit (length_naturalContent_le_of_lt hn) (by decide)) rest
  have hlength : (encodeNatural x.r ++ encodeNatural x.s).length ≤ 324 := by
    have hfirst := length_encodeNatural_le_of_lt hr.2
    have hsecond := length_encodeNatural_le_of_lt hs.2
    rw [List.length_append]
    omega
  have hlast := hread hs.2 []
  rw [List.append_nil] at hlast
  rw [encode, decode?, sole?_encodeSequence (lt_lengthLimit hlength (by decide))]
  simp [hread hr.2, hlast, hr, hs]

/-! ## The one-time scalar -/

/-- Every value that is not in range is passed over. -/
theorem Derivation.scalar?_eq_some {tries k : Nat} {d : Derivation} (h : d.scalar? tries = some k) :
    0 < k ∧ k < order := by
  -- Every try moves the derivation on.
  induction tries generalizing d with
  | zero => cases h
  | succ tries ih =>
    rw [scalar?] at h
    split_ifs at h with hrange
    · obtain rfl := Option.some_inj.mp h
      exact hrange
    · exact ih h

theorem oneTimeScalar?_eq_some {scalar message k : Nat}
    (h : oneTimeScalar? scalar message = some k) : 0 < k ∧ k < order :=
  Derivation.scalar?_eq_some h

/-! ## The equation of signatures -/

theorem natCast_ne_zero {k : Nat} (h : 0 < k ∧ k < order) : (k : Scalar) ≠ 0 := by
  rw [← Nat.cast_zero, ne_eq, Residue.natCast_eq_iff, Nat.modEq_zero_iff_dvd]
  exact Nat.not_dvd_of_pos_of_lt h.1 h.2

/-- The factors of verification, applied to the generator and to the public key with the scalar `d`,
add up to the one-time scalar `k`. -/
theorem signature_equation {F : Type*} [Field F] {k d m r s : F} (hk : k ≠ 0)
    (hs : s = k⁻¹ * (m + r * d)) (hne : s ≠ 0) : m * s⁻¹ + r * s⁻¹ * d = k := by
  have hsum : m + r * d = k * s := by rw [hs, mul_inv_cancel_left₀ hk]
  calc m * s⁻¹ + r * s⁻¹ * d = (m + r * d) * s⁻¹ := by ring
    _ = k := by rw [hsum, mul_inv_cancel_right₀ hne]

/-- Multiples of the generator are the same if the factors are the same modulo the order. -/
theorem nsmul_base_eq {a b : Nat} (h : (a : Scalar) = b) : a • base = b • base := by
  rw [nsmul_eq_nsmul_iff_modEq, addOrderOf_base]
  exact Residue.natCast_eq_iff.mp h

namespace PrivateKey

variable {k : PrivateKey} {oneTime message : Nat} {x : Signature}

/-- The two numbers of a signature, which are residues other than zero. -/
theorem signWith?_eq_some (h : k.signWith? oneTime message = some x) :
    ∃ r s : Scalar, r = (generator.multiply oneTime).firstScalar ∧
      s = (oneTime : Scalar)⁻¹ * (message + r * k.scalar) ∧ r ≠ 0 ∧ s ≠ 0 ∧ x = ⟨r.val, s.val⟩ := by
  rw [signWith?] at h
  split_ifs at h with hzero
  rw [not_or] at hzero
  exact ⟨_, _, rfl, rfl, hzero.1, hzero.2, (Option.some_inj.mp h).symm⟩

theorem accepts_of_signWith? (honeTime : 0 < oneTime ∧ oneTime < order)
    (h : k.signWith? oneTime message = some x) : k.publicKey.accepts message x = true := by
  obtain ⟨r, s, hr, hs, -, hne, rfl⟩ := signWith?_eq_some h
  obtain ⟨u, hu⟩ : ∃ u : Scalar, u = (message : Scalar) * s⁻¹ := ⟨_, rfl⟩
  obtain ⟨v, hv⟩ : ∃ v : Scalar, v = r * s⁻¹ := ⟨_, rfl⟩
  have hfactors : u + v * (k.scalar : Scalar) = (oneTime : Scalar) := by
    rw [hu, hv]
    exact signature_equation (natCast_ne_zero honeTime) hs hne
  -- All three are multiples of the generator in the group, where the factors can be added.
  have hpoint : (generator.multiply u.val).add (k.publicKey.point.multiply v.val) =
      generator.multiply oneTime := by
    rw [publicKey_eq, ← ofCurve_base, ← ofCurve_nsmul, ← ofCurve_nsmul, ← ofCurve_add,
      ← ofCurve_nsmul, ← mul_nsmul', ← add_nsmul]
    apply congrArg ofCurve
    apply nsmul_base_eq
    rw [Nat.cast_add, Nat.cast_mul, Residue.natCast_val, Residue.natCast_val, hfactors]
  have hread (y : Scalar) : Fin.ofNat order y.val = y := Residue.natCast_val y
  have hu' : Fin.ofNat order message * Residue.inverse s = u := hu.symm
  have hv' : r * Residue.inverse s = v := hv.symm
  simp only [PublicKey.accepts, hread, hu', hv', hpoint, ← hr, beq_self_eq_true]

/-- Signing takes the one-time scalar, the pair of numbers and its written form in turn. -/
theorem sign?_eq_some_iff {digest : Digest} {message signature : Octets} :
    k.sign? digest message = some signature ↔ ∃ oneTime x,
      oneTimeScalar? k.scalar (messageScalar digest message) = some oneTime ∧
      k.signWith? oneTime (messageScalar digest message) = some x ∧ x.encode = signature := by
  simp [sign?, Option.bind_eq_some_iff]

theorem verify_publicKey_of_sign? (k : PrivateKey) {digest : Digest} {message signature : Octets}
    (h : k.sign? digest message = some signature) :
    k.publicKey.verify digest message signature = true := by
  obtain ⟨oneTime, x, honeTime, hx, rfl⟩ := sign?_eq_some_iff.mp h
  obtain ⟨r, s, -, -, hr, hs, rfl⟩ := signWith?_eq_some hx
  have hread := Signature.decode?_encode (x := ⟨r.val, s.val⟩)
    ⟨Nat.pos_of_ne_zero (mt Fin.val_eq_zero_iff.mp hr), r.isLt⟩
    ⟨Nat.pos_of_ne_zero (mt Fin.val_eq_zero_iff.mp hs), s.isLt⟩
  rw [PublicKey.verify, hread]
  exact accepts_of_signWith? (oneTimeScalar?_eq_some honeTime) hx

/-- Whatever is signed verifies, with the same digest, under the public key that was exported and
loaded again. -/
theorem verify_of_sign? (k : PrivateKey) (digest : Digest) (message : Octets) {signature : Octets}
    (h : k.sign? digest message = some signature) :
    ∃ key, PublicKey.decode? k.publicKey.encode = some key ∧
      key.verify digest message signature = true := by
  refine ⟨k.publicKey, k.decode?_encode_publicKey, ?_⟩
  obtain ⟨oneTime, x, honeTime, hx, rfl⟩ := sign?_eq_some_iff.mp h
  obtain ⟨r, s, -, -, hr, hs, rfl⟩ := signWith?_eq_some hx
  have hread := Signature.decode?_encode (x := ⟨r.val, s.val⟩)
    ⟨Nat.pos_of_ne_zero (mt Fin.val_eq_zero_iff.mp hr), r.isLt⟩
    ⟨Nat.pos_of_ne_zero (mt Fin.val_eq_zero_iff.mp hs), s.isLt⟩
  rw [PublicKey.verify, hread]
  exact accepts_of_signWith? (oneTimeScalar?_eq_some honeTime) hx

/-- The key with the scalar one. -/
def one : PrivateKey := ⟨1, by decide, by decide⟩

/-- The one-time scalar with which that key signs the empty message. -/
def oneTimeOne : Nat := 0xbacb7c191eacd08f7d3526a540371c6399744a97d2328c521c685c1dbdd37b88

/-- The point that this scalar takes the generator to. -/
def pointOne : Point :=
  .affine 0xe69cb117664cedd6734e80151eabd388de266533e163fbe8ea463065c0fd71a
    0x32fc453eb5172ce73fa7a3f458875774eb60b5b5b1caabac5791a5dc41a494f

/-- The one-time scalar, its point in weighted coordinates, and the number in the signature. -/
theorem signing_one :
    oneTimeScalar? one.scalar (messageScalar .sha256 []) = some oneTimeOne ∧
    (Weighted.generator.multiply oneTimeOne).Represents pointOne ∧
    Residue.inverse (Fin.ofNat order oneTimeOne) *
      (Fin.ofNat order (messageScalar .sha256 []) +
        pointOne.firstScalar * Fin.ofNat order one.scalar) ≠ 0 := by
  decide +kernel

/-- The key with the scalar one signs the empty message. -/
theorem verify_of_sign?_one : ∃ signature, one.sign? .sha256 [] = some signature ∧
    ∃ key, PublicKey.decode? one.publicKey.encode = some key ∧
      key.verify .sha256 [] signature = true := by
  obtain ⟨honeTime, hpoint, hs⟩ := signing_one
  have hr : pointOne.firstScalar ≠ 0 := by decide
  obtain ⟨x, hx⟩ : ∃ x, one.signWith? oneTimeOne (messageScalar .sha256 []) = some x := by
    rw [signWith?, Weighted.multiply_generator hpoint]
    exact ⟨_, if_neg (not_or.mpr ⟨hr, hs⟩)⟩
  have hsign : one.sign? .sha256 [] = some x.encode :=
    sign?_eq_some_iff.mpr ⟨oneTimeOne, x, honeTime, hx, rfl⟩
  exact ⟨x.encode, hsign, verify_of_sign? one .sha256 [] hsign⟩

end PrivateKey

end KeyCustody.P256
