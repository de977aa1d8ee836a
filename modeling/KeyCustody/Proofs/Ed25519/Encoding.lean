import KeyCustody.Proofs.Ed25519.Group
import KeyCustody.Proofs.Octets

/-!
# Written points of edwards25519

Both coordinates of a point of the curve are found again: the second as it was written, and the
first as the root of a quotient, with the parity that was written in front. One power gives the
root, because the prime is five modulo eight: the power is a root of the quotient or of its
negative, and a root of minus one turns the latter into the former.

## Main results

* `Ed25519.Point.exists_squareRoot?` — a quotient that is a square has a root
* `Ed25519.Point.decode?_encode` — points of the curve are read back
-/

namespace KeyCustody.Ed25519.Point

open scoped Fin.CommRing Residue

/-- The power that is taken for the root of `v x² / v` is the root of its square or its negative. -/
theorem root_mul_self {v x : Coordinate} (hv : v ≠ 0) {root : Coordinate}
    (hroot : root = v * x * x * (v * v * v) *
      (v * x * x * (v * v * v) * (v * v * v) * v) ^ ((fieldSize - 5) / 8)) :
    root * root = x * x ∨ root * root = -(x * x) := by
  have hsize : fieldSize - 1 = 8 * ((fieldSize - 5) / 8) + 4 := by decide
  have hpow {z : Coordinate} (hz : z ≠ 0) : z ^ (8 * ((fieldSize - 5) / 8) + 4) = 1 := by
    rw [← hsize]
    exact Residue.pow_sub_one_eq_one hz
  generalize (fieldSize - 5) / 8 = k at hroot hpow
  by_cases hx : x = 0
  · left
    rw [hroot, hx]
    ring
  · -- The powers of `v` cancel, and half the order takes `x` to one or minus one.
    have hreduced : root = x ^ (2 * k + 2) := by
      calc root = v ^ (8 * k + 4) * x ^ (2 * k + 2) := by
            rw [hroot]
            ring
        _ = x ^ (2 * k + 2) := by rw [hpow hv, one_mul]
    have hsign : x ^ (4 * k + 2) * x ^ (4 * k + 2) = 1 := by
      rw [← hpow hx]
      ring
    have hsquare : root * root = x ^ (4 * k + 2) * (x * x) := by
      rw [hreduced]
      ring
    rcases mul_self_eq_one_iff.mp hsign with h | h
    · exact .inl (by rw [hsquare, h, one_mul])
    · exact .inr (by rw [hsquare, h, neg_one_mul])

/-- A quotient that is a square has a root. -/
theorem exists_squareRoot? {u v x : Coordinate} (hv : v ≠ 0) (hu : u = v * x * x) :
    ∃ root, squareRoot? u v = some root ∧ root * root = x * x := by
  unfold squareRoot?
  dsimp only
  rw [Residue.power_eq_pow]
  generalize hroot : u * (v * v * v) * (u * (v * v * v) * (v * v * v) * v) ^ ((fieldSize - 5) / 8) =
    root
  rw [hu] at hroot ⊢
  rcases root_mul_self hv hroot.symm with hsquare | hsquare
  · have hpositive : v * root * root = v * x * x := by
      linear_combination v * hsquare
    exact ⟨root, if_pos hpositive, hsquare⟩
  · have hnegative : v * root * root = 0 - v * x * x := by
      linear_combination v * hsquare
    -- The test for the quotient comes first, and succeeds here too if the quotient is zero.
    split_ifs with hpositive
    · refine ⟨root, rfl, mul_left_cancel₀ hv ?_⟩
      linear_combination hpositive
    · refine ⟨root * rootOfMinusOne, rfl, ?_⟩
      linear_combination rootOfMinusOne * rootOfMinusOne * hsquare - x * x * rootOfMinusOne_mul_self

/-! ## The number that a point is written as -/

section Packed

variable {low high width : Nat} (h : low < 2 ^ width)

include h

theorem packed_mod : (low + high <<< width) % (1 <<< width) = low := by
  rw [Nat.shiftLeft_eq, Nat.shiftLeft_eq, one_mul, Nat.add_mul_mod_self_right, Nat.mod_eq_of_lt h]

theorem packed_shiftRight : (low + high <<< width) >>> width = high := by
  rw [Nat.shiftLeft_eq, Nat.shiftRight_eq_div_pow, Nat.add_mul_div_right _ _ (Nat.two_pow_pos _),
    Nat.div_eq_of_lt h, Nat.zero_add]

theorem packed_lt (hhigh : high < 2) : low + high <<< width < 2 ^ (width + 1) := by
  rw [Nat.shiftLeft_eq, pow_succ]
  have hle : high * 2 ^ width ≤ 1 * 2 ^ width := Nat.mul_le_mul_right _ (Nat.le_of_lt_succ hhigh)
  omega

end Packed

theorem val_lt (x : Coordinate) : x.val < 2 ^ 255 := by
  have hsize : fieldSize < 2 ^ 255 := by decide
  exact Nat.lt_trans x.isLt hsize

theorem toNat_reverse_encode (s : Point) :
    Octets.toNat s.encode.reverse = s.y.val + (s.x.val % 2) <<< 255 := by
  have hlt := packed_lt (val_lt s.y) (Nat.mod_lt s.x.val two_pos)
  rw [encode, List.reverse_reverse]
  exact Octets.toNat_ofNatWidth_of_lt hlt

/-- Points of the curve are read back. -/
theorem decode?_encode (s : curve.Point) : decode? (ofCurve s).encode = some (ofCurve s) := by
  have hlength : (ofCurve s).encode.length = 32 := by
    rw [encode, List.length_reverse, Octets.length_ofNatWidth]
  have hy : Fin.ofNat fieldSize s.y.val = s.y := Residue.natCast_val s.y
  have hquotient : s.y * s.y - 1 = (coefficient * s.y * s.y + 1) * s.x * s.x := by
    have h := s.contains
    rw [Edwards.Contains, d_curve] at h
    linear_combination h
  obtain ⟨root, hroot, hsquare⟩ := exists_squareRoot? (curve.d_mul_sq_add_one_ne_zero s.y) hquotient
  have hparity : Residue.withParity root (s.x.val % 2 == 1) = s.x :=
    Residue.withParity_of_sq_eq (by decide) hsquare
  rw [d_curve] at hroot
  rw [decode?, hlength, toNat_reverse_encode, x_ofCurve, y_ofCurve]
  simp only [packed_mod (val_lt s.y), packed_shiftRight (val_lt s.y), hy, guard_true, hroot,
    hparity, Option.bind_eq_bind, Option.pure_def, Option.bind_some]
  rfl

end KeyCustody.Ed25519.Point
