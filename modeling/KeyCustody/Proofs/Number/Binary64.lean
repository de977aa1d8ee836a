import KeyCustody.Number.Binary64
import Mathlib.Data.Nat.Log
import Mathlib.Tactic.Ring

/-!
# What rounding leaves alone

Rounding keeps 53 significant bits: what comes out is a whole multiple of the unit of its last
significant bit. Rounding up may carry into a new leading bit, but then all bits behind it are zero.
A number of this form is not changed when it is rounded again, so a rounded number times one is the
number.

The leading bit is never lost either: rounding goes down to a multiple of the last unit at worst. So
what is at least a power of two is so when it is rounded.

## Main definitions

* `Magnitude.IsRounded` — a magnitude of 53 significant bits

## Main results

* `Magnitude.isRounded_round` — what is rounded has 53 significant bits
* `Magnitude.IsRounded.multiply_one` — one is neutral for rounded magnitudes
* `Magnitude.le_round_of_isPowerOfTwo` — a power of two that is reached is not left by rounding
-/

namespace KeyCustody.Magnitude

/-- All but the first 53 bits are zero. -/
def IsRounded (m : Magnitude) : Prop := 2 ^ (m.log2 - 52) ∣ m

variable {m : Magnitude}

/-! ## Quotients -/

/-- Rounding goes up by one at most. -/
theorem roundQuotient_le (numerator denominator : Nat) :
    roundQuotient numerator denominator ≤ numerator / denominator + 1 := by
  unfold roundQuotient
  dsimp only
  split_ifs <;> omega

/-- A whole quotient is not rounded. -/
theorem roundQuotient_mul_right {denominator : Nat} (h : 0 < denominator) (q : Nat) :
    roundQuotient (q * denominator) denominator = q := by
  unfold roundQuotient
  dsimp only
  rw [Nat.mul_mod_left, Nat.mul_div_cancel q h, if_pos (by omega)]

/-! ## Significant bits -/

/-- A multiple of a unit by at most `2 ^ 53` has 53 significant bits, at the bound itself because it
is a power of two. -/
theorem isRounded_mul_pow {q : Nat} (h : q ≤ 2 ^ 53) (excess : Nat) :
    IsRounded (q * 2 ^ excess) := by
  unfold IsRounded
  rcases h.lt_or_eq with hlt | rfl
  · have hlog : (q * 2 ^ excess).log2 - 52 ≤ excess := by
      by_cases hzero : q * 2 ^ excess = 0
      · simp [hzero]
      · have hbound : q * 2 ^ excess < 2 ^ (53 + excess) := by
          rw [pow_add]
          exact Nat.mul_lt_mul_of_pos_right hlt (Nat.two_pow_pos excess)
        have := (Nat.log2_lt hzero).mpr hbound
        omega
    exact (Nat.pow_dvd_pow 2 hlog).trans (Nat.dvd_mul_left _ _)
  · rw [← pow_add, Nat.log2_two_pow]
    exact Nat.pow_dvd_pow 2 (by omega)

/-- The first 53 bits of a number are less than `2 ^ 53`. -/
theorem div_pow_lt (n : Nat) : n / 2 ^ (n.log2 - 52) < 2 ^ 53 := by
  rw [Nat.div_lt_iff_lt_mul (Nat.two_pow_pos _), ← pow_add]
  calc n < 2 ^ (n.log2 + 1) := Nat.lt_log2_self
    _ ≤ 2 ^ (53 + (n.log2 - 52)) := Nat.pow_le_pow_right (by omega) (by omega)

/-- What is rounded has 53 significant bits. -/
theorem isRounded_round (numerator denominator : Nat) :
    IsRounded (round numerator denominator) := by
  unfold round
  dsimp only
  -- The excess is the number of bits that the quotient has behind its first 53.
  generalize hexcess : (numerator / denominator).log2 - 52 = excess
  have hquotient : numerator / (denominator <<< excess) < 2 ^ 53 := by
    rw [Nat.shiftLeft_eq, ← Nat.div_div_eq_div_mul, ← hexcess]
    exact div_pow_lt _
  have hle := roundQuotient_le numerator (denominator <<< excess)
  rw [Nat.shiftLeft_eq _ excess]
  exact isRounded_mul_pow (by omega) excess

/-- A magnitude of 53 significant bits is not changed by rounding. -/
theorem IsRounded.round_mul (h : IsRounded m) {denominator : Nat} (hpos : 0 < denominator) :
    round (m * denominator) denominator = m := by
  obtain ⟨q, hq⟩ := h
  unfold round
  dsimp only
  rw [Nat.mul_div_cancel m hpos]
  generalize m.log2 - 52 = excess at hq
  have hmultiple : m * denominator = q * (denominator <<< excess) := by
    rw [hq, Nat.shiftLeft_eq]
    ring
  have hshifted : 0 < denominator <<< excess := by
    rw [Nat.shiftLeft_eq]
    exact Nat.mul_pos hpos (Nat.two_pow_pos excess)
  rw [hmultiple, roundQuotient_mul_right hshifted, Nat.shiftLeft_eq, Nat.mul_comm, ← hq]

theorem one_pos : 0 < one := by decide

theorem isRounded_add (x y : Magnitude) : IsRounded (add x y) := isRounded_round _ _

/-- One is neutral for rounded magnitudes. -/
theorem IsRounded.multiply_one (h : IsRounded m) : multiply m one = m := h.round_mul one_pos

/-! ## Leading bits -/

/-- Rounding does not go below the whole quotient. -/
theorem le_roundQuotient (numerator denominator : Nat) :
    numerator / denominator ≤ roundQuotient numerator denominator := by
  unfold roundQuotient
  dsimp only
  split_ifs <;> omega

/-- What is more than one half is rounded to one at least. -/
theorem roundQuotient_pos {numerator denominator : Nat} (hpos : 0 < denominator)
    (h : denominator < 2 * numerator) : 0 < roundQuotient numerator denominator := by
  rcases Nat.lt_or_ge numerator denominator with hlt | hle
  · -- Less than one: all of it is the remainder, so it is rounded up.
    unfold roundQuotient
    dsimp only
    rw [Nat.div_eq_of_lt hlt, Nat.mod_eq_of_lt hlt, if_neg (by omega), if_neg (by omega)]
    exact Nat.one_pos
  · exact (Nat.div_pos hle hpos).trans_le (le_roundQuotient _ _)

/-- Rounding keeps the leading bit, or carries into the one before it. -/
theorem two_pow_log2_le_round {numerator denominator : Nat} (hpos : 0 < denominator)
    (hle : denominator ≤ numerator) :
    2 ^ (numerator / denominator).log2 ≤ round numerator denominator := by
  have hleading := Nat.log2_self_le (Nat.div_pos hle hpos).ne'
  unfold round
  dsimp only
  generalize (numerator / denominator).log2 = leading at hleading ⊢
  -- The bits that are dropped stand behind the leading one.
  have hsplit : 2 ^ leading = 2 ^ (leading - (leading - 52)) * 2 ^ (leading - 52) := by
    rw [← pow_add, Nat.sub_add_cancel (Nat.sub_le _ _)]
  have hquotient : 2 ^ (leading - (leading - 52)) ≤
      numerator / (denominator <<< (leading - 52)) := by
    rw [Nat.shiftLeft_eq, ← Nat.div_div_eq_div_mul,
      Nat.le_div_iff_mul_le (Nat.two_pow_pos _), ← hsplit]
    exact hleading
  rw [hsplit, Nat.shiftLeft_eq _ (leading - 52)]
  exact Nat.mul_le_mul_right _ (hquotient.trans (le_roundQuotient _ _))

/-- A power of two that is reached is not left by rounding. -/
theorem le_round_of_isPowerOfTwo (hm : m.isPowerOfTwo) {numerator denominator : Nat}
    (hpos : 0 < denominator) (h : m * denominator ≤ numerator) :
    m ≤ round numerator denominator := by
  obtain ⟨k, rfl⟩ := hm
  have hquotient : 2 ^ k ≤ numerator / denominator := (Nat.le_div_iff_mul_le hpos).mpr h
  have hle : denominator ≤ numerator :=
    (Nat.le_mul_of_pos_left _ (Nat.two_pow_pos k)).trans h
  have hlog : k ≤ (numerator / denominator).log2 :=
    (Nat.le_log2 (Nat.div_pos hle hpos).ne').mpr hquotient
  exact (Nat.pow_le_pow_right (by decide) hlog).trans (two_pow_log2_le_round hpos hle)

theorem round_zero {denominator : Nat} (hpos : 0 < denominator) : round 0 denominator = 0 := by
  have hzero : IsRounded 0 := Nat.dvd_zero _
  simpa using hzero.round_mul hpos

end KeyCustody.Magnitude
