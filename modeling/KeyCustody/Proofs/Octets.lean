import KeyCustody.Octets
import Mathlib.Data.List.Induction
import Mathlib.Data.Nat.Log
import Mathlib.Tactic.Ring

/-!
# Octet strings as numbers

Octet strings of one length and the numbers below the matching power of 256 are in bijection.
Every fixed-width encoding of this library rests on that: a signature or ciphertext is the
fixed-width form of a residue, and what is read back is the residue itself.

The shortest form of a number is the one string for it that does not begin with a zero octet.

## Main results

* `Octets.toNat_ofNatWidth`, `Octets.ofNatWidth_toNat` — reading and writing in a fixed width are
  inverse to one another
* `Octets.toNat_injOn_length` — strings of one length are told apart by their values
* `Octets.toNat_ofNat`, `Octets.ofNat_toNat` — reading and writing in the shortest form
* `Octets.pow_le_of_byteLength`, `Octets.lt_pow_byteLength` — the number of octets that a number
  takes
* `Octets.xor_xor_cancel` — a mask is removed by applying it once more
-/

namespace KeyCustody.Octets

/-! ## Values -/

/-- The value of a concatenation: the first part is shifted by the length of the second. -/
theorem toNat_append (a b : Octets) : toNat (a ++ b) = toNat a * 256 ^ b.length + toNat b := by
  induction b using List.reverseRecOn with
  | nil => simp [toNat_nil]
  | append_singleton b x ih =>
    rw [← List.append_assoc, toNat_concat, ih, toNat_concat, List.length_append,
      List.length_singleton, pow_succ]
    ring

theorem toNat_singleton (x : UInt8) : toNat [x] = x.toNat := by
  simp [toNat]

theorem toNat_cons (x : UInt8) (b : Octets) :
    toNat (x :: b) = x.toNat * 256 ^ b.length + toNat b := by
  rw [← List.singleton_append, toNat_append, toNat_singleton]

theorem toNat_lt (b : Octets) : toNat b < 256 ^ b.length := by
  induction b with
  | nil => simp [toNat_nil]
  | cons x b ih =>
    have hx : x.toNat < 256 := x.toNat_lt
    rw [toNat_cons, List.length_cons, pow_succ]
    calc x.toNat * 256 ^ b.length + toNat b
        < x.toNat * 256 ^ b.length + 256 ^ b.length := by omega
      _ = (x.toNat + 1) * 256 ^ b.length := by ring
      _ ≤ 256 * 256 ^ b.length := Nat.mul_le_mul_right _ hx
      _ = 256 ^ b.length * 256 := Nat.mul_comm _ _

/-- All octets but the last are the quotient by 256. -/
theorem toNat_concat_div (b : Octets) (x : UInt8) : toNat (b ++ [x]) / 256 = toNat b := by
  have hx : x.toNat < 256 := x.toNat_lt
  rw [toNat_concat]
  omega

/-- The last octet is the remainder. -/
theorem ofNat_toNat_concat (b : Octets) (x : UInt8) : UInt8.ofNat (toNat (b ++ [x])) = x := by
  have hx : x.toNat < 256 := x.toNat_lt
  rw [← UInt8.toNat_inj, UInt8.toNat_ofNat', toNat_concat]
  omega

/-! ## Fixed width -/

theorem toNat_ofNatWidth (k n : Nat) : toNat (ofNatWidth k n) = n % 256 ^ k := by
  induction k generalizing n with
  | zero => simp [ofNatWidth, toNat_nil, Nat.mod_one]
  | succ k ih =>
    rw [ofNatWidth, toNat_concat, ih, pow_succ, Nat.mul_comm (256 ^ k) 256, Nat.mod_mul,
      UInt8.toNat_ofNat']
    omega

theorem toNat_ofNatWidth_of_lt {k n : Nat} (h : n < 256 ^ k) : toNat (ofNatWidth k n) = n := by
  rw [toNat_ofNatWidth, Nat.mod_eq_of_lt h]

theorem ofNatWidth_toNat (b : Octets) : ofNatWidth b.length (toNat b) = b := by
  induction b using List.reverseRecOn with
  | nil => rfl
  | append_singleton b x ih =>
    rw [List.length_append, List.length_singleton, ofNatWidth, toNat_concat_div, ih,
      ofNat_toNat_concat]

theorem ofNatWidth_toNat_of_length {b : Octets} {k : Nat} (h : b.length = k) :
    ofNatWidth k (toNat b) = b := by
  rw [← h, ofNatWidth_toNat]

/-- Strings of one length are told apart by their values. -/
theorem toNat_injOn_length {a b : Octets} (hlength : a.length = b.length)
    (h : toNat a = toNat b) : a = b := by
  rw [← ofNatWidth_toNat a, ← ofNatWidth_toNat b, hlength, h]

/-! ## Shortest form -/

theorem ofNat_zero : ofNat 0 = [] := by
  rw [ofNat, if_pos rfl]

theorem ofNat_of_ne_zero {n : Nat} (h : n ≠ 0) :
    ofNat n = ofNat (n / 256) ++ [UInt8.ofNat n] := by
  rw [ofNat, if_neg h]

theorem toNat_ofNat (n : Nat) : toNat (ofNat n) = n := by
  induction n using Nat.strongRecOn with
  | ind n ih =>
    by_cases h : n = 0
    · rw [h, ofNat_zero, toNat_nil]
    · rw [ofNat_of_ne_zero h, toNat_concat, ih (n / 256) (by omega), UInt8.toNat_ofNat']
      omega

theorem ofNat_eq_nil_iff {n : Nat} : ofNat n = [] ↔ n = 0 := by
  constructor
  · intro h
    rw [← toNat_ofNat n, h, toNat_nil]
  · rintro rfl
    exact ofNat_zero

/-- The shortest form does not begin with a zero octet. -/
theorem head?_ofNat_ne_zero (n : Nat) : (ofNat n).head? ≠ some 0 := by
  induction n using Nat.strongRecOn with
  | ind n ih =>
    by_cases h : n = 0
    · simp [h, ofNat_zero]
    · rw [ofNat_of_ne_zero h]
      by_cases hn : n / 256 = 0
      · rw [hn, ofNat_zero, List.nil_append, List.head?_cons, ne_eq, Option.some_inj,
          ← UInt8.toNat_inj, UInt8.toNat_ofNat']
        simp only [UInt8.toNat_zero]
        omega
      · obtain ⟨x, rest, hrest⟩ := List.exists_cons_of_ne_nil (mt ofNat_eq_nil_iff.mp hn)
        have hhead := ih (n / 256) (by omega)
        rw [hrest] at hhead ⊢
        exact hhead

theorem pow_le_toNat {x : UInt8} (hx : x ≠ 0) (b : Octets) : 256 ^ b.length ≤ toNat (x :: b) := by
  have hpos : 0 < x.toNat := by
    apply Nat.pos_of_ne_zero
    intro hzero
    exact hx (UInt8.toNat_inj.mp hzero)
  rw [toNat_cons]
  calc 256 ^ b.length = 1 * 256 ^ b.length := (Nat.one_mul _).symm
    _ ≤ x.toNat * 256 ^ b.length := Nat.mul_le_mul_right _ hpos
    _ ≤ x.toNat * 256 ^ b.length + toNat b := Nat.le_add_right _ _

/-- A string that does not begin with a zero octet is the shortest form of its value. -/
theorem ofNat_toNat {b : Octets} (h : b.head? ≠ some 0) : ofNat (toNat b) = b := by
  induction b using List.reverseRecOn with
  | nil => exact ofNat_zero
  | append_singleton b x ih =>
    have hb : b.head? ≠ some 0 := by
      cases b with
      | nil => simp
      | cons y b => simpa using h
    -- A string of value zero would be a single zero octet, which is its own first one.
    have hne : toNat (b ++ [x]) ≠ 0 := by
      intro hzero
      rw [toNat_concat] at hzero
      have hbzero : b = [] := by
        rw [← ih hb, ofNat_eq_nil_iff]
        omega
      have hxzero : x = 0 := by
        rw [← UInt8.toNat_inj, UInt8.toNat_zero]
        omega
      simp [hbzero, hxzero] at h
    rw [ofNat_of_ne_zero hne, toNat_concat_div, ih hb, ofNat_toNat_concat]

/-! ## Lengths -/

theorem lt_pow_byteLength (n : Nat) : n < 256 ^ byteLength n := by
  unfold byteLength
  split_ifs with h
  · simp [h]
  · have hlog : n < 2 ^ (n.log2 + 1) := Nat.lt_log2_self
    calc n < 2 ^ (n.log2 + 1) := hlog
      _ ≤ 2 ^ (8 * (n.log2 / 8 + 1)) := Nat.pow_le_pow_right (by omega) (by omega)
      _ = 256 ^ (n.log2 / 8 + 1) := pow_mul 2 8 _

/-- A number other than zero has a digit other than zero at its first place. -/
theorem pow_le_of_byteLength {n k : Nat} (h : byteLength n = k + 1) : 256 ^ k ≤ n := by
  unfold byteLength at h
  split_ifs at h with hn
  calc 256 ^ k = 2 ^ (8 * k) := (pow_mul 2 8 k).symm
    _ ≤ 2 ^ n.log2 := Nat.pow_le_pow_right (by omega) (by omega)
    _ ≤ n := Nat.log2_self_le hn

theorem byteLength_le_of_lt {n k : Nat} (h : n < 256 ^ k) : byteLength n ≤ k := by
  by_contra hlong
  obtain ⟨last, hlast⟩ := Nat.exists_eq_add_one.mpr (Nat.zero_lt_of_lt (not_le.mp hlong))
  have hle : 256 ^ k ≤ 256 ^ last := Nat.pow_le_pow_right (by omega) (by omega)
  exact absurd (hle.trans (pow_le_of_byteLength hlast)) (not_le.mpr h)

theorem byteLength_mono {m n : Nat} (h : m ≤ n) : byteLength m ≤ byteLength n :=
  byteLength_le_of_lt (h.trans_lt (lt_pow_byteLength n))

theorem byteLength_pos {n : Nat} (h : n ≠ 0) : 0 < byteLength n := by
  simp [byteLength, h]

theorem length_ofNat (n : Nat) : (ofNat n).length = byteLength n := by
  cases hdigits : ofNat n with
  | nil => simp [ofNat_eq_nil_iff.mp hdigits, byteLength]
  | cons x rest =>
    have hvalue : toNat (x :: rest) = n := by rw [← hdigits, toNat_ofNat]
    have hx : x ≠ 0 := by
      intro hzero
      exact head?_ofNat_ne_zero n (by rw [hdigits, hzero, List.head?_cons])
    have hn : n ≠ 0 := by
      rintro rfl
      simp [ofNat_zero] at hdigits
    obtain ⟨k, hk⟩ := Nat.exists_eq_add_one.mpr (byteLength_pos hn)
    -- Both lengths are those of the one power of 256 that lies at or below `n`.
    have hlower : 256 ^ rest.length < 256 ^ (k + 1) :=
      (pow_le_toNat hx rest).trans_lt (hvalue ▸ hk ▸ lt_pow_byteLength n)
    have hupper : 256 ^ k < 256 ^ (rest.length + 1) :=
      (pow_le_of_byteLength hk).trans_lt (hvalue ▸ toNat_lt (x :: rest))
    have hrest := (Nat.pow_lt_pow_iff_right (by omega)).mp hlower
    have hk' := (Nat.pow_lt_pow_iff_right (by omega)).mp hupper
    rw [hk, List.length_cons]
    omega

/-! ## Masks -/

/-- A mask is removed by applying it once more. -/
theorem xor_xor_cancel {a m : Octets} (h : a.length ≤ m.length) : xor (xor a m) m = a := by
  induction a generalizing m with
  | nil => rfl
  | cons x a ih =>
    cases m with
    | nil => simp at h
    | cons y m =>
      have htail : xor (xor a m) m = a := ih (by simpa using h)
      simp only [xor, List.zipWith_cons_cons] at htail ⊢
      rw [htail, UInt8.xor_assoc, UInt8.xor_self, UInt8.xor_zero]

end KeyCustody.Octets
