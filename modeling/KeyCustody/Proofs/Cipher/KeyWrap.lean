import KeyCustody.Proofs.Cipher.Lock
import KeyCustody.Proofs.Octets

/-!
# Key wrapping accepts exactly what it produces

Material and the semiblocks that it fills determine one another as soon as the length is known:
the semiblocks spell the material and the fewest zeros that complete the last of them. The length
stands in the check value, so unwrapping finds it there and can insist on the zeros. Together with
the permutation of the six passes this makes wrapping a bijection between the material of
acceptable length and the octet strings that unwrapping accepts.

## Main definitions

* `KeyWrap.fill` — the number of zeros after material of a given length

## Main results

* `KeyWrap.octets_semiblocks`, `KeyWrap.semiblocks_octets` — cutting into semiblocks
* `KeyWrap.material_eq_ok_iff` — what the check value lets through
* `KeyWrap.unwrap_eq_ok_iff` — unwrapping succeeds on the results of wrapping and nowhere else
* `KeyWrap.wrap_bijective` — wrapping and unwrapping as a bijection, with the lengths
-/

namespace KeyCustody.KeyWrap

open Aes

/-! ## Octets of semiblocks -/

theorem column_length_octets (x : Column) : x.octets.length = 4 := rfl

theorem column_ofOctets_octets (x : Column) : Column.ofOctets x.octets = x := rfl

/-- Missing octets are zero. -/
theorem column_octets_ofOctets {b : Octets} (h : b.length ≤ 4) :
    (Column.ofOctets b).octets = b ++ List.replicate (4 - b.length) 0 := by
  match b, h with
  | [], _ | [_], _ | [_, _], _ | [_, _, _], _ | [_, _, _, _], _ => rfl

namespace Semiblock

@[simp] theorem length_octets (x : Semiblock) : x.octets.length = 8 := rfl

theorem ofOctets_octets (x : Semiblock) : ofOctets x.octets = x := rfl

theorem octets_ofOctets {b : Octets} (h : b.length ≤ 8) :
    (ofOctets b).octets = b ++ List.replicate (8 - b.length) 0 := by
  have hhigh : (b.take 4).length ≤ 4 := List.length_take_le 4 b
  have hlow : (b.drop 4).length ≤ 4 := by
    rw [List.length_drop]
    omega
  rw [octets, ofOctets, column_octets_ofOctets hhigh, column_octets_ofOctets hlow,
    List.length_take, List.length_drop]
  -- Either the second column is all fill, or the first has none.
  rcases Nat.le_total b.length 4 with hshort | hlong
  · have hzeros : 4 - min 4 b.length + (4 - (b.length - 4)) = 8 - b.length := by omega
    rw [List.take_of_length_le hshort, List.drop_eq_nil_of_le hshort, List.nil_append,
      List.append_assoc, List.replicate_append_replicate, hzeros]
  · have hnone : 4 - min 4 b.length = 0 := by omega
    have hzeros : 4 - (b.length - 4) = 8 - b.length := by omega
    rw [hnone, List.replicate_zero, List.append_nil, ← List.append_assoc, List.take_append_drop,
      hzeros]

end Semiblock

@[simp] theorem octets_nil : octets [] = [] := rfl

@[simp] theorem octets_cons (x : Semiblock) (rs : List Semiblock) :
    octets (x :: rs) = x.octets ++ octets rs := rfl

theorem length_octets (rs : List Semiblock) : (octets rs).length = 8 * rs.length := by
  induction rs with
  | nil => rfl
  | cons r rs ih =>
    rw [octets_cons, List.length_append, ih, Semiblock.length_octets, List.length_cons]
    omega

/-! ## Cutting into semiblocks -/

theorem semiblocksFrom_eq (done : List Semiblock) (b : Octets) :
    semiblocksFrom done b = done.reverse ++ semiblocks b := by
  induction hn : b.length using Nat.strongRecOn generalizing done b with
  | ind n ih =>
    cases b with
    | nil => simp [semiblocks, semiblocksFrom]
    | cons x rest =>
      have hshorter : (rest.drop 7).length < n := by
        rw [← hn, List.length_drop, List.length_cons]
        omega
      rw [semiblocks, semiblocksFrom, semiblocksFrom, ih _ hshorter _ _ rfl,
        ih _ hshorter _ _ rfl, List.reverse_cons, List.append_assoc]
      rfl

@[simp] theorem semiblocks_nil : semiblocks [] = [] := by
  rw [semiblocks, semiblocksFrom, List.reverse_nil]

theorem semiblocks_of_ne_nil {b : Octets} (h : b ≠ []) :
    semiblocks b = Semiblock.ofOctets (b.take 8) :: semiblocks (b.drop 8) := by
  obtain ⟨x, rest, rfl⟩ := List.exists_cons_of_ne_nil h
  rw [semiblocks, semiblocksFrom, semiblocksFrom_eq]
  rfl

theorem semiblocks_octets (rs : List Semiblock) : semiblocks (octets rs) = rs := by
  induction rs with
  | nil => exact semiblocks_nil
  | cons r rs ih =>
    have hne : octets (r :: rs) ≠ [] := by
      intro hnil
      have hlength := length_octets (r :: rs)
      simp [hnil] at hlength
    rw [semiblocks_of_ne_nil hne, octets_cons, List.take_left' r.length_octets,
      List.drop_left' r.length_octets, Semiblock.ofOctets_octets, ih]

/-- How many zeros complete the last semiblock of material of a given length. -/
def fill (length : Nat) : Nat := (length + 7) / 8 * 8 - length

/-- The semiblocks of material spell the material and the zeros that complete the last. -/
theorem octets_semiblocks (b : Octets) :
    octets (semiblocks b) = b ++ List.replicate (fill b.length) 0 := by
  induction hn : b.length using Nat.strongRecOn generalizing b with
  | ind n ih =>
    by_cases hb : b = []
    · subst hb hn
      simp [fill]
    · have hpos : 0 < b.length := List.length_pos_iff.mpr hb
      have hhead : (b.take 8).length ≤ 8 := List.length_take_le 8 b
      have hrest := ih (b.drop 8).length (by rw [List.length_drop]; omega) (b.drop 8) rfl
      rw [semiblocks_of_ne_nil hb, octets_cons, Semiblock.octets_ofOctets hhead, hrest,
        List.length_take, List.length_drop, ← hn]
      -- Only the last semiblock is filled up, so the fill is that of the first or of the rest.
      rcases Nat.lt_or_ge b.length 8 with hshort | hlong
      · have hfill : fill b.length = 8 - min 8 b.length := by
          simp only [fill]
          omega
        have hnone : fill (b.length - 8) = 0 := by
          simp only [fill]
          omega
        rw [List.take_of_length_le hshort.le, List.drop_eq_nil_of_le hshort.le, hnone, hfill,
          List.replicate_zero, List.append_nil, List.append_nil]
      · have hnone : 8 - min 8 b.length = 0 := by omega
        have hfill : fill (b.length - 8) = fill b.length := by
          simp only [fill]
          omega
        rw [hnone, hfill, List.replicate_zero, List.append_nil, ← List.append_assoc,
          List.take_append_drop]

theorem length_octets_semiblocks (b : Octets) :
    (octets (semiblocks b)).length = (b.length + 7) / 8 * 8 := by
  rw [octets_semiblocks, List.length_append, List.length_replicate, fill]
  omega

/-- Whole semiblocks are cut without any filling. -/
theorem octets_semiblocks_of_dvd {b : Octets} (h : b.length % 8 = 0) :
    octets (semiblocks b) = b := by
  have hnone : fill b.length = 0 := by
    simp only [fill]
    omega
  rw [octets_semiblocks, hnone, List.replicate_zero, List.append_nil]

theorem octets_injective {rs ts : List Semiblock} (h : octets rs = octets ts) : rs = ts := by
  rw [← semiblocks_octets rs, h, semiblocks_octets]

/-! ## The check value -/

/-- The length that a check value spells. -/
theorem toNat_checkValue {n : Nat} (h : n < 2 ^ 32) :
    Octets.toNat (checkValue n).low.octets = n := by
  have hwidth : (Octets.ofNatWidth 4 n).length ≤ 4 := (Octets.length_ofNatWidth 4 n).le
  rw [checkValue, column_octets_ofOctets hwidth, Octets.length_ofNatWidth, Nat.sub_self,
    List.replicate_zero, List.append_nil, Octets.toNat_ofNatWidth_of_lt h]

theorem toNat_column_lt (x : Column) : Octets.toNat x.octets < 2 ^ 32 := by
  have hlt := Octets.toNat_lt x.octets
  rw [column_length_octets] at hlt
  omega

/-- A marked semiblock is the check value of the length that it spells. -/
theorem eq_checkValue {check : Semiblock} (h : check.high = mark) :
    check = checkValue (Octets.toNat check.low.octets) := by
  have hlow : Column.ofOctets (Octets.ofNatWidth 4 (Octets.toNat check.low.octets)) = check.low := by
    rw [Octets.ofNatWidth_toNat_of_length (column_length_octets _), column_ofOctets_octets]
  rw [checkValue, hlow, ← h]

/-- The check value lets through the semiblocks of material under the check value of its length,
and nothing else: the length in the check value says how many of the last octets are zeros. -/
theorem material_eq_ok_iff {check : Semiblock} {rs : List Semiblock} {p : Octets} :
    material check rs = .ok p ↔
      p ≠ [] ∧ p.length < 2 ^ 32 ∧ check = checkValue p.length ∧ rs = semiblocks p := by
  simp only [material]
  constructor
  · intro h
    split_ifs at h with haccepted
    -- The length lies in the last semiblock, so the zeros behind it are the fill and no more.
    obtain ⟨hmark, hle, hlt, hzeros, hne⟩ := haccepted
    obtain rfl : (octets rs).take (Octets.toNat check.low.octets) = p := Except.ok.inj h
    have hlength : ((octets rs).take (Octets.toNat check.low.octets)).length =
        Octets.toNat check.low.octets := List.length_take_of_le hle
    have hoctets := length_octets rs
    have hcount := List.length_pos_iff.mpr hne
    refine ⟨?_, ?_, ?_, ?_⟩
    · rw [← List.length_pos_iff, hlength]
      omega
    · rw [hlength]
      exact toNat_column_lt _
    · rw [hlength]
      exact eq_checkValue hmark
    · have hfill : (octets rs).length - Octets.toNat check.low.octets =
          fill (Octets.toNat check.low.octets) := by
        simp only [fill]
        omega
      have htail : (octets rs).drop (Octets.toNat check.low.octets) =
          List.replicate (fill (Octets.toNat check.low.octets)) 0 := by
        rw [← hfill, ← List.length_drop, List.eq_replicate_iff]
        exact ⟨rfl, by simpa using hzeros⟩
      apply octets_injective
      rw [octets_semiblocks, hlength, ← htail, List.take_append_drop]
  · rintro ⟨hne, hlt, rfl, rfl⟩
    have hpos := List.length_pos_iff.mpr hne
    have hlength := length_octets_semiblocks p
    -- What wrapping produces passes the five checks.
    have hrs : semiblocks p ≠ [] := by
      rw [semiblocks_of_ne_nil hne]
      exact List.cons_ne_nil _ _
    have hzeros : ((octets (semiblocks p)).drop p.length).all (· == 0) = true := by
      rw [octets_semiblocks, List.drop_left]
      simp
    rw [toNat_checkValue hlt, if_pos ⟨rfl, by omega, by omega, hzeros, hrs⟩, octets_semiblocks,
      List.take_left]

/-! ## Wrapping and unwrapping -/

variable {kek : Octets}

/-- The wrapped form of material: the locked check value and semiblocks, one after the other. -/
theorem wrap_eq_ok_iff {p c : Octets} : wrap kek p = .ok c ↔
    p ≠ [] ∧ p.length < 2 ^ 32 ∧ c = octets
      ((lock (roundKeys kek) (checkValue p.length, semiblocks p)).1 ::
        (lock (roundKeys kek) (checkValue p.length, semiblocks p)).2) := by
  unfold wrap
  split_ifs with hempty hlong
  · simp [hempty]
  · constructor
    · intro h
      exact ⟨hempty, by omega, (Except.ok.inj h).symm⟩
    · rintro ⟨-, -, rfl⟩
      rfl
  · constructor
    · rintro ⟨⟩
    · rintro ⟨-, hshort, -⟩
      omega

/-- Unwrapping looks at the unlocked check value and semiblocks. -/
theorem unwrap_octets (check : Semiblock) (rs : List Semiblock) :
    unwrap kek (octets (check :: rs)) =
      material (unlock (roundKeys kek) (check, rs)).1 (unlock (roundKeys kek) (check, rs)).2 := by
  have hwhole : (octets (check :: rs)).length % 8 = 0 := by
    rw [length_octets]
    omega
  rw [unwrap, if_pos hwhole, semiblocks_octets]

/-- Only whole semiblocks, at least one of them, get as far as the check value. -/
theorem exists_octets_of_unwrap {c p : Octets} (h : unwrap kek c = .ok p) :
    ∃ check rs, c = octets (check :: rs) := by
  unfold unwrap at h
  split_ifs at h with hwhole
  cases hcut : semiblocks c with
  | nil => simp [hcut] at h
  | cons check rs => exact ⟨check, rs, by rw [← hcut, octets_semiblocks_of_dvd hwhole]⟩

/-- Unwrapping succeeds on the results of wrapping and nowhere else. -/
theorem unwrap_eq_ok_iff {c p : Octets} : unwrap kek c = .ok p ↔ wrap kek p = .ok c := by
  rw [wrap_eq_ok_iff]
  constructor
  · intro h
    obtain ⟨check, rs, rfl⟩ := exists_octets_of_unwrap h
    rw [unwrap_octets, material_eq_ok_iff] at h
    obtain ⟨hne, hlt, hcheck, hrs⟩ := h
    refine ⟨hne, hlt, ?_⟩
    rw [← hcheck, ← hrs, Prod.mk.eta, lock_unlock]
  · rintro ⟨hne, hlt, rfl⟩
    rw [unwrap_octets, Prod.mk.eta, unlock_lock, material_eq_ok_iff]
    exact ⟨hne, hlt, rfl, rfl⟩

/-- Material that is not wrapped is empty or too long. -/
theorem wrap_eq_error_iff {p : Octets} {fault : Fault} : wrap kek p = .error fault ↔
    (p = [] ∧ fault = .emptyMaterial) ∨ (2 ^ 32 ≤ p.length ∧ fault = .dataLength) := by
  unfold wrap
  split_ifs with hempty hshort
  · constructor
    · intro h
      exact .inl ⟨hempty, (Except.error.inj h).symm⟩
    · rintro (⟨-, rfl⟩ | ⟨hlong, -⟩)
      · rfl
      · rw [hempty, List.length_nil] at hlong
        omega
  · constructor
    · rintro ⟨⟩
    · rintro (⟨hnil, -⟩ | ⟨hlong, -⟩)
      · exact absurd hnil hempty
      · omega
  · constructor
    · intro h
      exact .inr ⟨by omega, (Except.error.inj h).symm⟩
    · rintro (⟨hnil, -⟩ | ⟨-, rfl⟩)
      · exact absurd hnil hempty
      · rfl

/-- The check value refuses semiblocks in one way only. -/
theorem material_eq_error {check : Semiblock} {rs : List Semiblock} {fault : Fault}
    (h : material check rs = .error fault) : fault = .integrity := by
  simp only [material] at h
  split_ifs at h
  exact (Except.error.inj h).symm

theorem unwrap_eq_error {c : Octets} {fault : Fault} (h : unwrap kek c = .error fault) :
    fault = .dataLength ∨ fault = .integrity := by
  unfold unwrap at h
  split_ifs at h
  · cases hcut : semiblocks c with
    | nil =>
      rw [hcut] at h
      exact .inl (Except.error.inj h).symm
    | cons check rs =>
      rw [hcut] at h
      exact .inr (material_eq_error h)
  · exact .inl (Except.error.inj h).symm

theorem exists_wrap (kek : Octets) {p : Octets} (hne : p ≠ []) (hlt : p.length < 2 ^ 32) :
    ∃ c, wrap kek p = .ok c :=
  ⟨_, wrap_eq_ok_iff.mpr ⟨hne, hlt, rfl⟩⟩

theorem length_of_wrap {p c : Octets} (h : wrap kek p = .ok c) :
    c.length = wrappedLength p.length := by
  obtain ⟨-, -, rfl⟩ := wrap_eq_ok_iff.mp h
  have hcut := length_octets_semiblocks p
  rw [length_octets] at hcut
  rw [length_octets, List.length_cons, length_lock, wrappedLength, ← hcut]
  dsimp only
  omega

/-- The semiblocks of material take the least number of whole semiblocks that holds it. -/
theorem isLeast_wholeSemiblocks (n : Nat) :
    IsLeast {m | 8 ∣ m ∧ n ≤ m} ((n + 7) / 8 * 8) := by
  constructor
  · exact ⟨Nat.dvd_mul_left 8 _, by omega⟩
  · rintro m ⟨⟨k, rfl⟩, hle⟩
    omega

/-- Wrapping is a bijection between the material of acceptable length and what unwrapping accepts.
All material of one octet up to below `2 ^ 32` can be wrapped, into eight octets more than the
whole semiblocks that it takes, and is recovered; whatever unwraps is non-empty and wraps to the
octets that it came from, which therefore carry no other length and no other fill; and there is no
wrapping of nothing. -/
theorem wrap_bijective (kek : Octets) :
    (∀ p : Octets, p ≠ [] → p.length < 2 ^ 32 → ∃ c, wrap kek p = .ok c ∧
      c.length = wrappedLength p.length ∧ unwrap kek c = .ok p) ∧
    (∀ n, ∃ m, wrappedLength n = 8 + m ∧ IsLeast {m | 8 ∣ m ∧ n ≤ m} m) ∧
    (∀ c p : Octets, c.length ≠ 8 → unwrap kek c = .ok p → p ≠ [] ∧ wrap kek p = .ok c) ∧
    wrap kek [] = .error .emptyMaterial := by
  refine ⟨?_, ?_, ?_, rfl⟩
  · intro p hne hlt
    obtain ⟨c, hc⟩ := exists_wrap kek hne hlt
    exact ⟨c, hc, length_of_wrap hc, unwrap_eq_ok_iff.mpr hc⟩
  · intro n
    exact ⟨_, rfl, isLeast_wholeSemiblocks n⟩
  · intro c p _ h
    have hwrap := unwrap_eq_ok_iff.mp h
    exact ⟨(wrap_eq_ok_iff.mp hwrap).1, hwrap⟩

/-- Nine octets take two semiblocks, so they go through the six passes. -/
theorem wrap_bijective_nine : ∃ c,
    wrap (List.replicate 32 0x42) [1, 2, 3, 4, 5, 6, 7, 8, 9] = .ok c ∧ c.length = 24 ∧
      unwrap (List.replicate 32 0x42) c = .ok [1, 2, 3, 4, 5, 6, 7, 8, 9] := by
  obtain ⟨hthere, -, hback, -⟩ := wrap_bijective (List.replicate 32 0x42)
  obtain ⟨c, -, hlength, hunwrap⟩ := hthere [1, 2, 3, 4, 5, 6, 7, 8, 9] (by decide) (by decide)
  have hlong : c.length ≠ 8 := by
    rw [hlength]
    decide
  exact ⟨c, (hback c _ hlong hunwrap).2, hlength, hunwrap⟩

end KeyCustody.KeyWrap
