import KeyCustody.Text.Base64
import Mathlib.Data.FinEnum

/-!
# Base64 text stands for one octet string

Groups of three octets and groups of four letters are the same numbers below `2 ^ 24`, read in two
bases. A shorter last group is a number whose lowest bits are zero, and reading asks for those
zeros, so writing and strict reading are inverse to one another.

## Main definitions

* `Base64.IsCharacter` — a letter or the fill character

## Main results

* `Base64.decode?_eq_some_iff` — every octet string has one written form, and nothing else is read
* `Base64.length_encode`, `Base64.isCharacter_of_mem_encode` — how many characters are written, and
  which
-/

namespace KeyCustody.Base64

/-! ## The alphabet -/

theorem value?_letter {n : Nat} (h : n < 64) : value? (letter n) = some n := by
  have htable : ∀ n < 64, value? (letter n) = some n := by decide
  exact htable n h

theorem value?_eq_some {c : UInt8} {n : Nat} (h : value? c = some n) :
    n < 64 ∧ letter n = c := by
  have hc := c.toNat_lt
  simp only [value?, UInt8.le_iff_toNat_le, ← UInt8.toNat_inj, UInt8.reduceToNat] at h
  -- In each range of the alphabet the letter is the value moved back to where the range starts.
  split_ifs at h
  all_goals
    obtain rfl := Option.some.inj h
    refine ⟨by omega, ?_⟩
    simp only [letter, ← UInt8.toNat_inj]
    split_ifs <;> simp only [UInt8.toNat_ofNat', UInt8.reduceToNat] <;> omega

theorem ne_fill_of_value? {c : UInt8} {n : Nat} (h : value? c = some n) : c ≠ fill := by
  rintro rfl
  cases h

/-! ## Groups -/

theorem encodeFrom_append (gathered before b : Octets) :
    encodeFrom (gathered ++ before) b = before.reverse ++ encodeFrom gathered b := by
  fun_induction encodeFrom gathered b with
  | case1 gathered a b c rest n ih => exact ih
  | case2 gathered a b n => simp [encodeFrom, n]
  | case3 gathered a n => simp [encodeFrom, n]
  | case4 gathered => simp [encodeFrom]

/-- A group of three octets is written in front of the rest. -/
theorem encode_cons (a b c : UInt8) (rest : Octets) :
    let n := (a.toNat * 256 + b.toNat) * 256 + c.toNat
    encode (a :: b :: c :: rest) =
      letter (n / 262144) :: letter (n / 4096 % 64) :: letter (n / 64 % 64) :: letter (n % 64) ::
        encode rest := by
  intro n
  exact encodeFrom_append [] [letter (n % 64), letter (n / 64 % 64), letter (n / 4096 % 64),
    letter (n / 262144)] rest

theorem encode_pair (a b : UInt8) :
    let n := (a.toNat * 256 + b.toNat) * 4
    encode [a, b] = [letter (n / 4096), letter (n / 64 % 64), letter (n % 64), fill] := rfl

theorem encode_singleton (a : UInt8) :
    encode [a] = [letter (a.toNat * 16 / 64), letter (a.toNat * 16 % 64), fill, fill] := rfl

section Decode

variable {a b c d : UInt8} {x y z w : Nat} (ha : value? a = some x) (hb : value? b = some y)

include ha hb

/-- A group of four letters is read in front of the rest, which may be empty. -/
theorem decodeFrom_cons (hc : value? c = some z) (hd : value? d = some w)
    (gathered rest : Octets) :
    let n := ((x * 64 + y) * 64 + z) * 64 + w
    decodeFrom gathered (a :: b :: c :: d :: rest) =
      decodeFrom (UInt8.ofNat n :: UInt8.ofNat (n / 256) :: UInt8.ofNat (n / 65536) :: gathered)
        rest := by
  intro n
  cases rest with
  | nil => simp [decodeFrom, ha, hb, hc, hd, ne_fill_of_value? hc, ne_fill_of_value? hd, n]
  | cons e rest => simp [decodeFrom, ha, hb, hc, hd, n]

theorem decodeFrom_pair (hc : value? c = some z) (hz : z % 4 = 0) (gathered : Octets) :
    let n := (x * 64 + y) * 16 + z / 4
    decodeFrom gathered [a, b, c, fill] =
      some (gathered.reverse ++ [UInt8.ofNat (n / 256), UInt8.ofNat n]) := by
  simp [decodeFrom, ha, hb, hc, hz, ne_fill_of_value? hc]

theorem decodeFrom_singleton (hy : y % 16 = 0) (gathered : Octets) :
    decodeFrom gathered [a, b, fill, fill] =
      some (gathered.reverse ++ [UInt8.ofNat (x * 4 + y / 16)]) := by
  simp [decodeFrom, ha, hb, hy]

end Decode

theorem ofNat_eq_of_mod {n : Nat} {x : UInt8} (h : n % 256 = x.toNat) : UInt8.ofNat n = x := by
  rw [← UInt8.toNat_inj, UInt8.toNat_ofNat', h]

theorem decodeFrom_encode (gathered b : Octets) :
    decodeFrom gathered (encode b) = some (gathered.reverse ++ b) := by
  refine encodeFrom.induct (fun _ b => ∀ gathered, decodeFrom gathered (encode b) =
    some (gathered.reverse ++ b)) ?_ ?_ ?_ ?_ [] b gathered
  -- By groups of three octets, as they are written. What was gathered in writing has no part in
  -- it, because `encode` starts afresh.
  · intro _ a b c rest n ih gathered
    have ha := a.toNat_lt
    have hb := b.toNat_lt
    have hc := c.toNat_lt
    have hn : n < 2 ^ 24 := by omega
    have hvalue : ((n / 262144 * 64 + n / 4096 % 64) * 64 + n / 64 % 64) * 64 + n % 64 = n := by
      omega
    have hfirst : UInt8.ofNat (n / 65536) = a := ofNat_eq_of_mod (by omega)
    have hsecond : UInt8.ofNat (n / 256) = b := ofNat_eq_of_mod (by omega)
    have hthird : UInt8.ofNat n = c := ofNat_eq_of_mod (by omega)
    rw [encode_cons, decodeFrom_cons (value?_letter (by omega)) (value?_letter (by omega))
      (value?_letter (by omega)) (value?_letter (by omega))]
    rw [hvalue, hfirst, hsecond, hthird, ih]
    simp
  · intro _ a b gathered
    have ha := a.toNat_lt
    have hb := b.toNat_lt
    rw [encode_pair, decodeFrom_pair (value?_letter (by omega)) (value?_letter (by omega))
      (value?_letter (by omega)) (by omega)]
    rw [ofNat_eq_of_mod (x := a) (by omega), ofNat_eq_of_mod (x := b) (by omega)]
  · intro _ a gathered
    have ha := a.toNat_lt
    rw [encode_singleton, decodeFrom_singleton (value?_letter (by omega))
      (value?_letter (by omega)) (by omega), ofNat_eq_of_mod (x := a) (by omega)]
  · intro _ gathered
    simp [encode, encodeFrom, decodeFrom]

section Encode

variable {x y z w : Nat} (hx : x < 64) (hy : y < 64)

include hx hy

theorem encode_ofNat_cons (hz : z < 64) (hw : w < 64) (rest : Octets) :
    let n := ((x * 64 + y) * 64 + z) * 64 + w
    encode (UInt8.ofNat (n / 65536) :: UInt8.ofNat (n / 256) :: UInt8.ofNat n :: rest) =
      letter x :: letter y :: letter z :: letter w :: encode rest := by
  intro n
  have hn : n < 2 ^ 24 := by omega
  have hvalue : ((UInt8.ofNat (n / 65536)).toNat * 256 + (UInt8.ofNat (n / 256)).toNat) * 256 +
      (UInt8.ofNat n).toNat = n := by
    simp only [UInt8.toNat_ofNat']
    omega
  have hfirst : n / 262144 = x := by omega
  have hsecond : n / 4096 % 64 = y := by omega
  have hthird : n / 64 % 64 = z := by omega
  have hfourth : n % 64 = w := by omega
  rw [encode_cons, hvalue, hfirst, hsecond, hthird, hfourth]

theorem encode_ofNat_pair (hz : z < 64) (hzero : z % 4 = 0) :
    let n := (x * 64 + y) * 16 + z / 4
    encode [UInt8.ofNat (n / 256), UInt8.ofNat n] = [letter x, letter y, letter z, fill] := by
  intro n
  have hvalue : ((UInt8.ofNat (n / 256)).toNat * 256 + (UInt8.ofNat n).toNat) * 4 = n * 4 := by
    simp only [UInt8.toNat_ofNat']
    omega
  have hfirst : n * 4 / 4096 = x := by omega
  have hsecond : n * 4 / 64 % 64 = y := by omega
  have hthird : n * 4 % 64 = z := by omega
  rw [encode_pair, hvalue, hfirst, hsecond, hthird]

theorem encode_ofNat_singleton (hzero : y % 16 = 0) :
    encode [UInt8.ofNat (x * 4 + y / 16)] = [letter x, letter y, fill, fill] := by
  have hvalue : (UInt8.ofNat (x * 4 + y / 16)).toNat = x * 4 + y / 16 := by
    rw [UInt8.toNat_ofNat']
    omega
  have hfirst : (x * 4 + y / 16) * 16 / 64 = x := by omega
  have hsecond : (x * 4 + y / 16) * 16 % 64 = y := by omega
  rw [encode_singleton, hvalue, hfirst, hsecond]

end Encode

/-- What is read is the written form of what it stands for. -/
theorem eq_encode_of_decodeFrom {gathered text b : Octets}
    (h : decodeFrom gathered text = some b) :
    ∃ read, b = gathered.reverse ++ read ∧ text = encode read := by
  induction gathered, text using decodeFrom.induct generalizing b with
  | case1 gathered =>
    rw [decodeFrom] at h
    obtain rfl := Option.some_inj.mp h
    exact ⟨[], (List.append_nil _).symm, rfl⟩
  | case2 gathered a b c d =>
    rw [decodeFrom] at h
    simp only [Option.bind_eq_bind, Option.bind_eq_some_iff] at h
    obtain ⟨x, ha, y, hb, h⟩ := h
    obtain ⟨hx, rfl⟩ := value?_eq_some ha
    obtain ⟨hy, rfl⟩ := value?_eq_some hb
    -- How many octets the last group holds shows in its fill characters.
    by_cases hc : c = fill
    · rw [if_pos hc] at h
      split_ifs at h with hzero
      obtain ⟨rfl, hzero⟩ := hzero
      obtain rfl := Option.some_inj.mp h
      exact ⟨_, List.reverse_cons, by rw [hc, encode_ofNat_singleton hx hy hzero]⟩
    · rw [if_neg hc, Option.bind_eq_some_iff] at h
      obtain ⟨z, hthird, h⟩ := h
      obtain ⟨hz, rfl⟩ := value?_eq_some hthird
      by_cases hd : d = fill
      · rw [if_pos hd] at h
        split_ifs at h with hzero
        obtain rfl := Option.some_inj.mp h
        refine ⟨_, by rw [List.reverse_cons, List.reverse_cons, List.append_assoc], ?_⟩
        rw [hd]
        exact (encode_ofNat_pair hx hy hz hzero).symm
      · rw [if_neg hd, Option.bind_eq_some_iff] at h
        obtain ⟨w, hfourth, h⟩ := h
        obtain ⟨hw, rfl⟩ := value?_eq_some hfourth
        obtain rfl := Option.some_inj.mp h
        exact ⟨_, by simp, (encode_ofNat_cons hx hy hz hw []).symm⟩
  | case3 gathered a b c d rest hrest ih =>
    -- A group with more behind it has no fill characters.
    simp only [decodeFrom, Option.bind_eq_bind, Option.bind_eq_some_iff] at h
    obtain ⟨x, ha, y, hb, z, hc, w, hd, h⟩ := h
    obtain ⟨read, rfl, rfl⟩ := ih _ _ _ _ h
    obtain ⟨hx, rfl⟩ := value?_eq_some ha
    obtain ⟨hy, rfl⟩ := value?_eq_some hb
    obtain ⟨hz, rfl⟩ := value?_eq_some hc
    obtain ⟨hw, rfl⟩ := value?_eq_some hd
    exact ⟨_, by simp, (encode_ofNat_cons hx hy hz hw read).symm⟩
  | case4 text gathered hnil hfour hmore =>
    simp only [decodeFrom] at h
    cases h

/-- Every octet string has one written form, which is all that is read. -/
theorem decode?_eq_some_iff {text b : Octets} : decode? text = some b ↔ text = encode b := by
  constructor
  · intro h
    obtain ⟨read, rfl, rfl⟩ := eq_encode_of_decodeFrom h
    rfl
  · rintro rfl
    exact decodeFrom_encode [] b

/-! ## The characters -/

theorem length_encodeFrom (gathered b : Octets) :
    (encodeFrom gathered b).length = gathered.length + encodedLength b.length := by
  fun_induction encodeFrom gathered b with
  | case1 gathered a b c rest n ih =>
    rw [ih, encodedLength, encodedLength]
    simp only [List.length_cons]
    omega
  | case2 gathered a b n => simp [encodedLength]
  | case3 gathered a n => simp [encodedLength]
  | case4 gathered => simp [encodedLength]

theorem length_encode (b : Octets) : (encode b).length = encodedLength b.length := by
  rw [encode, length_encodeFrom, List.length_nil, Nat.zero_add]

/-- A letter or the fill character. -/
def IsCharacter (c : UInt8) : Prop := c = fill ∨ (value? c).isSome

theorem isCharacter_letter {n : Nat} (h : n < 64) : IsCharacter (letter n) := by
  right
  rw [value?_letter h]
  rfl

theorem isCharacter_of_mem_encodeFrom {gathered b : Octets}
    (h : ∀ c ∈ gathered, IsCharacter c) : ∀ c ∈ encodeFrom gathered b, IsCharacter c := by
  fun_induction encodeFrom gathered b with
  | case1 gathered a b c rest n ih =>
    have ha := a.toNat_lt
    have hb := b.toNat_lt
    have hc := c.toNat_lt
    apply ih
    simp only [List.forall_mem_cons]
    exact ⟨isCharacter_letter (by omega), isCharacter_letter (by omega),
      isCharacter_letter (by omega), isCharacter_letter (by omega), h⟩
  | case2 gathered a b n =>
    have ha := a.toNat_lt
    have hb := b.toNat_lt
    simp only [List.mem_reverse, List.forall_mem_cons]
    exact ⟨.inl rfl, isCharacter_letter (by omega), isCharacter_letter (by omega),
      isCharacter_letter (by omega), h⟩
  | case3 gathered a n =>
    have ha := a.toNat_lt
    simp only [List.mem_reverse, List.forall_mem_cons]
    exact ⟨.inl rfl, .inl rfl, isCharacter_letter (by omega), isCharacter_letter (by omega), h⟩
  | case4 gathered => simpa only [List.mem_reverse] using h

/-- Nothing is written but letters and fill. -/
theorem isCharacter_of_mem_encode {b : Octets} : ∀ c ∈ encode b, IsCharacter c :=
  isCharacter_of_mem_encodeFrom fun _ h => absurd h List.not_mem_nil

end KeyCustody.Base64
