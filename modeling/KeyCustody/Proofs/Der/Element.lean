import KeyCustody.Der.Element
import KeyCustody.Proofs.Octets

/-!
# Reading back what is written

An element that is written in front of other octets is read off again, and the other octets are
left. Each statement leaves room for what follows, so that elements nested in one another and
standing in a row are read back by the same lemmas. Lengths have at most 127 digits in base 256,
which is the only bound that the encoding has.

Conversely, nothing is read but written forms: what was read and what was left determine the octets
that were there.

## Main definitions

* `Der.lengthLimit` — the least length without a written form

## Main results

* `Der.takeLength?_eq_some_iff`, `Der.take?_eq_some_iff` — lengths and elements
* `Der.content?_eq_some_iff`, `Der.sole?_eq_some_iff` — the content of an element
* `Der.isElement_append_iff` — an element delimits itself
* `Der.natural?_eq_some_iff` — natural numbers
* `Der.takeContext?_encode`, `Der.takeContext?_of_lt` — context-specific elements
* `Der.infix_of_sole?` — a content is part of what it was read from
* `Der.length_encode_le`, `Der.length_encode_add_le` — how much longer than its content an element
  is, and which of two elements is the longer one
-/

namespace KeyCustody.Der

/-- The least length without a written form: the count of its digits would take an eighth bit. -/
def lengthLimit : Nat := 256 ^ 127

variable {n : Nat} {rest : Octets}

/-! ## Lengths -/

theorem lt_lengthLimit {k : Nat} (h : n ≤ k) (hk : k < 2 ^ 128) : n < lengthLimit :=
  calc n ≤ k := h
    _ < 256 ^ 16 := hk
    _ ≤ 256 ^ 127 := Nat.pow_le_pow_right (by omega) (by omega)

theorem length_encodeLength_le (h : n < lengthLimit) : (encodeLength n).length ≤ 128 := by
  unfold encodeLength
  split_ifs with hshort
  · simp
  · rw [List.length_cons, Octets.length_ofNat]
    have := Octets.byteLength_le_of_lt h
    omega

theorem length_encodeLength_mono {m : Nat} (h : m ≤ n) :
    (encodeLength m).length ≤ (encodeLength n).length := by
  unfold encodeLength
  split_ifs with hm hn
  · exact le_rfl
  · simp
  · omega
  · rw [List.length_cons, List.length_cons, Octets.length_ofNat, Octets.length_ofNat]
    exact Nat.succ_le_succ (Octets.byteLength_mono h)

theorem takeLength?_encodeLength (h : n < lengthLimit) (rest : Octets) :
    takeLength? (encodeLength n ++ rest) = some (n, rest) := by
  unfold encodeLength
  split_ifs with hshort
  · -- A short length is its own octet.
    have hvalue : (UInt8.ofNat n).toNat = n := by
      rw [UInt8.toNat_ofNat']
      omega
    have hbelow : UInt8.ofNat n < 128 := by
      rw [UInt8.lt_iff_toNat_lt, hvalue]
      exact hshort
    rw [List.singleton_append, takeLength?, if_pos hbelow, hvalue]
  · -- A long one is counted by the first octet, whose highest bit is a mark.
    have hcount := Octets.byteLength_le_of_lt h
    rw [← Octets.length_ofNat] at hcount
    have hvalue : (UInt8.ofNat (128 + (Octets.ofNat n).length)).toNat =
        128 + (Octets.ofNat n).length := by
      rw [UInt8.toNat_ofNat']
      omega
    have habove : ¬ UInt8.ofNat (128 + (Octets.ofNat n).length) < 128 := by
      rw [UInt8.lt_iff_toNat_lt, hvalue]
      exact not_lt.mpr (Nat.le_add_right 128 _)
    have hdigits : (Octets.ofNat n ++ rest).take (Octets.ofNat n).length = Octets.ofNat n :=
      List.take_left
    dsimp only
    rw [List.cons_append, takeLength?, if_neg habove]
    dsimp only
    rw [hvalue, Nat.add_sub_cancel_left, hdigits, Octets.toNat_ofNat, List.drop_left,
      if_pos ⟨rfl, Octets.head?_ofNat_ne_zero n, by omega⟩]

/-- Only the written form of a length is read: no needless digit, and none that is missing. -/
theorem takeLength?_eq_some_iff {b : Octets} :
    takeLength? b = some (n, rest) ↔ n < lengthLimit ∧ b = encodeLength n ++ rest := by
  constructor
  · intro h
    cases b with
    | nil => simp [takeLength?] at h
    | cons x b =>
      rw [takeLength?] at h
      split_ifs at h with hsmall
      · obtain ⟨rfl, rfl⟩ := Prod.mk.inj (Option.some_inj.mp h)
        have hx : x.toNat < 128 := UInt8.lt_iff_toNat_lt.mp hsmall
        rw [encodeLength, if_pos hx, UInt8.ofNat_toNat]
        exact ⟨lt_lengthLimit hx.le (by decide), rfl⟩
      · dsimp only at h
        split_ifs at h with hdigits
        obtain ⟨hcount, hhead, hlarge⟩ := hdigits
        obtain ⟨rfl, rfl⟩ := Prod.mk.inj (Option.some_inj.mp h)
        have hx : 128 ≤ x.toNat := by
          rw [UInt8.lt_iff_toNat_lt] at hsmall
          exact Nat.not_lt.mp hsmall
        have hfew : x.toNat - 128 ≤ 127 := by
          have := x.toNat_lt
          omega
        -- The first octet counts the digits, and they are the shortest form of what they spell.
        have hmark : UInt8.ofNat (128 + (x.toNat - 128)) = x := by
          rw [Nat.add_sub_cancel' hx, UInt8.ofNat_toNat]
        rw [encodeLength, if_neg (Nat.not_lt.mpr hlarge)]
        dsimp only
        rw [Octets.ofNat_toNat hhead, hcount, hmark, List.cons_append, List.take_append_drop]
        refine ⟨?_, rfl⟩
        calc Octets.toNat (b.take (x.toNat - 128))
            < 256 ^ (b.take (x.toNat - 128)).length := Octets.toNat_lt _
          _ ≤ 256 ^ 127 := by
              rw [hcount]
              exact Nat.pow_le_pow_right (by omega) hfew
  · rintro ⟨hn, rfl⟩
    exact takeLength?_encodeLength hn rest

/-! ## Elements -/

variable {e : Element}

theorem length_encode_le (h : e.content.length < lengthLimit) :
    e.encode.length ≤ e.content.length + 129 := by
  have hlength := length_encodeLength_le h
  rw [Element.encode, List.length_cons, List.length_append]
  omega

/-- The longer content makes the longer element, by as many octets at least. -/
theorem length_encode_add_le {f : Element} {k : Nat}
    (h : e.content.length + k ≤ f.content.length) : e.encode.length + k ≤ f.encode.length := by
  have hlength := length_encodeLength_mono (Nat.le_of_add_right_le h)
  simp only [Element.encode, List.length_cons, List.length_append]
  omega

theorem take?_encode (htag : isTag e.tag = true) (h : e.content.length < lengthLimit)
    (rest : Octets) : take? (e.encode ++ rest) = some (e, rest) := by
  have hle : e.content.length ≤ (e.content ++ rest).length := by
    rw [List.length_append]
    omega
  rw [Element.encode, List.cons_append, List.append_assoc, take?, if_pos htag,
    takeLength?_encodeLength h]
  dsimp only
  rw [if_pos hle, List.take_left, List.drop_left]

/-- An element is read off octets that begin with its written form, and off no others. -/
theorem take?_eq_some_iff {b : Octets} : take? b = some (e, rest) ↔
    isTag e.tag = true ∧ e.content.length < lengthLimit ∧ b = e.encode ++ rest := by
  constructor
  · intro h
    cases b with
    | nil => simp [take?] at h
    | cons t b =>
      rw [take?] at h
      split_ifs at h with htag
      cases hlength : takeLength? b with
      | none => simp [hlength] at h
      | some read =>
        obtain ⟨n, behind⟩ := read
        obtain ⟨hn, rfl⟩ := takeLength?_eq_some_iff.mp hlength
        rw [hlength] at h
        dsimp only at h
        split_ifs at h with henough
        obtain ⟨rfl, rfl⟩ := Prod.mk.inj (Option.some_inj.mp h)
        have hcontent : (behind.take n).length = n := List.length_take_of_le henough
        refine ⟨htag, hcontent.symm ▸ hn, ?_⟩
        rw [Element.encode, hcontent, List.cons_append, List.append_assoc, List.take_append_drop]
  · rintro ⟨htag, hlength, rfl⟩
    exact take?_encode htag hlength rest

theorem Element.content_infix_encode (e : Element) : e.content <:+: e.encode := by
  rw [Element.encode, ← List.cons_append]
  exact (List.suffix_append _ _).isInfix

theorem content?_eq_some_iff {tag : UInt8} {b content : Octets} :
    content? tag b = some (content, rest) ↔
      isTag tag = true ∧ content.length < lengthLimit ∧
        b = Element.encode ⟨tag, content⟩ ++ rest := by
  have htake := @take?_eq_some_iff rest ⟨tag, content⟩ b
  rw [← htake, content?]
  cases take? b with
  | none => simp
  | some read =>
    obtain ⟨⟨t, c⟩, r⟩ := read
    dsimp only
    split_ifs with h
    · simp [h]
    · simp [h]

theorem sole?_eq_some_iff {tag : UInt8} {b content : Octets} : sole? tag b = some content ↔
    isTag tag = true ∧ content.length < lengthLimit ∧ b = Element.encode ⟨tag, content⟩ := by
  have hcontent := @content?_eq_some_iff [] tag b content
  rw [List.append_nil] at hcontent
  rw [← hcontent, sole?]
  rcases content? tag b with _ | ⟨c, _ | ⟨x, r⟩⟩ <;> simp

theorem isElement_of_sole? {tag : UInt8} {b content : Octets}
    (h : sole? tag b = some content) : isElement b = true := by
  obtain ⟨htag, hlength, rfl⟩ := sole?_eq_some_iff.mp h
  have htake := take?_encode (e := ⟨tag, content⟩) htag hlength []
  rw [List.append_nil] at htake
  rw [isElement, htake]

theorem isElement_iff {b : Octets} : isElement b = true ↔ ∃ e, take? b = some (e, []) := by
  rw [isElement]
  rcases take? b with _ | ⟨e, _ | ⟨x, behind⟩⟩ <;> simp

/-- An element with more octets behind it is no element: its length tells where it ends. -/
theorem isElement_append_iff {b : Octets} (h : isElement b = true) :
    isElement (b ++ rest) = true ↔ rest = [] := by
  constructor
  · intro happend
    obtain ⟨e, he⟩ := isElement_iff.mp h
    obtain ⟨e', he'⟩ := isElement_iff.mp happend
    obtain ⟨htag, hlength, rfl⟩ := take?_eq_some_iff.mp he
    rw [List.append_nil, take?_encode htag hlength] at he'
    exact (Prod.mk.inj (Option.some_inj.mp he')).2
  · rintro rfl
    rwa [List.append_nil]

/-- What is read is part of what was there. -/
theorem infix_of_sole? {tag : UInt8} {b content : Octets} (h : sole? tag b = some content) :
    content <:+: b := by
  obtain ⟨-, -, rfl⟩ := sole?_eq_some_iff.mp h
  exact Element.content_infix_encode ⟨tag, content⟩

theorem content?_encode (htag : isTag e.tag = true) (h : e.content.length < lengthLimit)
    (rest : Octets) : content? e.tag (e.encode ++ rest) = some (e.content, rest) := by
  rw [content?, take?_encode htag h]
  exact if_pos rfl

theorem sole?_encode (htag : isTag e.tag = true) (h : e.content.length < lengthLimit) :
    sole? e.tag e.encode = some e.content := by
  have hcontent := content?_encode htag h []
  rw [List.append_nil] at hcontent
  rw [sole?, hcontent]

theorem length_encodeSequence_le {content : Octets} (h : content.length < lengthLimit) :
    (encodeSequence content).length ≤ content.length + 129 :=
  length_encode_le (e := ⟨sequenceTag, content⟩) h

theorem content?_encodeSequence {content : Octets} (h : content.length < lengthLimit)
    (rest : Octets) :
    content? sequenceTag (encodeSequence content ++ rest) = some (content, rest) :=
  content?_encode (e := ⟨sequenceTag, content⟩) rfl h rest

theorem sole?_encodeSequence {content : Octets} (h : content.length < lengthLimit) :
    sole? sequenceTag (encodeSequence content) = some content :=
  sole?_encode (e := ⟨sequenceTag, content⟩) rfl h

/-! ## Natural numbers -/

theorem natural?_naturalContent (n : Nat) : natural? (naturalContent n) = some n := by
  have hvalue := Octets.toNat_ofNat n
  have hhead := Octets.head?_ofNat_ne_zero n
  unfold naturalContent
  cases hdigits : Octets.ofNat n with
  | nil =>
    rw [hdigits, Octets.toNat_nil] at hvalue
    rw [← hvalue]
    rfl
  | cons x digits =>
    rw [hdigits] at hvalue hhead
    have hx : x ≠ 0 := by
      rintro rfl
      exact hhead rfl
    dsimp only
    split_ifs with hsmall
    · cases digits with
      | nil => rw [natural?, if_pos hsmall, ← hvalue, Octets.toNat_singleton]
      | cons y digits => rw [natural?, if_pos ⟨hsmall, Or.inl hx⟩, hvalue]
    · -- The zero octet in front keeps a number from being read as negative.
      have hlarge : 128 ≤ x := UInt8.not_lt.mp hsmall
      rw [natural?, if_pos ⟨by decide, Or.inr hlarge⟩, Octets.toNat_cons, UInt8.toNat_zero,
        zero_mul, zero_add, hvalue]

/-- Only the written content of a natural number is read. -/
theorem natural?_eq_some_iff {content : Octets} :
    natural? content = some n ↔ content = naturalContent n := by
  constructor
  · intro h
    match content, h with
    | [x], h =>
      rw [natural?] at h
      split_ifs at h with hsmall
      obtain rfl := Option.some_inj.mp h
      by_cases hzero : x = 0
      · subst hzero
        rw [naturalContent, UInt8.toNat_zero, Octets.ofNat_zero]
      · have hdigits : Octets.ofNat x.toNat = [x] := by
          rw [← Octets.toNat_singleton]
          exact Octets.ofNat_toNat (by simpa using hzero)
        rw [naturalContent, hdigits]
        exact (if_pos hsmall).symm
    | x :: y :: digits, h =>
      rw [natural?] at h
      split_ifs at h with hform
      obtain ⟨hsmall, hneeded⟩ := hform
      obtain rfl := Option.some_inj.mp h
      by_cases hzero : x = 0
      · -- The zero octet in front is no digit, and the digit behind it needs it.
        subst hzero
        have hlarge : 128 ≤ y := hneeded.resolve_left (not_not_intro rfl)
        have hy : y ≠ 0 := by
          rintro rfl
          exact absurd hlarge (by decide)
        have hdigits : Octets.ofNat (Octets.toNat (0 :: y :: digits)) = y :: digits := by
          rw [Octets.toNat_cons, UInt8.toNat_zero, zero_mul, zero_add]
          exact Octets.ofNat_toNat (by simpa using hy)
        rw [naturalContent, hdigits]
        exact (if_neg (UInt8.not_lt.mpr hlarge)).symm
      · have hdigits : Octets.ofNat (Octets.toNat (x :: y :: digits)) = x :: y :: digits :=
          Octets.ofNat_toNat (by simpa using hzero)
        rw [naturalContent, hdigits]
        exact (if_pos hsmall).symm
  · rintro rfl
    exact natural?_naturalContent n

/-- A number of seven bits takes one octet. -/
theorem naturalContent_of_lt (h : n < 128) : naturalContent n = [UInt8.ofNat n] := by
  have hvalue : (UInt8.ofNat n).toNat = n := UInt8.toNat_ofNat_of_lt' (Nat.lt_trans h (by decide))
  have hsmall : UInt8.ofNat n < 128 := by
    rw [UInt8.lt_iff_toNat_lt, hvalue]
    exact h
  refine (natural?_eq_some_iff.mp ?_).symm
  rw [natural?, if_pos hsmall, hvalue]

theorem encodeNatural_of_lt (h : n < 128) : encodeNatural n = [integerTag, 1, UInt8.ofNat n] := by
  rw [encodeNatural, naturalContent_of_lt h]
  rfl

theorem byteLength_le_length_naturalContent (n : Nat) :
    Octets.byteLength n ≤ (naturalContent n).length := by
  rw [← Octets.length_ofNat, naturalContent]
  cases Octets.ofNat n with
  | nil => simp
  | cons x digits =>
    dsimp only
    split_ifs <;> simp

theorem length_naturalContent_le (n : Nat) :
    (naturalContent n).length ≤ Octets.byteLength n + 1 := by
  rw [← Octets.length_ofNat, naturalContent]
  cases Octets.ofNat n with
  | nil => simp
  | cons x digits =>
    dsimp only
    split_ifs <;> simp

theorem length_encodeNatural_le (h : (naturalContent n).length < lengthLimit) :
    (encodeNatural n).length ≤ (naturalContent n).length + 129 :=
  length_encode_le (e := ⟨integerTag, naturalContent n⟩) h

theorem take?_encodeNatural (h : (naturalContent n).length < lengthLimit) (rest : Octets) :
    take? (encodeNatural n ++ rest) = some (⟨integerTag, naturalContent n⟩, rest) :=
  take?_encode (e := ⟨integerTag, naturalContent n⟩) rfl h rest

theorem takeNatural?_encodeNatural (h : (naturalContent n).length < lengthLimit)
    (rest : Octets) : takeNatural? (encodeNatural n ++ rest) = some (n, rest) := by
  have hcontent : content? integerTag (encodeNatural n ++ rest) = some (naturalContent n, rest) :=
    content?_encode (e := ⟨integerTag, naturalContent n⟩) rfl h rest
  simp [takeNatural?, hcontent, natural?_naturalContent]

theorem takeNatural?_encodeNatural_of_lt (h : n < 128) (rest : Octets) :
    takeNatural? (encodeNatural n ++ rest) = some (n, rest) := by
  have hlength : (naturalContent n).length ≤ 1 := by
    rw [naturalContent_of_lt h, List.length_singleton]
  exact takeNatural?_encodeNatural (lt_lengthLimit hlength (by decide)) rest

theorem content?_of_takeNatural? {b : Octets} (h : takeNatural? b = some (n, rest)) :
    content? integerTag b = some (naturalContent n, rest) := by
  simp only [takeNatural?, Option.bind_eq_bind, Option.bind_eq_some_iff] at h
  obtain ⟨⟨content, behind⟩, hcontent, m, hm, hread⟩ := h
  obtain ⟨rfl, rfl⟩ := Prod.mk.inj (Option.some_inj.mp hread)
  rwa [← natural?_eq_some_iff.mp hm]

/-- Only bits in whole octets are read: the count of unused ones in front of them is zero. -/
theorem wholeBits?_eq_some_iff {content key : Octets} :
    wholeBits? content = some key ↔ content = 0 :: key := by
  constructor
  · intro h
    unfold wholeBits? at h
    split at h
    · rw [Option.some_inj.mp h]
    · cases h
  · rintro rfl
    rfl

/-! ## Context-specific elements -/

/-- The context-specific element that is looked for is read like any other. -/
theorem takeContext?_encode {number : UInt8} (htag : isTag e.tag = true)
    (hcontext : isContext e.tag = true) (hnumber : tagNumber e.tag = number)
    (h : e.content.length < lengthLimit) (rest : Octets) :
    takeContext? number (e.encode ++ rest) = some (some e, rest) := by
  have htake := take?_encode htag h rest
  have hhead : (e.encode ++ rest).head? = some e.tag := rfl
  rw [takeContext?, hhead]
  dsimp only
  rw [if_pos htag, if_pos ⟨hcontext, hnumber ▸ UInt8.le_refl _⟩]
  -- The recursion carries a proof of what was read, so the match is split and not rewritten.
  split
  · next hread => simp [htake] at hread
  · next read behind hread =>
    rw [htake, Option.some_inj, Prod.mk.injEq] at hread
    obtain ⟨rfl, rfl⟩ := hread
    rw [if_pos hnumber]

theorem takeContext?_nil (number : UInt8) : takeContext? number [] = some (none, []) := by
  rw [takeContext?]
  rfl

/-- Reading on stops at an element of a greater number. -/
theorem takeContext?_of_lt {number : UInt8} (htag : isTag e.tag = true)
    (hnumber : number < tagNumber e.tag) (rest : Octets) :
    takeContext? number (e.encode ++ rest) = some (none, e.encode ++ rest) := by
  have hhead : (e.encode ++ rest).head? = some e.tag := rfl
  rw [takeContext?, hhead]
  dsimp only
  rw [if_pos htag, if_neg fun h => absurd h.2 (UInt8.not_le.mpr hnumber)]

/-- What is read stands in what was there, maybe behind elements that were passed over. -/
theorem infix_of_takeContext? {number : UInt8} {b : Octets}
    (h : takeContext? number b = some (some e, rest)) : e.content <:+: b := by
  fun_induction takeContext? number b with
  | case1 | case2 | case5 | case6 => cases h
  | case3 b t hhead htag hcontext read behind htake hnumber =>
    obtain ⟨rfl, rfl⟩ : read = e ∧ behind = rest := by simpa using h
    obtain ⟨-, -, rfl⟩ := take?_eq_some_iff.mp htake
    exact read.content_infix_encode.trans (List.prefix_append _ _).isInfix
  | case4 b t hhead htag hcontext read behind htake hnumber ih =>
    obtain ⟨-, -, rfl⟩ := take?_eq_some_iff.mp htake
    exact (ih h).trans (List.suffix_append _ _).isInfix

end KeyCustody.Der
