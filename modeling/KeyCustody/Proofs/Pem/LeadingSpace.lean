import KeyCustody.Proofs.Pem.Document

/-!
# White space in front of armor

In front of the opening boundary armor may have other lines, and white space is no exception to
that: it is passed over only if it ends where a line ends, and that is a line feed to the reader,
not a carriage return. Otherwise the opening is in the middle of a line, and the reader goes on to
look for another one. There is none, because in armor no hyphen but the last one of the opening has
a `B` behind it.

## Main definitions

* `Pem.OpensNothing` — which characters stand next to each other where there is no opening

## Main results

* `Pem.skipPreamble?_append` — white space, and the opening behind it
* `Pem.IsArmor.skipPreamble?_eq_none` — behind the opening of armor there is no other one
* `Pem.IsArmor.decode?_append` — what is read from armor with white space in front of it
-/

namespace KeyCustody.Pem

variable {blanks b text : Octets} {d : Document}

/-! ## White space -/

theorem isAsciiSpace_cases {x : UInt8} (h : isAsciiSpace x) :
    x ≠ 0 ∧ x ≠ 45 ∧ x ≠ 48 ∧ x < 128 := by
  simp only [isAsciiSpace, Bool.or_eq_true, beq_iff_eq] at h
  rcases h with (((rfl | rfl) | rfl) | rfl) | rfl <;> decide

/-- An opening does not begin with white space. -/
theorem not_opening_prefix_append (hblanks : ∀ x ∈ blanks, isAsciiSpace x) (hne : blanks ≠ [])
    (b : Octets) : ¬ opening <+: blanks ++ b := by
  cases blanks with
  | nil => exact absurd rfl hne
  | cons x blanks =>
    intro hopening
    have hx : (45 : UInt8) = x := (List.cons_prefix_cons.mp hopening).1
    exact (isAsciiSpace_cases (hblanks x List.mem_cons_self)).2.1 hx.symm

/-- An opening behind white space counts if the white space ends in a line feed. -/
theorem skipPreamble?_append (hblanks : ∀ x ∈ blanks, isAsciiSpace x) (hopening : opening <+: b) :
    skipPreamble? (blanks ++ b) =
      if blanks.getLast? = some lf then some b else skipPreamble? b := by
  induction blanks with
  | nil => rfl
  | cons x blanks ih =>
    obtain ⟨hx, hblanks⟩ := List.forall_mem_cons.mp hblanks
    rw [List.cons_append, skipPreamble?, if_neg (isAsciiSpace_cases hx).1]
    simp only [List.isPrefixOf_iff_prefix]
    by_cases hnil : blanks = []
    · subst hnil
      simp [hopening]
    · rw [if_neg fun h => not_opening_prefix_append hblanks hnil b h.2, ih hblanks,
        List.getLast?_cons_of_ne_nil hnil]

/-! ## Hyphens -/

/-- A character may stand behind another where no boundary is opened: a `B` does not stand behind a
hyphen. -/
def OpensNothing (x y : UInt8) : Prop := ¬ (x = 45 ∧ y = 66)

theorem isChain_append_of_notMem (hb : 45 ∉ b) (htext : List.IsChain OpensNothing text) :
    List.IsChain OpensNothing (b ++ text) := by
  induction b with
  | nil => exact htext
  | cons x b ih =>
    rw [List.mem_cons, not_or] at hb
    exact (ih hb.2).cons fun _ _ hpair => hb.1 hpair.1.symm

theorem isChain_dashes_append (htext : List.IsChain OpensNothing text)
    (hhead : text.head? ≠ some 66) : List.IsChain OpensNothing (dashes ++ text) := by
  have hdashes : List.IsChain OpensNothing dashes := by
    rw [dashes]
    simp [OpensNothing]
  refine List.isChain_append.mpr ⟨hdashes, htext, ?_⟩
  rintro x - y hy ⟨-, rfl⟩
  exact hhead hy

theorem IsLineEnd.hyphen_notMem {e : Octets} (h : IsLineEnd e) : 45 ∉ e := by
  rcases h with rfl | rfl | rfl <;> decide

theorem IsLineEnd.head?_append {e : Octets} (h : IsLineEnd e) (b : Octets) :
    (e ++ b).head? ≠ some 66 := by
  rcases h with rfl | rfl | rfl <;> simp [lf, cr]

theorem hyphen_notMem_of_isChain {x : UInt8} (h : List.IsChain MayFollow (x :: b)) : 45 ∉ b := by
  induction b generalizing x with
  | nil => exact List.not_mem_nil
  | cons y b ih =>
    obtain ⟨hfollow, hb⟩ := List.isChain_cons_cons.mp h
    rw [List.mem_cons, not_or]
    exact ⟨hfollow.ne_hyphen.symm, ih hb⟩

theorem IsFolded.hyphen_notMem {body lines : Octets} (h : IsFolded (Base64.encode body) lines) :
    45 ∉ lines := by
  intro hhyphen
  rcases h.mem_text 45 hhyphen with hcharacter | hend | hend
  · rcases Base64.isCharacter_of_mem_encode 45 hcharacter with hfill | hletter
    · exact absurd hfill (by decide)
    · exact absurd hletter (by decide)
  · exact absurd hend (by decide)
  · exact absurd hend (by decide)

/-- Nothing comes in front of armor that begins with the opening. -/
theorem IsPreamble.eq_nil {preamble : Octets} (h : IsPreamble preamble)
    (hopening : opening <+: preamble ++ b) : preamble = [] := by
  obtain ⟨lines, rfl, hlines⟩ := h
  cases lines with
  | nil => rfl
  | cons line lines =>
    rw [List.flatMap_cons, List.append_assoc, List.append_assoc] at hopening
    exact absurd (opening_prefix_line_iff.mp hopening) (hlines line List.mem_cons_self).2.2

/-- Behind the first five hyphens of armor no boundary is opened. -/
theorem IsArmor.isChain_drop (h : IsArmor d text) (hopening : opening <+: text) :
    List.IsChain OpensNothing (text.drop dashes.length) := by
  obtain ⟨hpreamble, hlabel, hopened, -, hfolded, hclosed, hending⟩ := h
  next preamble opened lines closed ending =>
  have hlabel : 45 ∉ d.label := hyphen_notMem_of_isChain hlabel
  have hnil : preamble = [] := by
    apply hpreamble.eq_nil
    simpa only [List.append_assoc] using hopening
  have hending : 45 ∉ ending ∧ ending.head? ≠ some 66 := by
    rcases hending with rfl | hending
    · exact ⟨List.not_mem_nil, by simp⟩
    · exact ⟨hending.hyphen_notMem, by simpa using hending.head?_append []⟩
  subst hnil
  -- The parts behind the hyphens of the opening, from the last one to the first.
  have hend : List.IsChain OpensNothing ending := by
    simpa using isChain_append_of_notMem hending.1 List.isChain_nil
  have hlast := isChain_append_of_notMem hlabel (isChain_dashes_append hend hending.2)
  have hclosing := isChain_dashes_append
    (isChain_append_of_notMem (b := [69, 78, 68, 32]) (by decide) hlast) (by simp)
  have hlines := isChain_append_of_notMem hfolded.hyphen_notMem
    (isChain_append_of_notMem hclosed.hyphen_notMem hclosing)
  have hopenedLines := isChain_dashes_append
    (isChain_append_of_notMem hopened.hyphen_notMem hlines) (hopened.head?_append _)
  have hfirst := isChain_append_of_notMem (b := [66, 69, 71, 73, 78, 32]) (by decide)
    (isChain_append_of_notMem hlabel hopenedLines)
  simpa [opening, closing, dashes] using hfirst

/-- Behind the opening that armor begins with there is no other one. -/
theorem IsArmor.skipPreamble?_eq_none (h : IsArmor d text) (hopening : opening <+: text) :
    skipPreamble? text = none := by
  cases hskip : skipPreamble? text with
  | none => rfl
  | some rest =>
    obtain ⟨line, more, -, -, rfl, hmore⟩ := exists_line_of_skipPreamble? hskip
    obtain ⟨hrest, preamble, -, rfl⟩ := isPreamble_of_fromOpening? hmore
    -- The last hyphen of a second opening and the `B` behind it are both behind the first hyphens.
    have hbehind : rest.drop 4 <:+ (line ++ lf :: (preamble ++ rest)).drop dashes.length := by
      apply List.suffix_of_suffix_length_le _ (List.drop_suffix _ _)
      · simp only [List.length_drop, List.length_append, List.length_cons,
          show dashes.length = 5 from rfl]
        omega
      · exact (List.drop_suffix 4 rest).trans ⟨line ++ lf :: preamble, by simp⟩
    have hpair : [45, 66] <+: rest.drop 4 := by
      obtain ⟨later, rfl⟩ := hrest
      exact ⟨[69, 71, 73, 78, 32] ++ later, rfl⟩
    have hchain :=
      List.IsChain.infix (h.isChain_drop hopening) (hpair.isInfix.trans hbehind.isInfix)
    exact absurd ⟨rfl, rfl⟩ (List.isChain_pair.mp hchain)

/-! ## Reading -/

theorem decode?_congr {other : Octets} (h : fromOpening? b = fromOpening? other) :
    decode? b = decode? other := by
  rw [decode?, decode?, h]

/-- White space in front of armor is passed over if there is none, or if it ends in a line feed.
Otherwise nothing is read. -/
theorem IsArmor.decode?_append (h : IsArmor d text) (hopening : opening <+: text)
    (hblanks : ∀ x ∈ blanks, isAsciiSpace x) :
    decode? (blanks ++ text) =
      if blanks = [] ∨ blanks.getLast? = some lf then some d else none := by
  by_cases hnil : blanks = []
  · rw [hnil, List.nil_append, if_pos (.inl rfl), h.decode?_eq]
  · have hskip : fromOpening? (blanks ++ text) =
        if blanks.getLast? = some lf then some text else none := by
      rw [fromOpening?_of_not_opening (not_opening_prefix_append hblanks hnil text),
        skipPreamble?_append hblanks hopening, h.skipPreamble?_eq_none hopening]
    by_cases hlast : blanks.getLast? = some lf
    · rw [if_pos hlast, ← fromOpening?_of_opening hopening] at hskip
      rw [decode?_congr hskip, if_pos (.inr hlast), h.decode?_eq]
    · rw [if_neg hlast] at hskip
      rw [if_neg (not_or.mpr ⟨hnil, hlast⟩), decode?, hskip]
      rfl

end KeyCustody.Pem
