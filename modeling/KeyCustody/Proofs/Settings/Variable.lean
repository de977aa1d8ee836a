import KeyCustody.Proofs.Text.Whitespace
import KeyCustody.Settings.Variable
import KeyCustody.Text.JsonString

/-!
# Texts of environment variables

The text of a variable stands for itself unless it is something else as a whole: a flag, a number,
a list, a level or a quoted text. White space around it is always lost. Whatever cannot be written
as it is can be written between quotes, with the escapes of JSON and one more.

## Main definitions

* `Variable.IsEnclosed`, `Variable.IsLiteral` — texts that do not stand for themselves, and texts
  that do
* `Variable.quote` — a text between quotes

## Main results

* `Variable.value_eq_text_self_iff` — the texts that stand for themselves
* `Variable.value_quote` — a text between quotes is that text
-/

namespace KeyCustody.Variable

open Whitespace (IsTrimmed)

variable {s rest gathered : List Char} {t w : String} {v : ConfigValue} {depth : Nat}

/-- What begins a quoted text, a list or a level. -/
def openers : List Char := ['"', '[', '{']

/-- A quoted text, a list in brackets or a level in braces as a whole. -/
def IsEnclosed (s : List Char) : Prop :=
  (∃ c ∈ openers, s.head? = some c) ∧ ∃ v, valueWithin (s.length + 1) s = some (v, [])

/-- A text that is nothing but itself. -/
structure IsLiteral (w : String) : Prop where
  isTrimmed : IsTrimmed w.toList
  not_flag : w ≠ "true" ∧ w ≠ "false"
  not_number : isWhole w.toList = false ∧ isPointed w.toList = false
  not_enclosed : ¬ IsEnclosed w.toList

/-! ## White space -/

theorem skip_eq_self (h : IsTrimmed s) : skip s = s := by
  cases s with
  | nil => rfl
  | cons c rest =>
    refine List.dropWhile_cons_of_neg fun hc => ?_
    have hwhite := Whitespace.isUnicode_of_isAscii hc
    rw [h.1 c rfl] at hwhite
    cases hwhite

/-- Nothing but white space is at the end of a trimmed text only if nothing is. -/
theorem eq_nil_of_skip (h : IsTrimmed s) (hsuffix : rest <:+ s) (hskip : skip rest = []) :
    rest = [] := by
  by_contra hne
  have hwhite := Whitespace.isUnicode_of_isAscii
    (List.dropWhile_eq_nil_iff.mp hskip _ (List.getLast_mem hne))
  obtain ⟨before, rfl⟩ := hsuffix
  have hlast : rest.getLast hne ∈ (before ++ rest).getLast? := by
    rw [List.getLast?_append_of_ne_nil _ hne]
    exact List.getLast?_eq_getLast_of_ne_nil hne
  rw [h.2 _ hlast] at hwhite
  cases hwhite

/-! ## Quoted texts -/

/-- A quoted text is shorter than its written form. -/
theorem length_of_quotedFrom (h : quotedFrom gathered s = some (t, rest)) :
    t.length + rest.length < gathered.length + s.length := by
  fun_induction quotedFrom gathered s with
  | case2 =>
    cases h
    simp
  | case3 _ _ _ _ _ hlater ih =>
    have hlength := ih h
    rw [List.length_cons] at hlength ⊢
    omega
  | case6 _ _ _ _ _ _ ih =>
    have hlength := ih h
    rw [List.length_cons] at hlength ⊢
    omega
  | case1 | case4 | case5 | case7 => cases h

/-! ## Readings -/

/-- What a text can be as a whole. -/
inductive IsReading : List Char → ConfigValue → Prop
  | true : IsReading ['t', 'r', 'u', 'e'] (.flag true)
  | false : IsReading ['f', 'a', 'l', 's', 'e'] (.flag false)
  | level (rest : List Char) (l : ConfigValue.Fields) : IsReading ('{' :: rest) (.level l)
  | list (rest : List Char) (l : List ConfigValue) : IsReading ('[' :: rest) (.list l)
  | quoted (rest : List Char) (t : String) : t.length < rest.length →
    IsReading ('"' :: rest) (.text t)
  | plain (s : List Char) : (∀ c ∈ openers, s.head? ≠ some c) → s ≠ ['t', 'r', 'u', 'e'] →
    s ≠ ['f', 'a', 'l', 's', 'e'] → IsReading s (plain s)

theorem isReading_of_valueWithin (hs : IsTrimmed s)
    (h : valueWithin (depth + 1) s = some (v, [])) : IsReading s v := by
  rw [valueWithin] at h
  dsimp only at h
  rw [skip_eq_self hs] at h
  split at h <;> obtain ⟨⟨read, rest⟩, hread, heq⟩ := Option.bind_eq_some_iff.mp h <;>
    obtain ⟨rfl, hskip⟩ := Prod.mk.inj (Option.some.inj heq)
  -- Only white space may follow what is read, and at the end of a trimmed text there is none.
  · cases hread
    obtain rfl := eq_nil_of_skip hs (List.suffix_append ['t', 'r', 'u', 'e'] _) hskip
    exact .true
  · cases hread
    obtain rfl := eq_nil_of_skip hs (List.suffix_append ['f', 'a', 'l', 's', 'e'] _) hskip
    exact .false
  · obtain ⟨⟨l, _⟩, -, heq⟩ := Option.map_eq_some_iff.mp hread
    cases heq
    exact .level _ l
  · obtain ⟨⟨l, _⟩, -, heq⟩ := Option.map_eq_some_iff.mp hread
    cases heq
    exact .list _ l
  · obtain ⟨⟨t, _⟩, hquoted, heq⟩ := Option.map_eq_some_iff.mp hread
    cases heq
    have hlength := length_of_quotedFrom hquoted
    exact .quoted _ t (by simp at hlength; omega)
  · next htrue hfalse hlevel hlist hquoted =>
    cases hread
    -- Nothing is left, so the text has no comma, brace or bracket and was read in full.
    have hrest := eq_nil_of_skip hs (List.dropWhile_suffix _) hskip
    rw [List.takeWhile_eq_self_iff.mpr (List.dropWhile_eq_nil_iff.mp hrest)]
    refine .plain s (fun c hc hhead => ?_) (fun h => htrue [] h) fun h => hfalse [] h
    obtain ⟨rest, rfl⟩ := List.head?_eq_some_iff.mp hhead
    simp only [openers, List.mem_cons, List.not_mem_nil, or_false] at hc
    rcases hc with rfl | rfl | rfl
    · exact hquoted rest rfl
    · exact hlist rest rfl
    · exact hlevel rest rfl

/-- A text is read as a whole, or else it is what is left of it without white space. -/
theorem value_cases (w : String) :
    IsReading (Whitespace.trim w.toList) (value w) ∧
        valueWithin ((Whitespace.trim w.toList).length + 1) (Whitespace.trim w.toList) =
          some (value w, []) ∨
      (∀ v, valueWithin ((Whitespace.trim w.toList).length + 1) (Whitespace.trim w.toList) ≠
          some (v, [])) ∧
        value w = .text (String.ofList (Whitespace.trim w.toList)) := by
  rw [value]
  split
  · next v hv => exact .inl ⟨isReading_of_valueWithin (Whitespace.isTrimmed_trim _) hv, hv⟩
  · next hne => exact .inr ⟨fun v hv => hne v hv, rfl⟩

/-! ## Numbers -/

/-- The characters of numbers. -/
def isNumeral (c : Char) : Bool := c.isDigit || ['+', '-', '.', 'e', 'E'].contains c

theorem isDigit_of_digitValue? {c : Char} {d : Nat} (h : Reader.digitValue? c = some d)
    (hd : d < 10) : c.isDigit = true := by
  rw [Reader.digitValue?] at h
  split_ifs at h with hdigit hlower hupper
  · simpa [Char.isDigit, Char.le_def] using hdigit
  · have hcode : 97 ≤ c.toNat := hlower.1
    cases h
    omega
  · have hcode : 65 ≤ c.toNat := hupper.1
    cases h
    omega

theorem isDigit_of_naturalFrom {value n : Nat} (h : Reader.naturalFrom 10 value s = some n) :
    ∀ c ∈ s, c.isDigit = true := by
  fun_induction Reader.naturalFrom 10 value s with
  | case1 => exact List.forall_mem_nil _
  | case2 value c rest d hdigit hd ih =>
    exact List.forall_mem_cons.mpr ⟨isDigit_of_digitValue? hdigit hd, ih h⟩
  | case3 | case4 => cases h

theorem isDigit_of_within {limit : Nat} (h : isWhole.within limit s = true) :
    ∀ c ∈ s, c.isDigit = true := by
  rw [isWhole.within] at h
  split at h
  · next n hn =>
    rw [Reader.natural?] at hn
    split_ifs at hn
    exact isDigit_of_naturalFrom hn
  · cases h

theorem isNumeral_of_isDigit (h : ∀ c ∈ s, c.isDigit = true) : ∀ c ∈ s, isNumeral c = true :=
  fun c hc => by rw [isNumeral, h c hc, Bool.true_or]

/-- What is behind the sign of a number, if it has one. -/
def unsigned : List Char → List Char
  | '+' :: r => r
  | '-' :: r => r
  | r => r

theorem isNumeral_of_unsigned (h : ∀ c ∈ unsigned s, isNumeral c = true) :
    ∀ c ∈ s, isNumeral c = true := by
  rw [unsigned.eq_def] at h
  split at h
  · exact List.forall_mem_cons.mpr ⟨by decide, h⟩
  · exact List.forall_mem_cons.mpr ⟨by decide, h⟩
  · exact h

theorem isNumeral_of_isWhole (h : isWhole s = true) : ∀ c ∈ s, isNumeral c = true := by
  rw [isWhole.eq_def] at h
  split at h
  · exact List.forall_mem_cons.mpr ⟨by decide, isNumeral_of_isDigit (isDigit_of_within h)⟩
  · exact List.forall_mem_cons.mpr ⟨by decide, isNumeral_of_isDigit (isDigit_of_within h)⟩
  · exact isNumeral_of_isDigit (isDigit_of_within h)

theorem isNumeral_of_isExponent (h : isExponent s = true) : ∀ c ∈ s, isNumeral c = true := by
  cases s with
  | nil => exact List.forall_mem_nil _
  | cons c rest =>
    simp only [isExponent.eq_def, Bool.and_eq_true] at h
    obtain ⟨⟨hletter, -⟩, hdigits⟩ := h
    refine List.forall_mem_cons.mpr ⟨?_, isNumeral_of_unsigned
      (isNumeral_of_isDigit (List.all_eq_true.mp hdigits))⟩
    rcases Bool.or_eq_true_iff.mp hletter with hc | hc
    · rw [beq_iff_eq.mp hc]
      decide
    · rw [beq_iff_eq.mp hc]
      decide

/-- Digits may stand in front of the rest of a number. -/
theorem isNumeral_of_dropWhile (h : ∀ c ∈ s.dropWhile Char.isDigit, isNumeral c = true) :
    ∀ c ∈ s, isNumeral c = true := by
  intro c hc
  rw [← s.takeWhile_append_dropWhile, List.mem_append] at hc
  rcases hc with hc | hc
  · exact isNumeral_of_isDigit (fun _ => List.mem_takeWhile_imp) c hc
  · exact h c hc

theorem isNumeral_of_isPointed (h : isPointed s = true) : ∀ c ∈ s, isNumeral c = true := by
  rw [isPointed.eq_def] at h
  dsimp only at h
  split at h
  · next fraction hfraction =>
    have hpoint : (unsigned s).dropWhile Char.isDigit = '.' :: fraction := hfraction
    obtain ⟨-, hexponent⟩ := Bool.and_eq_true_iff.mp h
    refine isNumeral_of_unsigned (isNumeral_of_dropWhile ?_)
    rw [hpoint]
    exact List.forall_mem_cons.mpr ⟨by decide,
      isNumeral_of_dropWhile (isNumeral_of_isExponent hexponent)⟩
  · cases h

theorem valueWithin_of_isNumeral (h : ∀ c ∈ s, isNumeral c = true) (depth : Nat) :
    valueWithin (depth + 1) s = some (plain s, []) := by
  have hcontent : ∀ c ∈ s, isContent c = true := by
    intro c hc
    have hnumeral := h c hc
    simp only [isContent, bne_iff_ne, Bool.and_eq_true]
    refine ⟨⟨⟨⟨?_, ?_⟩, ?_⟩, ?_⟩, ?_⟩ <;>
      · rintro rfl
        exact absurd hnumeral (by decide)
  have hskip : skip s = s := by
    cases s with
    | nil => rfl
    | cons c rest =>
      have hnumeral := h c List.mem_cons_self
      refine List.dropWhile_cons_of_neg fun hblank => ?_
      simp only [Whitespace.isAscii, Bool.or_eq_true, beq_iff_eq] at hblank
      rcases hblank with (((rfl | rfl) | rfl) | rfl) | hblank
      · exact absurd hnumeral (by decide)
      · exact absurd hnumeral (by decide)
      · exact absurd hnumeral (by decide)
      · exact absurd hnumeral (by decide)
      · obtain rfl : c = Char.ofNat 0x0c := by rw [← hblank, Char.ofNat_toNat]
        exact absurd hnumeral (by decide)
  rw [valueWithin]
  dsimp only
  rw [hskip]
  split
  · exact absurd (h 't' (List.mem_cons_self ..)) (by decide)
  · exact absurd (h 'f' (List.mem_cons_self ..)) (by decide)
  · exact absurd (h '{' (List.mem_cons_self ..)) (by decide)
  · exact absurd (h '[' (List.mem_cons_self ..)) (by decide)
  · exact absurd (h '"' (List.mem_cons_self ..)) (by decide)
  · rw [List.takeWhile_eq_self_iff.mpr hcontent, List.dropWhile_eq_nil_iff.mpr hcontent]
    rfl

/-! ## Texts that stand for themselves -/

theorem plain_eq_text_iff : plain s = .text t ↔
    (isWhole (Whitespace.trim s) = false ∧ isPointed (Whitespace.trim s) = false) ∧
      t = String.ofList (Whitespace.trim s) := by
  rw [plain, ← Bool.or_eq_false_iff]
  split_ifs with h
  · simp [h]
  · rw [ConfigValue.text.injEq, eq_comm (b := t), and_iff_right (Bool.eq_false_iff.mpr h)]

/-- A text that is read as a text is a quoted one, or nothing else as a whole. -/
theorem text_cases (h : IsReading s (.text t)) : t.length < s.length ∧ s.head? = some '"' ∨
    (∀ c ∈ openers, s.head? ≠ some c) ∧ plain s = .text t := by
  generalize hv : ConfigValue.text t = v at h
  cases h with
  | true | false | level | list => cases hv
  | quoted rest t hlength =>
    cases hv
    exact .inl ⟨Nat.lt_succ_of_lt hlength, rfl⟩
  | plain s hhead => exact .inr ⟨hhead, rfl⟩

theorem value_of_valueWithin (hw : IsTrimmed w.toList)
    (h : valueWithin (w.toList.length + 1) w.toList = some (v, [])) : value w = v := by
  rw [value, Whitespace.trim_eq_self_iff.mpr hw, h]

/-- White space around a text is lost. -/
theorem isTrimmed_of_value_eq (h : value w = .text w) : IsTrimmed w.toList := by
  have hlength : (Whitespace.trim w.toList).length ≤ w.length :=
    (Whitespace.trim_sublist _).length_le
  rw [← Whitespace.trim_eq_self_iff]
  rcases value_cases w with ⟨hreading, -⟩ | ⟨-, htext⟩
  · rw [h] at hreading
    rcases text_cases hreading with ⟨hlt, -⟩ | ⟨-, hplain⟩
    · omega
    · obtain ⟨-, hw⟩ := plain_eq_text_iff.mp hplain
      rw [Whitespace.trim_trim] at hw
      rw [← String.toList_ofList (l := Whitespace.trim w.toList), ← hw]
  · rw [h] at htext
    rw [← String.toList_ofList (l := Whitespace.trim w.toList), ← ConfigValue.text.inj htext]

theorem not_number_of_value_eq (h : value w = .text w) :
    isWhole w.toList = false ∧ isPointed w.toList = false := by
  have hw := isTrimmed_of_value_eq h
  by_contra hnumber
  have hnumeral : ∀ c ∈ w.toList, isNumeral c = true := by
    by_cases hwhole : isWhole w.toList = true
    · exact isNumeral_of_isWhole hwhole
    · exact isNumeral_of_isPointed (by simpa [hwhole] using hnumber)
  have hplain : plain w.toList = .text w :=
    (value_of_valueWithin hw (valueWithin_of_isNumeral hnumeral _)).symm.trans h
  rw [plain_eq_text_iff, Whitespace.trim_eq_self_iff.mpr hw] at hplain
  exact hnumber hplain.1

theorem not_isEnclosed_of_value_eq (h : value w = .text w) : ¬ IsEnclosed w.toList := by
  rintro ⟨⟨c, hc, hhead⟩, v, hv⟩
  have hw := isTrimmed_of_value_eq h
  obtain rfl : .text w = v := h.symm.trans (value_of_valueWithin hw hv)
  rcases text_cases (isReading_of_valueWithin hw hv) with ⟨hlt, -⟩ | ⟨hne, -⟩
  · exact absurd hlt (lt_irrefl _)
  · exact hne c hc hhead

/-- Just those texts stand for themselves that are nothing else. -/
theorem value_eq_text_self_iff : value w = .text w ↔ IsLiteral w := by
  constructor
  · intro h
    refine ⟨isTrimmed_of_value_eq h, ⟨?_, ?_⟩, not_number_of_value_eq h,
      not_isEnclosed_of_value_eq h⟩ <;>
    · rintro rfl
      cases h
  · intro h
    have hw := Whitespace.trim_eq_self_iff.mpr h.isTrimmed
    rcases value_cases w with ⟨hreading, hwhole⟩ | ⟨-, htext⟩
    · rw [hw] at hreading hwhole
      have hnot : ∀ c ∈ openers, w.toList.head? ≠ some c := fun c hc hhead =>
        h.not_enclosed ⟨⟨c, hc, hhead⟩, _, hwhole⟩
      generalize hs : w.toList = s at hreading hnot
      generalize value w = v at hreading
      cases hreading with
      | true => exact absurd (String.toList_inj.mp hs) h.not_flag.1
      | false => exact absurd (String.toList_inj.mp hs) h.not_flag.2
      | level => exact absurd rfl (hnot '{' (by decide))
      | list => exact absurd rfl (hnot '[' (by decide))
      | quoted => exact absurd rfl (hnot '"' (by decide))
      | plain s =>
        rw [plain_eq_text_iff, ← hs, hw, String.ofList_toList]
        exact ⟨h.not_number, rfl⟩
    · rw [htext, hw, String.ofList_toList]

/-! ## Texts between quotes -/

/-- The written form of a character: the one of JSON, except for the one control character that
JSON leaves as it is. -/
def escape (c : Char) : List Char :=
  if c.toNat = 0x7f then ['\\', 'u', '0', '0', '7', 'f'] else JsonString.escape c

/-- A text between quotes. -/
def quote (t : String) : String := String.ofList ('"' :: (t.toList.flatMap escape ++ ['"']))

theorem codePoint_of_code {c : Char} (h : c.toNat < 0x80) (rest : List Char) :
    Reader.escape? ('u' :: '0' :: '0' :: Hex.digit (c.toNat / 16) :: Hex.digit (c.toNat % 16) ::
      rest) = some (c, rest) := by
  have hdigits : ∀ n < 0x80, Reader.natural? 16
      ['0', '0', Hex.digit (n / 16), Hex.digit (n % 16)] = some n := by decide
  have hvalid : c.toNat.isValidChar := c.valid
  rw [Reader.escape?, Reader.escape?.codePoint, guard, if_pos (by simp)]
  simp [hdigits c.toNat h, Reader.codePoint?, hvalid]

/-- A character is written as itself, or as something that is read as it behind a backslash. -/
theorem escape_cases (c : Char) :
    escape c = [c] ∧ isQuotable c = true ∧ c ≠ '"' ∧ c ≠ '\\' ∨
      ∃ body, escape c = '\\' :: body ∧ ∀ rest, Reader.escape? (body ++ rest) = some (c, rest) := by
  rw [escape, JsonString.escape]
  split_ifs with hdelete hplain hline hreturn htab hback hform hcontrol
  · obtain rfl : c = Char.ofNat 0x7f := by rw [← hdelete, Char.ofNat_toNat]
    exact .inr ⟨_, rfl, fun rest => rfl⟩
  · rcases hplain with rfl | rfl <;> exact .inr ⟨_, rfl, fun rest => rfl⟩
  · exact .inr ⟨_, rfl, fun rest => hline ▸ rfl⟩
  · exact .inr ⟨_, rfl, fun rest => hreturn ▸ rfl⟩
  · exact .inr ⟨_, rfl, fun rest => htab ▸ rfl⟩
  · obtain rfl : c = Char.ofNat 0x08 := by rw [← hback, Char.ofNat_toNat]
    exact .inr ⟨_, rfl, fun rest => rfl⟩
  · obtain rfl : c = Char.ofNat 0x0c := by rw [← hform, Char.ofNat_toNat]
    exact .inr ⟨_, rfl, fun rest => rfl⟩
  · exact .inr ⟨_, rfl, codePoint_of_code (by omega)⟩
  · refine .inl ⟨rfl, ?_, fun h => hplain (.inl h), fun h => hplain (.inr h)⟩
    have hcode : 0x20 ≤ c.toNat := not_lt.mp hcontrol
    simp [isQuotable, hcode, hdelete]

theorem quotedFrom_escape (gathered : List Char) (c : Char) (rest : List Char) :
    quotedFrom gathered (escape c ++ rest) = quotedFrom (c :: gathered) rest := by
  rcases escape_cases c with ⟨hself, hquotable, hquote, hslash⟩ | ⟨body, hbody, hread⟩
  · rw [hself, List.singleton_append, quotedFrom.eq_4 _ _ _ hquote hslash, if_pos hquotable]
  · rw [hbody, List.cons_append, quotedFrom, hread rest]
    simp

theorem quotedFrom_flatMap_escape (gathered s rest : List Char) :
    quotedFrom gathered (s.flatMap escape ++ '"' :: rest) =
      some (String.ofList (gathered.reverse ++ s), rest) := by
  induction s generalizing gathered with
  | nil => simp [quotedFrom]
  | cons c s ih => simp [List.flatMap_cons, List.append_assoc, quotedFrom_escape, ih]

/-- Every text can be given, between quotes if it does not stand for itself. -/
theorem value_quote (t : String) : value (quote t) = .text t := by
  have hquote : (quote t).toList = '"' :: (t.toList.flatMap escape ++ ['"']) :=
    String.toList_ofList
  have htrimmed : IsTrimmed (quote t).toList := by
    rw [hquote]
    constructor
    · rintro c ⟨⟩
      decide
    · rw [← List.cons_append, List.getLast?_concat]
      rintro c ⟨⟩
      decide
  refine value_of_valueWithin htrimmed ?_
  rw [valueWithin]
  dsimp only
  rw [skip_eq_self htrimmed, hquote]
  simp [quotedFrom_flatMap_escape, skip]

end KeyCustody.Variable
