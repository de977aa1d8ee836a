import Mathlib.Data.List.Basic
import Mathlib.Tactic.SplitIfs
import KeyCustody.Pem

/-!
# Lines of armored text

Characters are folded into lines of 64. Three kinds of end of line are in use, and where one stands
behind another a line feed is taken together with a carriage return in front of it. So lines can be
told apart only because no character of theirs is an end of line, and because the characters come in
whole groups of four: a last line cannot begin in the middle of an end of line.

## Main definitions

* `Pem.IsLineEnd` — the ends of lines
* `Pem.IsFolded` — text that folds characters into lines

## Main results

* `Pem.exists_of_joinLinesFrom`, `Pem.IsFolded.joinLinesFrom_eq` — folded text, and no other, is
  joined to its characters
* `Pem.IsFolded.exists_beforeLineEnd?` — an end of line behind folded text is told apart from it
* `Pem.IsFolded.exists_breakLinesFrom`, `Pem.exists_lines_of_breakLinesFrom` — broken characters
  are folded, into lines as full as can be
-/

namespace KeyCustody.Pem

/-! ## Ends of lines -/

/-- A line feed, a carriage return, or both in the order CR LF. -/
def IsLineEnd (e : Octets) : Prop := e = [lf] ∨ e = [cr] ∨ e = [cr, lf]

instance (e : Octets) : Decidable (IsLineEnd e) := inferInstanceAs (Decidable (_ ∨ _))

/-- Neither a line feed nor a carriage return. -/
def IsInline (x : UInt8) : Prop := x ≠ lf ∧ x ≠ cr

instance (x : UInt8) : Decidable (IsInline x) := inferInstanceAs (Decidable (_ ∧ _))

variable {b rest e : Octets}

theorem exists_of_afterLineEnd? (h : afterLineEnd? b = some rest) :
    ∃ e, IsLineEnd e ∧ b = e ++ rest := by
  match b, h with
  | x :: y :: b, h =>
    rw [afterLineEnd?] at h
    split_ifs at h with hcr hlf hlf
    · obtain rfl := Option.some_inj.mp h
      exact ⟨[cr, lf], .inr (.inr rfl), by rw [hcr, hlf]; rfl⟩
    · obtain rfl := Option.some_inj.mp h
      exact ⟨[cr], .inr (.inl rfl), by rw [hcr]; rfl⟩
    · obtain rfl := Option.some_inj.mp h
      exact ⟨[lf], .inl rfl, by rw [hlf]; rfl⟩
  | [x], h =>
    rw [afterLineEnd?] at h
    split_ifs at h with hend
    obtain rfl := Option.some_inj.mp h
    rcases hend with rfl | rfl
    · exact ⟨[cr], .inr (.inl rfl), rfl⟩
    · exact ⟨[lf], .inl rfl, rfl⟩

/-- An end of line is stripped off whole, unless a line feed behind it could belong to it. -/
theorem afterLineEnd?_append (h : IsLineEnd e) (hrest : rest.head? ≠ some lf) :
    afterLineEnd? (e ++ rest) = some rest := by
  rcases h with rfl | rfl | rfl
  · cases rest with
    | nil => rfl
    | cons y rest => simp [afterLineEnd?, show lf ≠ cr by decide]
  · cases rest with
    | nil => rfl
    | cons y rest =>
      have hy : y ≠ lf := by simpa using hrest
      simp [afterLineEnd?, hy]
  · cases rest with
    | nil => rfl
    | cons y rest => simp [afterLineEnd?]

theorem exists_of_beforeLineEndReversed? (h : beforeLineEndReversed? b = some rest) :
    ∃ e, IsLineEnd e ∧ b = e.reverse ++ rest := by
  match b, h with
  | x :: y :: b, h =>
    rw [beforeLineEndReversed?] at h
    split_ifs at h with hlf hcr hcr
    · obtain rfl := Option.some_inj.mp h
      exact ⟨[cr, lf], .inr (.inr rfl), by rw [hcr, hlf]; rfl⟩
    · obtain rfl := Option.some_inj.mp h
      exact ⟨[lf], .inl rfl, by rw [hlf]; rfl⟩
    · obtain rfl := Option.some_inj.mp h
      exact ⟨[cr], .inr (.inl rfl), by rw [hcr]; rfl⟩
  | [x], h =>
    rw [beforeLineEndReversed?] at h
    split_ifs at h with hend
    obtain rfl := Option.some_inj.mp h
    rcases hend with rfl | rfl
    · exact ⟨[lf], .inl rfl, rfl⟩
    · exact ⟨[cr], .inr (.inl rfl), rfl⟩

theorem exists_of_beforeLineEnd? (h : beforeLineEnd? b = some rest) :
    ∃ e, IsLineEnd e ∧ b = rest ++ e := by
  obtain ⟨r, hr, rfl⟩ := Option.map_eq_some_iff.mp h
  obtain ⟨e, he, hb⟩ := exists_of_beforeLineEndReversed? hr
  refine ⟨e, he, ?_⟩
  rw [← List.reverse_inj, hb, List.reverse_append, List.reverse_reverse]

/-- An end of line is stripped off whole, unless it is a line feed behind a carriage return. -/
theorem beforeLineEnd?_append (h : IsLineEnd e) (hrest : e = [lf] → rest.getLast? ≠ some cr) :
    beforeLineEnd? (rest ++ e) = some rest := by
  have hreversed : beforeLineEndReversed? (e.reverse ++ rest.reverse) = some rest.reverse := by
    rw [← List.head?_reverse] at hrest
    generalize rest.reverse = r at hrest
    rcases h with rfl | rfl | rfl
    · cases r with
      | nil => rfl
      | cons y r =>
        have hy : y ≠ cr := by simpa using hrest rfl
        simp [beforeLineEndReversed?, hy]
    · cases r with
      | nil => rfl
      | cons y r => simp [beforeLineEndReversed?, show cr ≠ lf by decide]
    · cases r with
      | nil => rfl
      | cons y r => simp [beforeLineEndReversed?]
  rw [beforeLineEnd?, List.reverse_append, hreversed, Option.map_some, List.reverse_reverse]

theorem exists_trimLineEnd (b : Octets) :
    ∃ e, (e = [] ∨ IsLineEnd e) ∧ b = trimLineEnd b ++ e := by
  rw [trimLineEnd]
  cases hb : beforeLineEnd? b with
  | none => exact ⟨[], .inl rfl, (List.append_nil b).symm⟩
  | some rest =>
    obtain ⟨e, he, h⟩ := exists_of_beforeLineEnd? hb
    exact ⟨e, .inr he, h⟩

theorem beforeLineEnd?_eq_none (h : ∀ x ∈ b.getLast?, IsInline x) : beforeLineEnd? b = none := by
  have hreversed : beforeLineEndReversed? b.reverse = none := by
    rw [← List.head?_reverse] at h
    generalize b.reverse = r at h
    match r, h with
    | [], h => rfl
    | [x], h =>
      have hx := h x rfl
      simp [beforeLineEndReversed?, hx.1, hx.2]
    | x :: y :: r, h =>
      have hx := h x rfl
      simp [beforeLineEndReversed?, hx.1, hx.2]
  rw [beforeLineEnd?, hreversed, Option.map_none]

/-- Text that does not end in an end of line is what is left of it with one behind. -/
theorem trimLineEnd_append (he : e = [] ∨ IsLineEnd e) (h : ∀ x ∈ b.getLast?, IsInline x) :
    trimLineEnd (b ++ e) = b := by
  rcases he with rfl | he
  · rw [List.append_nil, trimLineEnd, beforeLineEnd?_eq_none h, Option.getD_none]
  · have hlast : b.getLast? ≠ some cr := fun hcr => (h cr hcr).2 rfl
    rw [trimLineEnd, beforeLineEnd?_append he fun _ => hlast, Option.getD_some]

/-! ## The lines -/

/-- Characters in lines of 64: the last line may be shorter, and only behind it an end of line may
be missing. -/
inductive IsFolded : Octets → Octets → Prop
  | last {line e : Octets} : line.length ≤ 64 → (e = [] ∨ IsLineEnd e) → IsFolded line (line ++ e)
  | full {line e characters text : Octets} : line.length = 64 → IsLineEnd e →
      IsFolded characters text → IsFolded (line ++ characters) (line ++ e ++ text)

variable {gathered : Octets}

theorem exists_of_joinLinesFrom {characters : Octets}
    (h : joinLinesFrom gathered b = some characters) :
    ∃ more, characters = gathered.reverse ++ more ∧ IsFolded more b := by
  fun_induction joinLinesFrom gathered b with
  | case1 gathered b hmore =>
    -- No character is left behind the first 64, so this is the last line with what ends it.
    obtain rfl := Option.some_inj.mp h
    refine ⟨trimLineEnd b, rfl, ?_⟩
    obtain ⟨e, he, hb⟩ := exists_trimLineEnd b
    have hlength := congrArg List.length hb
    rw [List.length_append] at hlength
    rw [List.drop_eq_nil_iff] at hmore
    have hfolded := IsFolded.last (by omega : (trimLineEnd b).length ≤ 64) he
    rwa [← hb] at hfolded
  | case2 => cases h
  | case3 gathered b x later hmore rest hstep ih =>
    -- A full line, the end of line behind it, and the lines that follow.
    obtain ⟨more, rfl, hfolded⟩ := ih h
    obtain ⟨e, he, hlater⟩ := exists_of_afterLineEnd? hstep
    have hb : b = b.take 64 ++ e ++ rest := by
      rw [List.append_assoc, ← hlater, ← hmore, List.take_append_drop]
    have hlength : (b.take 64).length = 64 := by
      have hlong := congrArg List.length hmore
      rw [List.length_drop, List.length_cons] at hlong
      rw [List.length_take]
      omega
    have hfull := IsFolded.full hlength he hfolded
    rw [← hb] at hfull
    exact ⟨_, by simp, hfull⟩

theorem joinLinesFrom_of_length_le (h : b.length ≤ 64) :
    joinLinesFrom gathered b = some (gathered.reverse ++ trimLineEnd b) := by
  rw [joinLinesFrom]
  split
  · rfl
  · next x later hmore =>
    rw [List.drop_of_length_le h] at hmore
    cases hmore

theorem joinLinesFrom_of_length_eq {line more : Octets} (hline : line.length = 64)
    (hmore : afterLineEnd? more = some rest) :
    joinLinesFrom gathered (line ++ more) = joinLinesFrom (line.reverse ++ gathered) rest := by
  have hdrop : (line ++ more).drop 64 = more := List.drop_left' hline
  have htake : (line ++ more).take 64 = line := List.take_left' hline
  rw [joinLinesFrom]
  split
  · next hnil =>
    rw [hdrop] at hnil
    rw [hnil] at hmore
    cases hmore
  · next x later hcons =>
    rw [hdrop] at hcons
    split
    · next hnone =>
      rw [← hcons, hmore] at hnone
      cases hnone
    · next rest' hsome =>
      rw [← hcons, hmore] at hsome
      rw [← Option.some_inj.mp hsome, htake]

namespace IsFolded

variable {characters text : Octets}

theorem of_eq_nil (h : IsFolded characters text) (hnil : characters = []) :
    text = [] ∨ IsLineEnd text := by
  cases h with
  | last _ he =>
    subst hnil
    exact he
  | full hline _ _ =>
    rw [List.append_eq_nil_iff] at hnil
    rw [hnil.1] at hline
    cases hline

theorem eq_nil (h : IsFolded characters text) (hnil : text = []) : characters = [] := by
  cases h with
  | last _ _ => exact (List.append_eq_nil_iff.mp hnil).1
  | full hline _ _ =>
    rw [List.append_eq_nil_iff, List.append_eq_nil_iff] at hnil
    rw [hnil.1.1] at hline
    cases hline

theorem head?_eq (h : IsFolded characters text) (hne : characters ≠ []) :
    text.head? = characters.head? := by
  cases h with
  | last _ _ =>
    exact List.head?_append_of_ne_nil _ hne
  | full hline _ _ =>
    have hnil := List.ne_nil_of_length_eq_add_one hline
    rw [List.append_assoc, List.head?_append_of_ne_nil _ hnil, List.head?_append_of_ne_nil _ hnil]

/-- Folding adds ends of lines and nothing else. -/
theorem mem_text (h : IsFolded characters text) :
    ∀ x ∈ text, x ∈ characters ∨ x = lf ∨ x = cr := by
  have hend {e : Octets} (he : IsLineEnd e) : ∀ x ∈ e, x = lf ∨ x = cr := by
    rcases he with rfl | rfl | rfl <;> simp
  induction h with
  | last hline he =>
    intro x hx
    rcases List.mem_append.mp hx with hx | hx
    · exact .inl hx
    · rcases he with rfl | he
      · cases hx
      · exact .inr (hend he x hx)
  | full hline he hfolded ih =>
    intro x hx
    rcases List.mem_append.mp hx with hx | hx
    · rcases List.mem_append.mp hx with hx | hx
      · exact .inl (List.mem_append_left _ hx)
      · exact .inr (hend he x hx)
    · exact (ih x hx).imp_left (List.mem_append_right _)

/-- Where a carriage return is all that ends the last line, it may be missing. -/
theorem of_append_cr (h : IsFolded characters (text ++ [cr]))
    (hinline : ∀ x ∈ characters, IsInline x) : IsFolded characters text := by
  generalize htext : text ++ [cr] = b at h
  have hlast : b.getLast? = some cr := by rw [← htext, List.getLast?_concat]
  induction h generalizing text with
  | @last line e hline he =>
    -- Of the ways to end the line, only the bare carriage return ends in one.
    rcases he with rfl | rfl | rfl | rfl
    · rw [List.append_nil] at hlast
      exact absurd rfl (hinline cr (List.mem_of_getLast? hlast)).2
    · simp [show lf ≠ cr by decide] at hlast
    · obtain rfl := (List.append_inj' htext rfl).1
      have hfolded := IsFolded.last hline (.inl rfl)
      rwa [List.append_nil] at hfolded
    · simp [show lf ≠ cr by decide] at hlast
  | @full line e characters more hline he hfolded ih =>
    rcases more.eq_nil_or_concat' with rfl | ⟨front, x, rfl⟩
    · -- The end of line of the last full line is the carriage return.
      obtain rfl := hfolded.eq_nil rfl
      rw [List.append_nil] at htext hlast
      rcases he with rfl | rfl | rfl
      · simp [show lf ≠ cr by decide] at hlast
      · obtain rfl := (List.append_inj' htext rfl).1
        have hfolded := IsFolded.last (Nat.le_of_eq hline) (.inl rfl)
        rwa [List.append_nil] at hfolded ⊢
      · simp [show lf ≠ cr by decide] at hlast
    · rw [← List.append_assoc] at htext
      obtain ⟨rfl, hx⟩ := List.append_inj' htext rfl
      obtain rfl : cr = x := List.singleton_inj.mp hx
      have hmore := ih (fun y hy => hinline y (List.mem_append_right _ hy)) rfl
        List.getLast?_concat
      exact .full hline he hmore

/-- Lines with an end of line behind them are joined without it. Where a line feed stands behind a
carriage return the two are stripped off together. -/
theorem exists_beforeLineEnd? {e : Octets} (h : IsFolded characters text) (he : IsLineEnd e)
    (hinline : ∀ x ∈ characters, IsInline x) :
    ∃ lines, beforeLineEnd? (text ++ e) = some lines ∧ IsFolded characters lines := by
  by_cases hgreedy : e = [lf] ∧ text.getLast? = some cr
  · obtain ⟨rfl, hlast⟩ := hgreedy
    obtain ⟨lines, rfl⟩ := List.getLast?_eq_some_iff.mp hlast
    refine ⟨lines, ?_, h.of_append_cr hinline⟩
    rw [List.append_assoc]
    exact beforeLineEnd?_append (.inr (.inr rfl)) fun h => absurd h (by decide)
  · exact ⟨text, beforeLineEnd?_append he fun hlf hcr => hgreedy ⟨hlf, hcr⟩, h⟩

/-- What may be left of the text behind its last characters is dropped. -/
theorem joinLinesFrom_of_blank {e : Octets} (he : e = [] ∨ IsLineEnd e) (gathered : Octets) :
    joinLinesFrom gathered e = some gathered.reverse := by
  have hlength : e.length ≤ 64 := by
    rcases he with rfl | rfl | rfl | rfl <;> decide
  have htrim : trimLineEnd ([] ++ e) = [] := trimLineEnd_append he (by simp)
  rw [joinLinesFrom_of_length_le hlength, ← e.nil_append, htrim, List.append_nil]

theorem exists_afterLineEnd?_of_blank {e more : Octets} (he : IsLineEnd e)
    (hmore : more = [] ∨ IsLineEnd more) :
    ∃ rest, afterLineEnd? (e ++ more) = some rest ∧ (rest = [] ∨ IsLineEnd rest) := by
  rcases he with rfl | rfl | rfl <;> rcases hmore with rfl | rfl | rfl | rfl <;>
    exact ⟨_, rfl, by decide⟩

/-- Whole groups of characters are joined from their lines. -/
theorem joinLinesFrom_eq (h : IsFolded characters text) (hinline : ∀ x ∈ characters, IsInline x)
    (hfour : 4 ∣ characters.length) (gathered : Octets) :
    joinLinesFrom gathered text = some (gathered.reverse ++ characters) := by
  induction h generalizing gathered with
  | @last line e hline he =>
    have htrim : trimLineEnd (line ++ e) = line :=
      trimLineEnd_append he fun x hx => hinline x (List.mem_of_getLast? hx)
    by_cases hfull : line.length = 64 ∧ IsLineEnd e
    · -- A full line is taken off with its end, and nothing is left.
      have hend : afterLineEnd? (e ++ []) = some [] := afterLineEnd?_append hfull.2 (by simp)
      rw [List.append_nil] at hend
      rw [joinLinesFrom_of_length_eq hfull.1 hend, joinLinesFrom_of_blank (.inl rfl)]
      simp
    · -- A shorter line of whole groups has at most 60 characters, so its end is still among the
      -- first 64 and cannot be taken for one between lines.
      have hlength : (line ++ e).length ≤ 64 := by
        rw [List.length_append]
        rcases he with rfl | he
        · exact hline
        · have hshort : line.length ≠ 64 := fun hline => hfull ⟨hline, he⟩
          have hend : e.length ≤ 2 := by rcases he with rfl | rfl | rfl <;> decide
          omega
      rw [joinLinesFrom_of_length_le hlength, htrim]
  | @full line e characters text hline he hfolded ih =>
    have hinline' : ∀ x ∈ characters, IsInline x := fun x hx =>
      hinline x (List.mem_append_right _ hx)
    rw [List.append_assoc]
    cases characters with
    | nil =>
      -- There may be two ends of line behind the last characters, and they may be taken as one.
      obtain ⟨rest, hend, hrest⟩ := exists_afterLineEnd?_of_blank he (hfolded.of_eq_nil rfl)
      rw [joinLinesFrom_of_length_eq hline hend, joinLinesFrom_of_blank hrest]
      simp
    | cons x characters =>
      -- The next line begins with a character, so the end of this one is taken as it was written.
      have hhead : text.head? ≠ some lf := by
        rw [hfolded.head?_eq (List.cons_ne_nil _ _), List.head?_cons, ne_eq, Option.some_inj]
        exact (hinline' x List.mem_cons_self).1
      have hfour' : 4 ∣ (x :: characters).length := by
        rw [List.length_append, hline] at hfour
        omega
      rw [joinLinesFrom_of_length_eq hline (afterLineEnd?_append he hhead), ih hinline' hfour']
      simp

theorem exists_breakLinesFrom (gathered : Octets) (h : characters ≠ []) :
    ∃ lines, breakLinesFrom gathered characters = gathered.reverse ++ (lines ++ [lf]) ∧
      IsFolded characters lines := by
  fun_induction breakLinesFrom gathered characters with
  | case1 => exact absurd rfl h
  | case2 gathered x rest ih =>
    have hsplit : x :: rest = (x :: rest).take 64 ++ rest.drop 63 :=
      (List.take_append_drop 64 (x :: rest)).symm
    -- The last line is the one with nothing behind its 64 characters, full or not.
    by_cases hmore : rest.drop 63 = []
    · have hline : (x :: rest).take 64 = x :: rest := by
        rw [hmore, List.append_nil] at hsplit
        exact hsplit.symm
      refine ⟨x :: rest, ?_, ?_⟩
      · rw [hmore, hline, breakLinesFrom]
        simp
      · have hfolded := IsFolded.last (e := []) (List.length_take_le 64 (x :: rest)) (.inl rfl)
        rwa [hline, List.append_nil] at hfolded
    · obtain ⟨lines, hbreak, hfolded⟩ := ih hmore
      have hlength : ((x :: rest).take 64).length = 64 := by
        rw [List.drop_eq_nil_iff] at hmore
        rw [List.length_take, List.length_cons]
        omega
      refine ⟨(x :: rest).take 64 ++ [lf] ++ lines, by rw [hbreak]; simp, ?_⟩
      have hfull := IsFolded.full hlength (.inl rfl) hfolded
      rwa [← hsplit] at hfull

end IsFolded

/-- Characters are broken into full lines, but for the last one, and every line has an end. -/
theorem exists_lines_of_breakLinesFrom (gathered characters : Octets) :
    ∃ lines : List Octets, lines.flatten = characters ∧
      (∀ line ∈ lines.dropLast, line.length = 64) ∧
      (∀ line ∈ lines, line ≠ [] ∧ line.length ≤ 64) ∧
      breakLinesFrom gathered characters = gathered.reverse ++ lines.flatMap (· ++ [lf]) := by
  fun_induction breakLinesFrom gathered characters with
  | case1 gathered => exact ⟨[], rfl, by simp, by simp, by simp⟩
  | case2 gathered x rest ih =>
    obtain ⟨lines, hflatten, hfull, hshort, hbreak⟩ := ih
    refine ⟨(x :: rest).take 64 :: lines, ?_, ?_, ?_, ?_⟩
    · rw [List.flatten_cons, hflatten]
      exact List.take_append_drop 64 (x :: rest)
    · cases lines with
      | nil => simp
      | cons line lines =>
        -- There are more characters behind this line, so it has all of its 64.
        have hmore : rest.drop 63 ≠ [] := by
          rw [← hflatten, List.flatten_cons]
          exact List.append_ne_nil_of_left_ne_nil (hshort line List.mem_cons_self).1 _
        have hlength : ((x :: rest).take 64).length = 64 := by
          rw [ne_eq, List.drop_eq_nil_iff] at hmore
          rw [List.length_take, List.length_cons]
          omega
        rw [List.dropLast_cons_cons]
        exact List.forall_mem_cons.mpr ⟨hlength, hfull⟩
    · exact List.forall_mem_cons.mpr
        ⟨⟨List.cons_ne_nil _ _, List.length_take_le 64 (x :: rest)⟩, hshort⟩
    · rw [hbreak]
      simp

end KeyCustody.Pem
