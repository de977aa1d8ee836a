import Mathlib.Data.List.TakeWhile
import KeyCustody.Proofs.Pem.Lines
import KeyCustody.Proofs.Text.Base64

/-!
# The grammar of armored documents

Reading an armored document takes off one part after the other. Here is the text as a whole: lines
of other text, the two boundaries, and between them the base64 characters of one element, folded
into lines. The reader accepts exactly these texts.

## Main definitions

* `Pem.IsPreamble`, `Pem.IsLabel` — what stands in front of a document, and in its boundaries
* `Pem.IsArmor`, `Pem.IsCanonical` — the armored documents, and the one in full lines

## Main results

* `Pem.decode?_eq_some_iff` — the armored documents are read, and nothing else
* `Pem.IsArmor.zero_notMem` — no zero octet is in armor
* `Pem.isArmor_encode`, `Pem.lt_of_mem_encode` — the canonical form is an armored document in ASCII
* `Pem.isArmored_iff` — what is taken for an armored document
-/

namespace KeyCustody.Pem

variable {b rest : Octets}

/-! ## In front of the opening boundary -/

/-- Whole lines without zero octets, none of which begins like an opening boundary. -/
def IsPreamble (b : Octets) : Prop :=
  ∃ lines : List Octets, b = lines.flatMap (· ++ [lf]) ∧
    ∀ line ∈ lines, lf ∉ line ∧ 0 ∉ line ∧ ¬ opening <+: line

/-- The opening has no end of line in it, so it stands in one line. -/
theorem opening_prefix_line_iff {line more : Octets} :
    opening <+: line ++ lf :: more ↔ opening <+: line := by
  constructor
  · intro h
    by_cases hlength : opening.length ≤ line.length
    · exact (List.isPrefix_append_of_length hlength).mp h
    · -- Otherwise the line feed would be a character of the opening.
      have hfeed : lf ∈ opening := by
        have hstart : line ++ [lf] <+: opening := by
          apply List.prefix_of_prefix_length_le _ h
          · rw [List.length_append, List.length_singleton]
            omega
          · exact ⟨more, by simp⟩
        exact hstart.subset (by simp)
      exact absurd hfeed (by decide)
  · exact fun h => h.trans (List.prefix_append _ _)

theorem fromOpening?_of_opening (h : opening <+: b) : fromOpening? b = some b :=
  if_pos (List.isPrefixOf_iff_prefix.mpr h)

theorem fromOpening?_of_not_opening (h : ¬ opening <+: b) : fromOpening? b = skipPreamble? b :=
  if_neg (mt List.isPrefixOf_iff_prefix.mp h)

theorem skipPreamble?_line {line more : Octets} (hlf : lf ∉ line) (hzero : 0 ∉ line) :
    skipPreamble? (line ++ lf :: more) = fromOpening? more := by
  induction line with
  | nil =>
    rw [List.nil_append, skipPreamble?, if_neg (by decide), fromOpening?]
    simp
  | cons x line ih =>
    rw [List.mem_cons, not_or] at hlf hzero
    rw [List.cons_append, skipPreamble?, if_neg (Ne.symm hzero.1), if_neg (fun h => hlf.1 h.1.symm)]
    exact ih hlf.2 hzero.2

theorem exists_line_of_skipPreamble? (h : skipPreamble? b = some rest) :
    ∃ line more, lf ∉ line ∧ 0 ∉ line ∧ b = line ++ lf :: more ∧ fromOpening? more = some rest := by
  induction b with
  | nil => cases h
  | cons x b ih =>
    rw [skipPreamble?] at h
    split_ifs at h with hzero hopening
    · obtain ⟨rfl, hstart⟩ := hopening
      refine ⟨[], b, List.not_mem_nil, List.not_mem_nil, rfl, ?_⟩
      rw [fromOpening?, if_pos hstart, h]
    · by_cases hx : x = lf
      · subst hx
        refine ⟨[], b, List.not_mem_nil, List.not_mem_nil, rfl, ?_⟩
        rw [fromOpening?, if_neg fun hstart => hopening ⟨rfl, hstart⟩, h]
      · obtain ⟨line, more, hlf, hline, rfl, hmore⟩ := ih h
        refine ⟨x :: line, more, ?_, ?_, rfl, hmore⟩
        · simp [Ne.symm hx, hlf]
        · simp [Ne.symm hzero, hline]

/-- What comes before the first opening is whole lines. -/
theorem isPreamble_of_fromOpening? (h : fromOpening? b = some rest) :
    opening <+: rest ∧ ∃ preamble, IsPreamble preamble ∧ b = preamble ++ rest := by
  -- The reader goes octet by octet; the induction goes line by line, on the length of the text.
  induction hlength : b.length using Nat.strongRecOn generalizing b with
  | ind n ih =>
    by_cases hstart : opening <+: b
    · rw [fromOpening?_of_opening hstart] at h
      obtain rfl := Option.some_inj.mp h
      exact ⟨hstart, [], ⟨[], rfl, fun _ hline => absurd hline List.not_mem_nil⟩, rfl⟩
    · rw [fromOpening?_of_not_opening hstart] at h
      obtain ⟨line, more, hlf, hzero, rfl, hmore⟩ := exists_line_of_skipPreamble? h
      have hshorter : more.length < n := by
        rw [← hlength, List.length_append, List.length_cons]
        omega
      obtain ⟨hopening, _, ⟨lines, rfl, hlines⟩, rfl⟩ := ih more.length hshorter hmore rfl
      refine ⟨hopening, _, ⟨line :: lines, rfl, ?_⟩, by simp⟩
      rw [List.forall_mem_cons]
      exact ⟨⟨hlf, hzero, mt opening_prefix_line_iff.mpr hstart⟩, hlines⟩

/-- Whole lines are skipped up to the first opening. -/
theorem fromOpening?_append {preamble : Octets} (hpreamble : IsPreamble preamble)
    (hopening : opening <+: rest) : fromOpening? (preamble ++ rest) = some rest := by
  obtain ⟨lines, rfl, hlines⟩ := hpreamble
  induction lines with
  | nil => exact fromOpening?_of_opening hopening
  | cons line lines ih =>
    rw [List.forall_mem_cons] at hlines
    obtain ⟨⟨hlf, hzero, hline⟩, hlines⟩ := hlines
    rw [List.flatMap_cons, List.append_assoc, List.append_assoc, List.singleton_append,
      fromOpening?_of_not_opening (mt opening_prefix_line_iff.mp hline),
      skipPreamble?_line hlf hzero]
    exact ih hlines

/-! ## Labels -/

/-- Which characters of a label stand next to each other: a blank only behind a visible one. -/
def MayFollow (x y : UInt8) : Prop := isLabelCharacter y ∨ isBlank y ∧ ¬ isBlank x

instance (x y : UInt8) : Decidable (MayFollow x y) := inferInstanceAs (Decidable (_ ∨ _))

/-- Visible characters with single blanks behind them. The start counts as a blank. -/
def IsLabel (label : Octets) : Prop := List.IsChain MayFollow (32 :: label)

instance (label : Octets) : Decidable (IsLabel label) :=
  inferInstanceAs (Decidable (List.IsChain _ _))

variable {gathered label : Octets}

theorem MayFollow.ne_hyphen {x y : UInt8} (h : MayFollow x y) : y ≠ 45 := by
  rintro rfl
  rcases h with hvisible | ⟨hblank, -⟩
  · exact absurd hvisible (by decide)
  · exact absurd hblank (by decide)

theorem MayFollow.bounds {x y : UInt8} (h : MayFollow x y) : 0 < y ∧ y < 128 := by
  rcases h with hvisible | ⟨hblank, -⟩
  · simp only [isLabelCharacter, Bool.and_eq_true, decide_eq_true_eq, UInt8.le_iff_toNat_le,
      UInt8.reduceToNat] at hvisible
    simp only [UInt8.lt_iff_toNat_lt, UInt8.reduceToNat]
    omega
  · simp only [isBlank, Bool.or_eq_true, beq_iff_eq] at hblank
    rcases hblank with rfl | rfl <;> decide

theorem bounds_of_isChain {x : UInt8} (h : List.IsChain MayFollow (x :: label)) :
    ∀ y ∈ label, 0 < y ∧ y < 128 := by
  induction label generalizing x with
  | nil => exact fun _ hy => absurd hy List.not_mem_nil
  | cons y label ih =>
    obtain ⟨hfollow, hlabel⟩ := List.isChain_cons_cons.mp h
    exact List.forall_mem_cons.mpr ⟨hfollow.bounds, ih hlabel⟩

theorem takeLabelFrom_hyphen (gathered rest : Octets) :
    takeLabelFrom gathered (45 :: rest) = some (gathered.reverse, 45 :: rest) := by
  cases gathered <;> rfl

theorem takeLabelFrom_cons {y : UInt8} (hy : y ≠ 45) (gathered b : Octets) :
    takeLabelFrom gathered (y :: b) =
      if MayFollow (gathered.headD 32) y then takeLabelFrom (y :: gathered) b else none := by
  cases gathered with
  | nil =>
    rw [takeLabelFrom, if_neg hy]
    simp [MayFollow, show isBlank 32 = true by decide]
  | cons x gathered =>
    rw [takeLabelFrom, if_neg hy]
    by_cases hvisible : isLabelCharacter y <;> simp [MayFollow, hvisible]

theorem takeLabelFrom_append (gathered : Octets)
    (h : List.IsChain MayFollow (gathered.headD 32 :: label)) (rest : Octets) :
    takeLabelFrom gathered (label ++ 45 :: rest) =
      some (gathered.reverse ++ label, 45 :: rest) := by
  induction label generalizing gathered with
  | nil => rw [List.nil_append, takeLabelFrom_hyphen, List.append_nil]
  | cons y label ih =>
    obtain ⟨hfollow, hlabel⟩ := List.isChain_cons_cons.mp h
    rw [List.cons_append, takeLabelFrom_cons hfollow.ne_hyphen, if_pos hfollow,
      ih (y :: gathered) hlabel]
    simp

theorem exists_of_takeLabelFrom (h : takeLabelFrom gathered b = some (label, 45 :: rest)) :
    ∃ more, label = gathered.reverse ++ more ∧ b = more ++ 45 :: rest ∧
      List.IsChain MayFollow (gathered.headD 32 :: more) := by
  induction b generalizing gathered with
  | nil => cases h
  | cons y b ih =>
    by_cases hy : y = 45
    · rw [hy, takeLabelFrom_hyphen, Option.some_inj, Prod.mk.injEq] at h
      obtain ⟨rfl, hrest⟩ := h
      exact ⟨[], by simp, by rw [hy, hrest]; rfl, List.isChain_singleton _⟩
    · rw [takeLabelFrom_cons hy] at h
      split_ifs at h with hfollow
      obtain ⟨more, rfl, rfl, hchain⟩ := ih h
      exact ⟨y :: more, by simp, rfl, List.isChain_cons_cons.mpr ⟨hfollow, hchain⟩⟩

theorem after?_eq_some_iff {start : Octets} : after? start b = some rest ↔ b = start ++ rest := by
  unfold after?
  split_ifs with h
  · obtain ⟨more, rfl⟩ := List.isPrefixOf_iff_prefix.mp h
    simp
  · rw [List.isPrefixOf_iff_prefix] at h
    simp only [false_iff]
    rintro rfl
    exact h (List.prefix_append _ _)

theorem before?_eq_some_iff {finish : Octets} :
    before? finish b = some rest ↔ b = rest ++ finish := by
  unfold before?
  split_ifs with h
  · obtain ⟨more, rfl⟩ := List.isSuffixOf_iff_suffix.mp h
    simp
  · rw [List.isSuffixOf_iff_suffix] at h
    simp only [false_iff]
    rintro rfl
    exact h (List.suffix_append _ _)

/-! ## Documents -/

/-- Text is an armored document: lines of other text, the opening boundary with its end of line, the
base64 characters of one element in lines, and the closing boundary on a line of its own, with
nothing behind it but an end of line. -/
inductive IsArmor (d : Document) : Octets → Prop
  | intro {preamble opened lines closed ending : Octets} : IsPreamble preamble → IsLabel d.label →
      IsLineEnd opened → Der.isElement d.body = true → IsFolded (Base64.encode d.body) lines →
      IsLineEnd closed → (ending = [] ∨ IsLineEnd ending) →
      IsArmor d (preamble ++ opening ++ d.label ++ dashes ++ opened ++ lines ++ closed ++
        (closing ++ d.label ++ dashes) ++ ending)

theorem isArmor_of_decode? {d : Document} (h : decode? b = some d) : IsArmor d b := by
  simp only [decode?, Option.bind_eq_bind, Option.bind_eq_some_iff, after?_eq_some_iff,
    before?_eq_some_iff, Base64.decode?_eq_some_iff, Option.guard_eq_some'] at h
  obtain ⟨_, hskip, b₁, rfl, ⟨label, _⟩, htake, b₂, rfl, b₃, hafter, b₄, htrim, b₅, hbefore, _,
    hjoin, body, rfl, _, helement, hd⟩ := h
  obtain rfl := Option.some_inj.mp hd
  obtain ⟨-, preamble, hpreamble, rfl⟩ := isPreamble_of_fromOpening? hskip
  obtain ⟨_, rfl, rfl, hlabel⟩ := exists_of_takeLabelFrom htake
  obtain ⟨opened, hopened, rfl⟩ := exists_of_afterLineEnd? hafter
  obtain ⟨ending, hending, hb⟩ := exists_trimLineEnd b₃
  obtain ⟨closed, hclosed, rfl⟩ := exists_of_beforeLineEnd? hbefore
  obtain ⟨_, rfl, hfolded⟩ := exists_of_joinLinesFrom hjoin
  rw [htrim] at hb
  have harmor := IsArmor.intro (d := ⟨label, body⟩) hpreamble hlabel hopened helement hfolded
    hclosed hending
  simpa [hb, dashes] using harmor

theorem isInline_of_isCharacter {x : UInt8} (h : Base64.IsCharacter x) : IsInline x := by
  rcases h with rfl | h
  · decide
  · constructor <;> rintro rfl <;> revert h <;> decide

theorem isInline_of_mem_encode {body : Octets} : ∀ x ∈ Base64.encode body, IsInline x :=
  fun x hx => isInline_of_isCharacter (Base64.isCharacter_of_mem_encode x hx)

theorem bounds_of_mem_characters {body : Octets} :
    ∀ x ∈ Base64.encode body, 0 < x ∧ x < 128 := by
  intro x hx
  have hletter : ∀ n < 64, 0 < Base64.letter n ∧ Base64.letter n < 128 := by decide
  rcases Base64.isCharacter_of_mem_encode x hx with rfl | hx
  · decide
  · obtain ⟨n, hn⟩ := Option.isSome_iff_exists.mp hx
    obtain ⟨hlt, rfl⟩ := Base64.value?_eq_some hn
    exact hletter n hlt

theorem encode_ne_nil {body : Octets} (h : Der.isElement body = true) :
    Base64.encode body ≠ [] := by
  intro hnil
  have hbody : Base64.decode? [] = some body := Base64.decode?_eq_some_iff.mpr hnil.symm
  obtain rfl := Option.some_inj.mp hbody
  cases h

/-- The end of line in front of the characters is told apart from them. -/
theorem IsFolded.afterLineEnd?_append {body lines e : Octets}
    (h : IsFolded (Base64.encode body) lines) (helement : Der.isElement body = true)
    (he : IsLineEnd e) (rest : Octets) : afterLineEnd? (e ++ (lines ++ rest)) =
      some (lines ++ rest) := by
  have hcharacters := encode_ne_nil helement
  have hlines : lines ≠ [] := fun hnil => hcharacters (h.eq_nil hnil)
  apply Pem.afterLineEnd?_append he
  rw [List.head?_append_of_ne_nil _ hlines, h.head?_eq hcharacters]
  exact fun hhead => (isInline_of_mem_encode _ (List.mem_of_head? hhead)).1 rfl

theorem trimLineEnd_dashes {e : Octets} (he : e = [] ∨ IsLineEnd e) (b : Octets) :
    trimLineEnd (b ++ dashes ++ e) = b ++ dashes := by
  apply trimLineEnd_append he
  intro x hx
  rw [List.getLast?_append_of_ne_nil _ (by decide)] at hx
  obtain rfl := Option.some_inj.mp hx
  decide

theorem IsArmor.decode?_eq {d : Document} (h : IsArmor d b) : decode? b = some d := by
  obtain ⟨hpreamble, hlabel, hopened, helement, hfolded, hclosed, hending⟩ := h
  next preamble opened lines closed ending =>
  have hsplit : preamble ++ opening ++ d.label ++ dashes ++ opened ++ lines ++ closed ++
      (closing ++ d.label ++ dashes) ++ ending = preamble ++ (opening ++ (d.label ++ (dashes ++
        (opened ++ (lines ++ (closed ++ (closing ++ d.label ++ dashes) ++ ending)))))) := by
    simp only [List.append_assoc]
  rw [hsplit]
  -- The steps of the reader, in the order in which it takes the parts off.
  have hskip := fromOpening?_append hpreamble (List.prefix_append opening (d.label ++ (dashes ++
    (opened ++ (lines ++ (closed ++ (closing ++ d.label ++ dashes) ++ ending))))))
  have htake := takeLabelFrom_append [] hlabel ([45, 45, 45, 45] ++
    (opened ++ (lines ++ (closed ++ (closing ++ d.label ++ dashes) ++ ending))))
  have hafter := hfolded.afterLineEnd?_append helement hopened
    (closed ++ (closing ++ d.label ++ dashes) ++ ending)
  have htrim : trimLineEnd (lines ++ (closed ++ (closing ++ d.label ++ dashes) ++ ending)) =
      lines ++ closed ++ (closing ++ d.label ++ dashes) := by
    simpa only [List.append_assoc] using
      trimLineEnd_dashes hending (lines ++ closed ++ closing ++ d.label)
  -- The end of line in front of the closing boundary may swallow one of the last line, so what is
  -- joined is not always the text that was folded.
  obtain ⟨text, hbefore, htext⟩ := hfolded.exists_beforeLineEnd? hclosed isInline_of_mem_encode
  have hfour : 4 ∣ (Base64.encode d.body).length := by
    rw [Base64.length_encode]
    exact Dvd.intro_left _ rfl
  have hjoin := htext.joinLinesFrom_eq isInline_of_mem_encode hfour []
  simp only [decode?, Option.bind_eq_bind, Option.bind_eq_some_iff, after?_eq_some_iff,
    before?_eq_some_iff, Base64.decode?_eq_some_iff, Option.guard_eq_some']
  exact ⟨_, hskip, _, rfl, ⟨_, _⟩, htake, _, rfl, _, hafter, _, htrim, _, hbefore, _, hjoin, _,
    rfl, (), helement, rfl⟩

theorem decode?_eq_some_iff {d : Document} : decode? b = some d ↔ IsArmor d b :=
  ⟨isArmor_of_decode?, IsArmor.decode?_eq⟩

theorem IsPreamble.zero_notMem (h : IsPreamble b) : 0 ∉ b := by
  obtain ⟨lines, rfl, hlines⟩ := h
  rw [List.mem_flatMap]
  rintro ⟨line, hline, hzero⟩
  rcases List.mem_append.mp hzero with hzero | hzero
  · exact (hlines line hline).2.1 hzero
  · exact absurd hzero (by decide)

theorem IsFolded.zero_notMem {body lines : Octets} (h : IsFolded (Base64.encode body) lines) :
    0 ∉ lines := by
  intro hzero
  rcases h.mem_text 0 hzero with hzero | hzero | hzero
  · exact UInt8.lt_irrefl 0 (bounds_of_mem_characters 0 hzero).1
  · exact absurd hzero (by decide)
  · exact absurd hzero (by decide)

/-- Armored documents have no zero octets, also not in front of the opening boundary. -/
theorem IsArmor.zero_notMem {d : Document} (h : IsArmor d b) : 0 ∉ b := by
  obtain ⟨hpreamble, hlabel, hopened, -, hfolded, hclosed, hending⟩ := h
  have hend {e : Octets} (he : e = [] ∨ IsLineEnd e) : 0 ∉ e := by
    rcases he with rfl | rfl | rfl | rfl <;> decide
  have hlabel : 0 ∉ d.label := fun hzero =>
    UInt8.lt_irrefl 0 (bounds_of_isChain hlabel 0 hzero).1
  have hopening : 0 ∉ opening := by decide
  have hclosing : 0 ∉ closing := by decide
  have hdashes : 0 ∉ dashes := by decide
  simp only [List.mem_append, not_or]
  exact ⟨⟨⟨⟨⟨⟨⟨⟨hpreamble.zero_notMem, hopening⟩, hlabel⟩, hdashes⟩, hend (.inr hopened)⟩,
    hfolded.zero_notMem⟩, hend (.inr hclosed)⟩, ⟨hclosing, hlabel⟩, hdashes⟩, hend hending⟩

/-- The canonical written form is an armored document. -/
theorem isArmor_encode {d : Document} (hlabel : IsLabel d.label)
    (helement : Der.isElement d.body = true) : IsArmor d (encode d) := by
  obtain ⟨lines, hlines, hfolded⟩ :=
    IsFolded.exists_breakLinesFrom [] (encode_ne_nil helement)
  have hpreamble : IsPreamble [] := ⟨[], rfl, fun _ h => absurd h List.not_mem_nil⟩
  have harmor := IsArmor.intro hpreamble hlabel (.inl rfl) helement hfolded (.inl rfl)
    (.inr (.inl rfl))
  rw [encode, hlines]
  simpa using harmor

/-- Text is the canonical form: the base64 characters in full lines of 64, but for the last one,
between the boundaries, and every line is ended by a line feed. -/
def IsCanonical (d : Document) (text : Octets) : Prop :=
  ∃ lines : List Octets, lines.flatten = Base64.encode d.body ∧
    (∀ line ∈ lines.dropLast, line.length = 64) ∧ (∀ line ∈ lines, line ≠ [] ∧ line.length ≤ 64) ∧
    text = opening ++ d.label ++ dashes ++ [lf] ++ lines.flatMap (· ++ [lf]) ++
      closing ++ d.label ++ dashes ++ [lf]

theorem isCanonical_encode (d : Document) : IsCanonical d (encode d) := by
  obtain ⟨lines, hflatten, hfull, hshort, hbreak⟩ :=
    exists_lines_of_breakLinesFrom [] (Base64.encode d.body)
  exact ⟨lines, hflatten, hfull, hshort, by rw [encode, hbreak, List.reverse_nil, List.nil_append]⟩

/-- The canonical form is ASCII. -/
theorem lt_of_mem_encode {d : Document} (hlabel : IsLabel d.label)
    (helement : Der.isElement d.body = true) : ∀ x ∈ encode d, x < 128 := by
  obtain ⟨lines, hlines, hfolded⟩ :=
    IsFolded.exists_breakLinesFrom [] (encode_ne_nil helement)
  have hopening : ∀ x ∈ opening, x < 128 := by simp [opening, dashes]
  have hclosing : ∀ x ∈ closing, x < 128 := by simp [closing, dashes]
  have hdashes : ∀ x ∈ dashes, x < 128 := by simp [dashes]
  have hend : ∀ x ∈ [lf], x < 128 := by simp [lf]
  have hlabel : ∀ x ∈ d.label, x < 128 := fun x hx => (bounds_of_isChain hlabel x hx).2
  have htext : ∀ x ∈ lines, x < 128 := by
    intro x hx
    rcases hfolded.mem_text x hx with hx | rfl | rfl
    · exact (bounds_of_mem_characters x hx).2
    · decide
    · decide
  rw [encode, hlines]
  simp only [List.reverse_nil, List.nil_append, List.forall_mem_append]
  have hfirst := And.intro (And.intro (And.intro hopening hlabel) hdashes) hend
  exact ⟨⟨⟨⟨⟨hfirst, htext, hend⟩, hclosing⟩, hlabel⟩, hdashes⟩, hend⟩

/-! ## Recognition -/

/-- What looks armored is an opening behind white space. -/
theorem isArmored_iff : isArmored b ↔
    ∃ blanks rest, (∀ x ∈ blanks, isAsciiSpace x) ∧ b = blanks ++ opening ++ rest := by
  rw [isArmored, List.isPrefixOf_iff_prefix]
  constructor
  · rintro ⟨rest, hrest⟩
    refine ⟨b.takeWhile isAsciiSpace, rest, fun x hx => List.mem_takeWhile_imp hx, ?_⟩
    rw [List.append_assoc, hrest, List.takeWhile_append_dropWhile]
  · rintro ⟨blanks, rest, hblanks, rfl⟩
    rw [List.append_assoc, List.dropWhile_append_of_pos hblanks]
    exact List.prefix_append _ _

theorem isArmored_encode (d : Document) : isArmored (encode d) :=
  isArmored_iff.mpr ⟨[], _, fun _ h => absurd h List.not_mem_nil, by
    rw [encode, List.nil_append]
    simp only [List.append_assoc]
    rfl⟩

end KeyCustody.Pem
