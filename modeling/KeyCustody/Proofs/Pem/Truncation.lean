import KeyCustody.Proofs.Pem.LeadingSpace

/-!
# Armor that is cut short

The text of a document up to its last hyphen delimits itself. The first opening on a line of its own
says where the preamble ends, and after that hyphens stand in the boundaries alone, so that every
part reaches to the next hyphen. Two documents of which one begins like the other have these parts
in common. So armor that is cut short is no armor, unless all that is cut off is the end of line
behind the last boundary.

## Main definitions

* `Pem.framed` — the text of a document up to the last hyphen

## Main results

* `Pem.framed_append_inj` — the parts of a document are determined by how the text begins
* `Pem.IsArmor.exists_framed` — what armor consists of
* `Pem.IsArmor.isArmor_prefix_iff` — which beginnings of armor are armor
-/

namespace KeyCustody.Pem

variable {preamble preamble' label label' middle middle' : Octets}

/-- The text of a document up to the last hyphen, by what stands in front of the first boundary, in
the boundaries, and between them. -/
def framed (preamble label middle : Octets) : Octets :=
  preamble ++ (opening ++ (label ++ (dashes ++ (middle ++ (closing ++ (label ++ dashes))))))

/-! ## Parts that delimit themselves -/

/-- Whole lines end where the first opening begins. -/
theorem preamble_append_inj {b b' : Octets} (h : IsPreamble preamble) (h' : IsPreamble preamble')
    (hb : opening <+: b) (hb' : opening <+: b') (heq : preamble ++ b = preamble' ++ b') :
    preamble = preamble' ∧ b = b' := by
  have hskip := fromOpening?_append h hb
  rw [heq, fromOpening?_append h' hb'] at hskip
  -- The reader skips to one place, whichever way the text is taken apart.
  obtain rfl := Option.some_inj.mp hskip
  exact ⟨List.append_cancel_right heq, rfl⟩

/-- What has no hyphen in it ends where the first one stands. -/
theorem append_hyphen_inj {a a' b b' : Octets} (ha : 45 ∉ a) (ha' : 45 ∉ a')
    (heq : a ++ 45 :: b = a' ++ 45 :: b') : a = a' ∧ b = b' := by
  induction a generalizing a' with
  | nil =>
    cases a' with
    | nil => exact ⟨rfl, (List.cons.inj heq).2⟩
    | cons x a' => exact absurd ((List.cons.inj heq).1 ▸ List.mem_cons_self) ha'
  | cons x a ih =>
    cases a' with
    | nil => exact absurd ((List.cons.inj heq).1 ▸ List.mem_cons_self) ha
    | cons y a' =>
      obtain ⟨rfl, htail⟩ := List.cons.inj heq
      obtain ⟨rfl, rfl⟩ := ih (fun hmem => ha (List.mem_cons_of_mem _ hmem))
        (fun hmem => ha' (List.mem_cons_of_mem _ hmem)) htail
      exact ⟨rfl, rfl⟩

theorem append_dashes_inj {a a' b b' : Octets} (ha : 45 ∉ a) (ha' : 45 ∉ a')
    (heq : a ++ (dashes ++ b) = a' ++ (dashes ++ b')) : a = a' ∧ b = b' := by
  obtain ⟨rfl, htail⟩ := append_hyphen_inj ha ha' heq
  exact ⟨rfl, (List.append_right_inj [45, 45, 45, 45]).mp htail⟩

/-- The parts of a document are determined by how the text begins, and with them what is behind. -/
theorem framed_append_inj (hpreamble : IsPreamble preamble) (hpreamble' : IsPreamble preamble')
    (hlabel : 45 ∉ label) (hlabel' : 45 ∉ label') (hmiddle : 45 ∉ middle)
    (hmiddle' : 45 ∉ middle') {b b' : Octets}
    (heq : framed preamble label middle ++ b = framed preamble' label' middle' ++ b') :
    framed preamble label middle = framed preamble' label' middle' ∧ b = b' := by
  simp only [framed, List.append_assoc] at heq
  obtain ⟨rfl, hopened⟩ := preamble_append_inj hpreamble hpreamble' (List.prefix_append _ _)
    (List.prefix_append _ _) heq
  obtain ⟨rfl, hlabelled⟩ := append_dashes_inj hlabel hlabel' (List.append_cancel_left hopened)
  -- The last boundary begins with hyphens too, and its label is the one of the first.
  simp only [closing, List.append_assoc] at hlabelled
  obtain ⟨rfl, hclosed⟩ := append_dashes_inj hmiddle hmiddle' hlabelled
  simp only [← List.append_assoc] at hclosed
  exact ⟨rfl, List.append_cancel_left hclosed⟩

/-! ## Armor -/

variable {d d' : Document} {b u : Octets}

/-- Armor is a framed text and maybe an end of line, and any other end of line would do. -/
theorem IsArmor.exists_framed (h : IsArmor d b) : ∃ preamble middle ending,
    (IsPreamble preamble ∧ 45 ∉ d.label ∧ 45 ∉ middle) ∧
    b = framed preamble d.label middle ++ ending ∧ (ending = [] ∨ IsLineEnd ending) ∧
    ∀ other, (other = [] ∨ IsLineEnd other) →
      IsArmor d (framed preamble d.label middle ++ other) := by
  obtain ⟨hpreamble, hlabel, hopened, helement, hfolded, hclosed, hending⟩ := h
  next preamble opened lines closed ending =>
  have hframed (rest : Octets) : preamble ++ opening ++ d.label ++ dashes ++ opened ++ lines ++
      closed ++ (closing ++ d.label ++ dashes) ++ rest =
        framed preamble d.label (opened ++ lines ++ closed) ++ rest := by
    simp only [framed, List.append_assoc]
  have hmiddle : 45 ∉ opened ++ lines ++ closed := by
    simp only [List.mem_append, not_or]
    exact ⟨⟨hopened.hyphen_notMem, hfolded.hyphen_notMem⟩, hclosed.hyphen_notMem⟩
  refine ⟨preamble, opened ++ lines ++ closed, ending,
    ⟨hpreamble, hyphen_notMem_of_isChain hlabel, hmiddle⟩, hframed ending, hending, ?_⟩
  intro other hother
  rw [← hframed]
  exact .intro hpreamble hlabel hopened helement hfolded hclosed hother

/-- A beginning of an end of line is one itself, or there is none. -/
theorem lineEnd_of_beginning {e e' : Octets} (h : e = [] ∨ IsLineEnd e) (hbegins : e' <+: e) :
    e' = [] ∨ IsLineEnd e' := by
  -- The only proper beginning that is not empty is the carriage return of a CR LF.
  rw [← List.mem_inits] at hbegins
  rcases h with rfl | rfl | rfl | rfl <;> revert e' <;> decide

/-- A beginning of armor is armor exactly if it reaches to the last hyphen, and then for the same
document. -/
theorem IsArmor.isArmor_prefix_iff (h : IsArmor d b) : ∃ body ending, b = body ++ ending ∧
    closing ++ d.label ++ dashes <:+ body ∧ (ending = [] ∨ IsLineEnd ending) ∧
    ∀ u d', u <+: b → (IsArmor d' u ↔ d' = d ∧ body.length ≤ u.length) := by
  obtain ⟨preamble, middle, ending, ⟨hpreamble, hlabel, hmiddle⟩, rfl, hending, hother⟩ :=
    h.exists_framed
  have hsuffix : closing ++ d.label ++ dashes <:+ framed preamble d.label middle :=
    ⟨preamble ++ opening ++ d.label ++ dashes ++ middle, by simp only [framed, List.append_assoc]⟩
  refine ⟨framed preamble d.label middle, ending, rfl, hsuffix, hending, ?_⟩
  intro u d' hu
  constructor
  · intro hd'
    obtain ⟨preamble', middle', ending', ⟨hpreamble', hlabel', hmiddle'⟩, rfl, hending', -⟩ :=
      hd'.exists_framed
    obtain ⟨rest, hrest⟩ := hu
    rw [List.append_assoc] at hrest
    obtain ⟨hsame, -⟩ :=
      framed_append_inj hpreamble' hpreamble hlabel' hlabel hmiddle' hmiddle hrest
    -- One body in front of its own end of line is armor of both documents, and is read as one.
    rw [hsame] at hd' ⊢
    exact ⟨Option.some_inj.mp (hd'.decode?_eq.symm.trans (hother _ hending').decode?_eq),
      (List.prefix_append _ _).length_le⟩
  · rintro ⟨rfl, hlength⟩
    obtain ⟨ending', rfl⟩ := List.prefix_of_prefix_length_le (List.prefix_append _ _) hu hlength
    exact hother _ (lineEnd_of_beginning hending ((List.prefix_append_right_inj _).mp hu))

end KeyCustody.Pem
