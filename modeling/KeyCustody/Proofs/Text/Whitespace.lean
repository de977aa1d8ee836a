import KeyCustody.Text.Whitespace
import Mathlib.Data.List.DropRight
import Mathlib.Tactic.Common

/-!
# White space around a text

A text without white space at its ends is what trimming leaves, and trimming it again changes
nothing.

## Main definitions

* `Whitespace.IsTrimmed` — texts without white space at their ends

## Main results

* `Whitespace.isTrimmed_trim`, `Whitespace.trim_eq_self_iff` — the results of trimming
-/

namespace KeyCustody.Whitespace

variable {s : List Char}

/-- What counts as white space among the ASCII characters counts in Unicode. -/
theorem isUnicode_of_isAscii {c : Char} (h : isAscii c = true) : isUnicode c = true := by
  simp only [isAscii, Bool.or_eq_true, beq_iff_eq] at h
  rcases h with (((rfl | rfl) | rfl) | rfl) | h
  · decide
  · decide
  · decide
  · decide
  · simp [isUnicode, h]

/-- Neither the first nor the last character is white space. -/
def IsTrimmed (s : List Char) : Prop :=
  (∀ c ∈ s.head?, isUnicode c = false) ∧ ∀ c ∈ s.getLast?, isUnicode c = false

theorem trim_eq (s : List Char) : trim s = (s.dropWhile isUnicode).rdropWhile isUnicode := rfl

theorem trim_sublist (s : List Char) : (trim s).Sublist s :=
  (List.rdropWhile_prefix _ _).sublist.trans (List.dropWhile_suffix _).sublist

theorem head?_dropWhile {c : Char} (h : c ∈ (s.dropWhile isUnicode).head?) :
    isUnicode c = false := by
  have hnot := List.head?_dropWhile_not isUnicode s
  rw [Option.mem_def.mp h] at hnot
  simpa using hnot

theorem isTrimmed_trim (s : List Char) : IsTrimmed (trim s) := by
  constructor
  · -- Dropping at the end leaves the first character, if it leaves any.
    intro c hc
    obtain ⟨dropped, hprefix⟩ := List.rdropWhile_prefix isUnicode (s.dropWhile isUnicode)
    refine head?_dropWhile (s := s) ?_
    rw [← hprefix, ← trim_eq, List.head?_append, Option.mem_def.mp hc]
    rfl
  · intro c hc
    rw [trim, List.getLast?_reverse] at hc
    exact head?_dropWhile hc

theorem IsTrimmed.dropWhile_eq (h : IsTrimmed s) : s.dropWhile isUnicode = s := by
  cases s with
  | nil => rfl
  | cons c rest => exact List.dropWhile_cons_of_neg (by simpa using h.1 c rfl)

theorem IsTrimmed.reverse (h : IsTrimmed s) : IsTrimmed s.reverse :=
  ⟨by simpa using h.2, by simpa using h.1⟩

theorem trim_eq_self_iff : trim s = s ↔ IsTrimmed s := by
  constructor
  · intro h
    exact h ▸ isTrimmed_trim s
  · intro h
    rw [trim, h.dropWhile_eq, h.reverse.dropWhile_eq, List.reverse_reverse]

theorem trim_trim (s : List Char) : trim (trim s) = trim s :=
  trim_eq_self_iff.mpr (isTrimmed_trim s)

end KeyCustody.Whitespace
