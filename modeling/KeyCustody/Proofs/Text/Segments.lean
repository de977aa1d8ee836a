import KeyCustody.Text.Segments
import Mathlib.Tactic.Common

/-!
# Cutting and joining

Cutting a text at a separator and joining the segments again are inverse to each other, on the lists
of segments that have no separator in them.

## Main results

* `Segments.cut_intercalate`, `Segments.intercalate_cut` — joining and cutting
* `Segments.cut_eq_iff` — the segments of a text
-/

namespace KeyCustody.Segments

variable {separator : Char} {s : List Char} {parts : List (List Char)}

theorem cut_eq_splitOn (separator : Char) (s : List Char) : cut separator s = s.splitOn separator := by
  induction s with
  | nil => rfl
  | cons c rest ih =>
    rw [cut, List.splitOn_cons_eq_if_modifyHead, ih]
    by_cases h : c = separator
    · simp [h]
    · rw [if_neg h, if_neg (by simpa using h)]
      cases hrest : rest.splitOn separator with
      | nil => exact absurd hrest (List.splitOn_ne_nil _ _)
      | cons first later => rfl

theorem intercalate_cut (separator : Char) (s : List Char) :
    [separator].intercalate (cut separator s) = s := by
  rw [cut_eq_splitOn, List.intercalate_splitOn]

theorem cut_intercalate (h : ∀ part ∈ parts, separator ∉ part) (hne : parts ≠ []) :
    cut separator ([separator].intercalate parts) = parts := by
  rw [cut_eq_splitOn, List.splitOn_intercalate separator h hne]

theorem notMem_of_mem_cut : ∀ part ∈ cut separator s, separator ∉ part := by
  induction s with
  | nil => simp [cut]
  | cons c rest ih =>
    rw [cut]
    split_ifs with h
    · exact List.forall_mem_cons.mpr ⟨List.not_mem_nil, ih⟩
    · cases hrest : cut separator rest with
      | nil => simpa using Ne.symm h
      | cons first later =>
        rw [hrest] at ih
        obtain ⟨hfirst, hlater⟩ := List.forall_mem_cons.mp ih
        exact List.forall_mem_cons.mpr ⟨by simp [Ne.symm h, hfirst], hlater⟩

/-- The segments of a text are those that join to it and have no separator in them. -/
theorem cut_eq_iff : cut separator s = parts ↔
    parts ≠ [] ∧ (∀ part ∈ parts, separator ∉ part) ∧ s = [separator].intercalate parts := by
  constructor
  · rintro rfl
    exact ⟨cut_ne_nil _ _, notMem_of_mem_cut, (intercalate_cut _ _).symm⟩
  · rintro ⟨hne, hparts, rfl⟩
    exact cut_intercalate hparts hne

end KeyCustody.Segments
